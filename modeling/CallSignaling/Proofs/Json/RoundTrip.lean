import CallSignaling.Json.Document
import CallSignaling.Proofs.Json.Printing
import CallSignaling.Proofs.Json.Scanning

/-!
# Reading undoes writing

* `Document.parse?_tokens`, `Document.eq_of_parse?`: a document is parsed from its tokens and from
  nothing else.
* `Document.Spells`: whether a text is a way to write a document.
* `Document.ofText?_eq_some_iff`: a document is read from every way to write it and from no other
  text.
* `Document.ofText?_text`: the text of a value is read as the document of the value.
* `Document.readText?`: what is read from a text by a reader of documents.

Every document is covered, whatever its numbers and strings and however deep it is nested: limits are
a matter of what is asked of the document.
-/

namespace CallSignaling.Document

/-! ### What stands behind a number -/

section Chain

open JsonToken (Follows IsEnd)

theorem isChain_cons {token : JsonToken} (hnumber : ∀ n, token ≠ .number n)
    {tokens : List JsonToken} (h : tokens.IsChain Follows) : (token :: tokens).IsChain Follows :=
  List.isChain_cons.2 ⟨fun _ _ n heq => absurd heq (hnumber n), h⟩

theorem isEnd_of_mem_itemsTokens (items : List Document) {rest : List JsonToken} {token : JsonToken}
    (h : token ∈ (itemsTokens items ++ rest).head?) : token.IsEnd := by
  cases items with
  | nil =>
    cases h
    exact .inr (.inl rfl)
  | cons item items =>
    cases h
    exact .inl rfl

theorem isEnd_of_mem_membersTokens (members : List (Option String × Document))
    {rest : List JsonToken} {token : JsonToken}
    (h : token ∈ (membersTokens members ++ rest).head?) : token.IsEnd := by
  cases members with
  | nil =>
    cases h
    exact .inr (.inr rfl)
  | cons member members =>
    cases h
    exact .inl rfl

mutual

/-- Behind every number of a document stands an end, if one stands behind the document. -/
theorem isChain_tokens : (d : Document) → {rest : List JsonToken} →
    (∀ token ∈ rest.head?, IsEnd token) → rest.IsChain Follows → (d.tokens ++ rest).IsChain Follows
  | .null, _, _, h => isChain_cons (by simp) h
  | .bool _, _, _, h => isChain_cons (by simp) h
  | .number _, _, hend, h => List.isChain_cons.2 ⟨fun token htoken _ _ => hend token htoken, h⟩
  | .string _, _, _, h => isChain_cons (by simp) h
  | .array [], _, _, h => isChain_cons (by simp) (isChain_cons (by simp) h)
  | .array (item :: items), _, _, h => by
    have hitem := isChain_tokens item (fun _ => isEnd_of_mem_itemsTokens items)
      (isChain_itemsTokens items h)
    rw [tokens, List.cons_append, List.cons_append, List.append_assoc]
    exact isChain_cons (by simp) hitem
  | .object [], _, _, h => isChain_cons (by simp) (isChain_cons (by simp) h)
  | .object ((name, value) :: members), _, _, h => by
    have hvalue := isChain_tokens value (fun _ => isEnd_of_mem_membersTokens members)
      (isChain_membersTokens members h)
    simp only [tokens, List.cons_append, List.append_assoc]
    exact isChain_cons (by simp) (isChain_cons (by simp) (isChain_cons (by simp) hvalue))

theorem isChain_itemsTokens : (items : List Document) → {rest : List JsonToken} →
    rest.IsChain Follows → (itemsTokens items ++ rest).IsChain Follows
  | [], _, h => isChain_cons (by simp) h
  | item :: items, _, h => by
    have hitem := isChain_tokens item (fun _ => isEnd_of_mem_itemsTokens items)
      (isChain_itemsTokens items h)
    rw [itemsTokens, List.cons_append, List.cons_append, List.append_assoc]
    exact isChain_cons (by simp) hitem

theorem isChain_membersTokens : (members : List (Option String × Document)) →
    {rest : List JsonToken} → rest.IsChain Follows →
    (membersTokens members ++ rest).IsChain Follows
  | [], _, h => isChain_cons (by simp) h
  | (name, value) :: members, _, h => by
    have hvalue := isChain_tokens value (fun _ => isEnd_of_mem_membersTokens members)
      (isChain_membersTokens members h)
    simp only [membersTokens, List.cons_append, List.append_assoc]
    exact isChain_cons (by simp) (isChain_cons (by simp) (isChain_cons (by simp) hvalue))

end

end Chain

/-! ### Parsing the tokens of a document -/

/-- A document starts with a token that closes nothing. -/
theorem tokens_eq_cons (d : Document) :
    ∃ token rest, d.tokens = token :: rest ∧ token ≠ .closeArray := by
  cases d with
  | null => exact ⟨_, _, rfl, nofun⟩
  | bool value => exact ⟨_, _, rfl, nofun⟩
  | number value => exact ⟨_, _, rfl, nofun⟩
  | string value => exact ⟨_, _, rfl, nofun⟩
  | array items => cases items <;> exact ⟨_, _, rfl, nofun⟩
  | object members => cases members <;> exact ⟨_, _, rfl, nofun⟩

theorem parse?_openArray (fuel : Nat) {token : JsonToken} (tokens : List JsonToken)
    (h : token ≠ .closeArray) :
    parse? (fuel + 1) (.openArray :: token :: tokens) =
      (parseItems? fuel (token :: tokens)).map fun p => (array p.1, p.2) := by
  cases token <;> first | contradiction | (simp only [parse?]; cases parseItems? fuel _ <;> rfl)

theorem parse?_openObject (fuel : Nat) (name : Option String) (tokens : List JsonToken) :
    parse? (fuel + 1) (.openObject :: .string name :: tokens) =
      (parseMembers? fuel (.string name :: tokens)).map fun p => (object p.1, p.2) := by
  simp only [parse?]
  cases parseMembers? fuel _ <;> rfl

mutual

/-- **Parsing undoes writing**: twice as much fuel as tokens is enough. -/
theorem parse?_tokens : (d : Document) → (rest : List JsonToken) → (fuel : Nat) →
    2 * d.tokens.length ≤ fuel → parse? fuel (d.tokens ++ rest) = some (d, rest)
  | .null, _, _ + 1, _ => rfl
  | .bool _, _, _ + 1, _ => rfl
  | .number _, _, _ + 1, _ => rfl
  | .string _, _, _ + 1, _ => rfl
  | .array [], _, _ + 1, _ => rfl
  | .array (item :: items), rest, fuel + 1, h => by
    simp only [tokens, List.cons_append, List.length_cons, List.length_append] at h
    have hitems := parseItems?_tokens item items rest fuel (by omega)
    obtain ⟨token, tokens', hcons, htoken⟩ := tokens_eq_cons item
    rw [tokens, List.cons_append, List.cons_append, List.append_assoc]
    rw [hcons, List.cons_append] at hitems ⊢
    rw [parse?_openArray _ _ htoken, hitems]
    rfl
  | .object [], _, _ + 1, _ => rfl
  | .object ((name, value) :: members), rest, fuel + 1, h => by
    simp only [tokens, List.cons_append, List.length_cons, List.length_append] at h
    have hmembers := parseMembers?_tokens name value members rest fuel (by omega)
    simp only [tokens, List.cons_append, List.append_assoc]
    rw [parse?_openObject, hmembers]
    rfl

theorem parseItems?_tokens : (item : Document) → (items : List Document) →
    (rest : List JsonToken) → (fuel : Nat) →
    2 * (item.tokens.length + (itemsTokens items).length) < fuel →
    parseItems? fuel (item.tokens ++ (itemsTokens items ++ rest)) = some (item :: items, rest)
  | item, [], rest, fuel + 1, h => by
    have hitem := parse?_tokens item (.closeArray :: rest) fuel (by omega)
    rw [itemsTokens, List.singleton_append, parseItems?, hitem]
    rfl
  | item, next :: items, rest, fuel + 1, h => by
    simp only [itemsTokens, List.cons_append, List.length_cons, List.length_append] at h
    have hnext := parseItems?_tokens next items rest fuel (by omega)
    have hitem := parse?_tokens item
      (.comma :: (next.tokens ++ (itemsTokens items ++ rest))) fuel (by omega)
    rw [itemsTokens, List.cons_append, List.cons_append, List.append_assoc, parseItems?, hitem]
    simp [hnext]

theorem parseMembers?_tokens : (name : Option String) → (value : Document) →
    (members : List (Option String × Document)) → (rest : List JsonToken) → (fuel : Nat) →
    2 * (value.tokens.length + (membersTokens members).length) < fuel →
    parseMembers? fuel (.string name :: .colon ::
        (value.tokens ++ (membersTokens members ++ rest))) =
      some ((name, value) :: members, rest)
  | name, value, [], rest, fuel + 1, h => by
    have hvalue := parse?_tokens value (.closeObject :: rest) fuel (by omega)
    rw [membersTokens, List.singleton_append, parseMembers?, hvalue]
    rfl
  | name, value, (next, other) :: members, rest, fuel + 1, h => by
    simp only [membersTokens, List.cons_append, List.length_cons, List.length_append] at h
    have hnext := parseMembers?_tokens next other members rest fuel (by omega)
    have hvalue := parse?_tokens value (.comma :: .string next :: .colon ::
      (other.tokens ++ (membersTokens members ++ rest))) fuel (by omega)
    simp only [membersTokens, List.cons_append, List.append_assoc]
    rw [parseMembers?, hvalue]
    simp [hnext]

end

mutual

/-- **Parsing is exact**: the tokens of a document that is parsed stand first. -/
theorem eq_of_parse? : (fuel : Nat) → {all rest : List JsonToken} → {d : Document} →
    parse? fuel all = some (d, rest) → all = d.tokens ++ rest
  | 0, _, _, _, h => by cases h
  | fuel + 1, all, rest, d, h => by
    unfold parse? at h
    split at h
    case h_1 => cases h
    case h_2 | h_3 | h_4 | h_5 | h_6 | h_8 =>
      cases h
      rfl
    case h_7 heq =>
      cases heq
      simp only [Option.bind_eq_bind, Option.bind_eq_some_iff] at h
      obtain ⟨⟨items, after⟩, hitems, heq⟩ := h
      cases heq
      obtain ⟨item, others, rfl, rfl⟩ := eq_of_parseItems? fuel hitems
      rw [tokens, List.cons_append, List.cons_append, List.append_assoc]
    case h_9 heq =>
      cases heq
      simp only [Option.bind_eq_bind, Option.bind_eq_some_iff] at h
      obtain ⟨⟨members, after⟩, hmembers, heq⟩ := h
      cases heq
      obtain ⟨name, value, others, rfl, rfl⟩ := eq_of_parseMembers? fuel hmembers
      simp only [tokens, List.cons_append, List.append_assoc]
    case h_10 => cases h

theorem eq_of_parseItems? : (fuel : Nat) → {all rest : List JsonToken} →
    {items : List Document} → parseItems? fuel all = some (items, rest) →
    ∃ item others, items = item :: others ∧ all = item.tokens ++ (itemsTokens others ++ rest)
  | 0, _, _, _, h => by cases h
  | fuel + 1, all, rest, items, h => by
    unfold parseItems? at h
    simp only [Option.bind_eq_bind, Option.bind_eq_some_iff] at h
    obtain ⟨⟨item, after⟩, hitem, h⟩ := h
    have hfirst := eq_of_parse? fuel hitem
    split at h
    · rename_i heq
      cases heq
      cases h
      exact ⟨item, [], rfl, hfirst⟩
    · rename_i heq
      cases heq
      simp only [Option.bind_eq_some_iff] at h
      obtain ⟨⟨others, after⟩, hothers, heq⟩ := h
      cases heq
      obtain ⟨next, others, rfl, rfl⟩ := eq_of_parseItems? fuel hothers
      refine ⟨item, next :: others, rfl, ?_⟩
      rw [hfirst, itemsTokens, List.cons_append, List.cons_append, List.append_assoc]
    · cases h

theorem eq_of_parseMembers? : (fuel : Nat) → {all rest : List JsonToken} →
    {members : List (Option String × Document)} →
    parseMembers? fuel all = some (members, rest) →
    ∃ name value others, members = (name, value) :: others ∧
      all = .string name :: .colon :: (value.tokens ++ (membersTokens others ++ rest))
  | 0, _, _, _, h => by cases h
  | fuel + 1, all, rest, members, h => by
    unfold parseMembers? at h
    split at h
    · rename_i name all heq
      cases heq
      simp only [Option.bind_eq_bind, Option.bind_eq_some_iff] at h
      obtain ⟨⟨value, after⟩, hvalue, h⟩ := h
      have hfirst := eq_of_parse? fuel hvalue
      split at h
      · rename_i heq
        cases heq
        cases h
        exact ⟨name, value, [], rfl, by rw [hfirst]; rfl⟩
      · rename_i heq
        cases heq
        simp only [Option.bind_eq_some_iff] at h
        obtain ⟨⟨others, after⟩, hothers, heq⟩ := h
        cases heq
        obtain ⟨next, other, others, rfl, rfl⟩ := eq_of_parseMembers? fuel hothers
        refine ⟨name, value, (next, other) :: others, rfl, ?_⟩
        simp only [hfirst, membersTokens, List.cons_append, List.append_assoc]
      · cases h
    · cases h

end

theorem ofTokens?_tokens (d : Document) : ofTokens? d.tokens = some d := by
  have h := parse?_tokens d [] _ (Nat.le_refl _)
  rw [List.append_nil] at h
  rw [ofTokens?, h]

theorem eq_of_ofTokens? {tokens : List JsonToken} {d : Document} (h : ofTokens? tokens = some d) :
    tokens = d.tokens := by
  rw [ofTokens?] at h
  split at h
  · rename_i hparse
    cases h
    rw [eq_of_parse? _ hparse, List.append_nil]
  · cases h

/-! ### Texts -/

/-- Whether a text is a way to write a document. -/
def Spells (text : String) (d : Document) : Prop := JsonToken.SpellsAll text.toList d.tokens

/-- **Reading undoes writing**: a document is read from every way to write it. -/
theorem ofText?_of_spells {text : String} {d : Document} (h : Spells text d) :
    ofText? text = some d := by
  have hchain : (d.tokens ++ []).IsChain JsonToken.Follows := isChain_tokens d nofun .nil
  rw [List.append_nil] at hchain
  rw [ofText?, JsonToken.scan?_of_spellsAll h hchain]
  exact ofTokens?_tokens d

/-- **Reading is exact**: a document is read from a text exactly if the text is a way to write it. -/
theorem ofText?_eq_some_iff {text : String} {d : Document} :
    ofText? text = some d ↔ Spells text d := by
  refine ⟨fun h => ?_, ofText?_of_spells⟩
  simp only [ofText?, Option.bind_eq_bind, Option.bind_eq_some_iff] at h
  obtain ⟨tokens, hscan, htokens⟩ := h
  rw [Spells, ← eq_of_ofTokens? htokens]
  exact JsonToken.spellsAll_of_scan? hscan

/-- Characters from which a document is parsed are a way to write it. -/
theorem spells_ofList {chars : List Char} {d : Document}
    (h : (JsonToken.scan? chars).bind ofTokens? = some d) : Spells (String.ofList chars) d := by
  refine ofText?_eq_some_iff.1 ?_
  rwa [ofText?, String.toList_ofList, Option.bind_eq_bind]

/-- The empty text is no way to write anything. -/
theorem Spells.ne_empty {text : String} {d : Document} (h : Spells text d) : text ≠ "" := by
  rintro rfl
  have hread := ofText?_of_spells h
  cases hread

/-- The text of a value is a way to write its document. -/
theorem spells_text (j : Json) : Spells j.text (ofJson j) := by
  have h := JsonToken.spellsAll_chars j .nil
  rw [List.append_nil, List.append_nil] at h
  rwa [Spells, Json.text, String.toList_ofList]

/-- The text of a value is read as the document of the value. -/
theorem ofText?_text (j : Json) : ofText? j.text = some (ofJson j) :=
  ofText?_of_spells (spells_text j)

theorem text_ne_empty (j : Json) : j.text ≠ "" := (spells_text j).ne_empty

/-- What is read from a text by a reader of documents. -/
def readText? {α : Type} (read? : Document → Option α) (text : String) : Option α :=
  (ofText? text).bind read?

theorem readText?_of_spells {α : Type} (read? : Document → Option α) {text : String} {d : Document}
    (h : Spells text d) : readText? read? text = read? d := by
  rw [readText?, ofText?_of_spells h, Option.bind_some]

theorem readText?_text {α : Type} (read? : Document → Option α) (j : Json) :
    readText? read? j.text = read? (ofJson j) :=
  readText?_of_spells read? (spells_text j)

end CallSignaling.Document
