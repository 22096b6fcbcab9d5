import CallSignaling.Json.Document
import CallSignaling.Json.Printer
import CallSignaling.Proofs.Json.Numbers
import CallSignaling.Proofs.Json.Spelling

/-!
# Printing is one way to write

* `Numeral.Proper`: a number that can be written, and every number that is printed is one.
* `Document.tokens`: the tokens of a document.

Main statement: the text of a value spells the tokens of its document (`spellsAll_chars`).  Strings are
followed character by character, each of which is printed as one piece (`spells_escaped`).
-/

namespace CallSignaling

/-! ### Strings -/

namespace StringPiece

/-- A unit that is no half of a surrogate pair stands for a character of its own. -/
theorem join?_unit {n : Nat} (h : n < 0xD800) (rest : List StringPiece) :
    join? (.unit n :: rest) = (join? rest).map (Char.ofNat n :: ·) := by
  have hhigh : isHighHalf n = false := by simp [isHighHalf]; omega
  have hlow : isLowHalf n = false := by simp [isLowHalf]; omega
  cases rest with
  | nil => simp [join?, hhigh, hlow]
  | cons piece rest => cases piece <;> simp [join?, hhigh, hlow]

end StringPiece

namespace JsonToken

theorem hexValue?_hexDigit : ∀ n, n < 16 → hexValue? (Json.hexDigit n) = some n := by decide

theorem unitValue?_hexDigits {n : Nat} (h : n < 0x20) :
    unitValue? '0' '0' (Json.hexDigit (n / 16)) (Json.hexDigit (n % 16)) = some n := by
  have hzero : hexValue? '0' = some 0 := by decide
  have hhigh := hexValue?_hexDigit (n / 16) (by omega)
  have hlow := hexValue?_hexDigit (n % 16) (by omega)
  simp only [unitValue?, hzero, hhigh, hlow, Option.bind_eq_bind, Option.bind_some]
  exact congrArg some (by omega)

/-- A character is printed as one piece, which stands for the character. -/
theorem spells_escaped (c : Char) :
    ∃ piece, StringPiece.Spells (Json.escaped c) piece ∧
      ∀ others, StringPiece.join? (piece :: others) =
        (StringPiece.join? others).map (c :: ·) := by
  have hchar : ∀ others, StringPiece.join? (.char c :: others) =
      (StringPiece.join? others).map (c :: ·) := fun _ => rfl
  unfold Json.escaped
  split
  · exact ⟨_, .short rfl, hchar⟩
  · exact ⟨_, .short rfl, hchar⟩
  · exact ⟨_, .short rfl, hchar⟩
  · exact ⟨_, .short rfl, hchar⟩
  · exact ⟨_, .short rfl, hchar⟩
  · exact ⟨_, .short rfl, hchar⟩
  · exact ⟨_, .short rfl, hchar⟩
  · split
    · -- the other control characters are written as units
      rename_i hcontrol
      refine ⟨.unit c.toNat, .unit (unitValue?_hexDigits hcontrol), fun others => ?_⟩
      rw [StringPiece.join?_unit (by omega), Char.ofNat_toNat]
    · rename_i hquote hbackslash _ _ _ _ _ hprinted
      exact ⟨.char c, .plain hquote hbackslash (by omega), hchar⟩

theorem spellsAll_escaped (s : List Char) :
    ∃ pieces, StringPiece.SpellsAll (s.flatMap Json.escaped) pieces ∧
      StringPiece.join? pieces = some s := by
  induction s with
  | nil => exact ⟨[], .nil, rfl⟩
  | cons c s ih =>
    obtain ⟨pieces, hspells, hjoin⟩ := ih
    obtain ⟨piece, hpiece, hone⟩ := spells_escaped c
    exact ⟨piece :: pieces, .cons hpiece hspells, by rw [hone, hjoin, Option.map_some]⟩

theorem spells_quoted (s : String) : Spells (Json.quoted s) (.string (some s)) := by
  obtain ⟨pieces, hspells, hjoin⟩ := spellsAll_escaped s.toList
  have hstring := Spells.string hspells
  rwa [hjoin, Option.map_some, String.ofList_toList] at hstring

/-! ### Numbers -/

theorem digits_toDigits (n : Nat) : Digits (Nat.toDigits 10 n) where
  nonempty := Nat.toDigits_ne_nil
  digits _ h := Nat.isDigit_of_mem_toDigits (by decide) (by decide) h

/-- Only zero is printed with a leading zero. -/
theorem eq_zero_of_head?_toDigits (n : Nat) (h : (Nat.toDigits 10 n).head? = some '0') :
    n = 0 := by
  induction n using Nat.strongRecOn with
  | _ n ih =>
    by_cases hlt : n < 10
    · have hzero : ∀ m, m < 10 → Nat.digitChar m = '0' → m = 0 := by decide
      rw [Nat.toDigits_of_lt_base hlt] at h
      exact hzero n hlt (Option.some.inj h)
    · rw [Nat.toDigits_of_base_le (by decide) (by omega), List.head?_append,
        List.head?_eq_some_head Nat.toDigits_ne_nil, Option.some_or,
        ← List.head?_eq_some_head Nat.toDigits_ne_nil] at h
      have := ih (n / 10) (by omega) h
      omega

/-- No number is printed with a leading zero before further digits. -/
theorem length_of_head?_toDigits (n : Nat) (h : (Nat.toDigits 10 n).head? = some '0') :
    (Nat.toDigits 10 n).length = 1 := by
  rw [eq_zero_of_head?_toDigits n h]
  rfl

theorem spellsExponent_integerText (z : Int) :
    SpellsExponent ('e' :: Json.integerText z) (some z) := by
  have hdigits := digits_toDigits z.natAbs
  rw [Json.integerText]
  by_cases hz : z < 0
  · have hvalue : -(digitsValue (Nat.toDigits 10 z.natAbs) : Int) = z := by
      rw [digitsValue_toDigits]
      omega
    rw [if_pos hz]
    conv => arg 2; rw [← hvalue]
    exact .minus (.inl rfl) hdigits
  · have hvalue : (digitsValue (Nat.toDigits 10 z.natAbs) : Int) = z := by
      rw [digitsValue_toDigits]
      omega
    rw [if_neg hz]
    conv => arg 2; rw [← hvalue]
    exact .plain (.inl rfl) hdigits

end JsonToken

/-- A number with digits before the point, zero only as the only one of them, and digits behind it. -/
structure Numeral.Proper (n : Numeral) : Prop where
  whole : JsonToken.Digits n.whole
  zero : n.whole.head? = some '0' → n.whole.length = 1
  fraction : ∀ c ∈ n.fraction, c.isDigit = true

/-- What is printed of a proper number is a way to write it. -/
theorem Numeral.Proper.spells {n : Numeral} (h : n.Proper) : n.Spells (Json.numeralText n) := by
  obtain ⟨negative, whole, fraction, exponent⟩ := n
  rw [Json.numeralText]
  refine .intro ?_ h.whole h.zero ?_ ?_
  · cases negative with
    | false => exact .none
    | true => exact .minus
  · cases fraction with
    | nil => exact .none
    | cons c rest => exact .point ⟨List.cons_ne_nil c rest, h.fraction⟩
  · cases exponent with
    | none => exact .none
    | some e => exact JsonToken.spellsExponent_integerText e

/-- However it is laid out, a number other than zero is printed properly. -/
theorem Double.proper_numeral (negative : Bool) {c : Nat} (hc : 0 < c) (k : Int) :
    (Double.numeral negative c k).Proper := by
  have hdigits := JsonToken.digits_toDigits c
  have hhead : (Nat.toDigits 10 c).head? ≠ some '0' := fun h =>
    Nat.ne_of_gt hc (JsonToken.eq_zero_of_head?_toDigits c h)
  rw [Double.numeral]
  generalize Nat.toDigits 10 c = digits at hdigits hhead
  obtain ⟨first, rest, rfl⟩ := List.exists_cons_of_ne_nil hdigits.nonempty
  -- the first digit is that of the number, so it is not zero
  have hwhole : ∀ more : List Char, (∀ d ∈ more, d.isDigit = true) →
      JsonToken.Digits (first :: more) ∧
        ((first :: more).head? = some '0' → (first :: more).length = 1) :=
    fun more hmore => ⟨⟨List.cons_ne_nil _ _,
      List.forall_mem_cons.2 ⟨hdigits.digits first List.mem_cons_self, hmore⟩⟩,
      fun h => absurd h hhead⟩
  have hrest : ∀ d ∈ rest, d.isDigit = true := (List.forall_mem_cons.1 hdigits.digits).2
  have hzeros : ∀ n, ∀ d ∈ List.replicate n '0', d.isDigit = true := by
    intro n d hd
    rw [List.eq_of_mem_replicate hd]
    rfl
  split
  · -- no digit stands behind the point
    obtain ⟨hall, hzero⟩ := hwhole (rest ++ List.replicate k.toNat '0') fun d hd =>
      (List.mem_append.1 hd).elim (hrest d) (hzeros _ d)
    exact ⟨hall, hzero, hzeros 1⟩
  split
  · -- the point stands between the digits
    rename_i hpoint
    obtain ⟨n, hn⟩ : ∃ n, (((first :: rest).length : Int) + k).toNat = n + 1 :=
      Nat.exists_eq_succ_of_ne_zero (by simp at hpoint ⊢; omega)
    rw [hn]
    obtain ⟨hall, hzero⟩ := hwhole (rest.take n) fun d hd => hrest d (List.mem_of_mem_take hd)
    exact ⟨hall, hzero, fun d hd => hrest d (List.mem_of_mem_drop hd)⟩
  split
  · -- the point stands before the digits
    refine ⟨⟨by simp, hzeros 1⟩, fun _ => rfl, fun d hd => ?_⟩
    exact (List.mem_append.1 hd).elim (hzeros _ d) (hdigits.digits d)
  · -- the point stands behind the first digit
    obtain ⟨hall, hzero⟩ := hwhole [] (by simp)
    exact ⟨hall, hzero, hrest⟩

/-- Every number is printed properly. -/
theorem Number.proper_numeral (n : Number) : n.numeral.Proper := by
  have hzero : JsonToken.Digits ['0'] := ⟨List.cons_ne_nil _ _, List.forall_mem_singleton.2 rfl⟩
  cases n with
  | integer value =>
    exact ⟨JsonToken.digits_toDigits _, JsonToken.length_of_head?_toDigits _, by nofun⟩
  | double negative magnitude =>
    rw [Number.numeral]
    split
    · exact ⟨hzero, fun _ => rfl, hzero.digits⟩
    · rename_i hplace
      exact Double.proper_numeral negative (Double.shortest_pos hplace) _

/-! ### Documents -/

namespace Document

mutual

/-- The tokens of a document. -/
def tokens : Document → List JsonToken
  | null => [.null]
  | bool value => [.bool value]
  | number value => [.number value]
  | string value => [.string value]
  | array [] => [.openArray, .closeArray]
  | array (item :: rest) => .openArray :: item.tokens ++ itemsTokens rest
  | object [] => [.openObject, .closeObject]
  | object ((name, value) :: rest) =>
    .openObject :: .string name :: .colon :: value.tokens ++ membersTokens rest

/-- The tokens of the items after the first one and of the closing bracket. -/
def itemsTokens : List Document → List JsonToken
  | [] => [.closeArray]
  | item :: rest => .comma :: item.tokens ++ itemsTokens rest

/-- The tokens of the members after the first one and of the closing brace. -/
def membersTokens : List (Option String × Document) → List JsonToken
  | [] => [.closeObject]
  | (name, value) :: rest =>
    .comma :: .string name :: .colon :: value.tokens ++ membersTokens rest

end

end Document

namespace JsonToken

mutual

/-- **Printing spells**: the text of a value is a way to write the tokens of its document. -/
theorem spellsAll_chars : (j : Json) → {rest : List Char} → {tokens : List JsonToken} →
    SpellsAll rest tokens → SpellsAll (j.chars ++ rest) ((Document.ofJson j).tokens ++ tokens)
  | .null, _, _, h => .token .null h
  | .bool true, _, _, h => .token .true h
  | .bool false, _, _, h => .token .false h
  | .number n, _, _, h => .token (.number n.proper_numeral.spells) h
  | .string s, _, _, h => .token (spells_quoted s) h
  | .array [], _, _, h => by
    have hempty := SpellsAll.token .openArray (.token .closeArray h)
    exact hempty
  | .array (item :: items), _, _, h => by
    have hitem := spellsAll_chars item (spellsAll_itemsChars items h)
    simp only [Json.chars, Document.ofJson, Document.ofItems, Document.tokens, List.cons_append,
      List.append_assoc]
    exact .token .openArray hitem
  | .object [], _, _, h => by
    have hempty := SpellsAll.token .openObject (.token .closeObject h)
    exact hempty
  | .object ((name, value) :: members), _, _, h => by
    have hvalue := spellsAll_chars value (spellsAll_membersChars members h)
    simp only [Json.chars, Document.ofJson, Document.ofMembers, Document.tokens, List.cons_append,
      List.append_assoc]
    exact .token .openObject (.token (spells_quoted name) (.token .colon hvalue))

theorem spellsAll_itemsChars : (items : List Json) → {rest : List Char} →
    {tokens : List JsonToken} → SpellsAll rest tokens →
    SpellsAll (Json.itemsChars items ++ rest)
      (Document.itemsTokens (Document.ofItems items) ++ tokens)
  | [], _, _, h => .token .closeArray h
  | item :: items, _, _, h => by
    have hitem := spellsAll_chars item (spellsAll_itemsChars items h)
    simp only [Json.itemsChars, Document.ofItems, Document.itemsTokens, List.cons_append,
      List.append_assoc]
    exact .token .comma hitem

theorem spellsAll_membersChars : (members : List (String × Json)) → {rest : List Char} →
    {tokens : List JsonToken} → SpellsAll rest tokens →
    SpellsAll (Json.membersChars members ++ rest)
      (Document.membersTokens (Document.ofMembers members) ++ tokens)
  | [], _, _, h => .token .closeObject h
  | (name, value) :: members, _, _, h => by
    have hvalue := spellsAll_chars value (spellsAll_membersChars members h)
    simp only [Json.membersChars, Document.ofMembers, Document.membersTokens, List.cons_append,
      List.append_assoc]
    exact .token .comma (.token (spells_quoted name) (.token .colon hvalue))

end

end JsonToken

end CallSignaling
