import CallSignaling.Json.Document
import CallSignaling.Proofs.Json.Numbers

/-!
# Values that are kept

What is kept of a document is a value: a part of it that nobody asks for by name, such as the free
fields of a record.

* `Json.depth`, `Json.numbers`: how deep containers are nested in a value, and its numbers.
* `Json.Kept`: what is true of a value that was kept.
* `Json.Returns`: a value that is kept as it is when it was printed.
* `Json.Exact`: a value whose members are in order and whose numbers are integers of 64 bits.
* `Document.kept_of_value?`: what is kept of a document is a kept value.
* `Document.value?_ofJson`: of a value whose numbers return and that is not nested too deep the
  canonical form is kept.
* `Document.value?_ofJson_iff`: a value is kept as it is exactly if it returns.
-/

namespace CallSignaling

namespace Json

/-! ### Depth and numbers -/

mutual

/-- How many containers are nested in one another. -/
def depth : Json → Nat
  | array items => itemsDepth items + 1
  | object members => membersDepth members + 1
  | _ => 0

/-- The depth of the deepest item. -/
def itemsDepth : List Json → Nat
  | [] => 0
  | item :: rest => max item.depth (itemsDepth rest)

/-- The depth of the deepest member. -/
def membersDepth : List (String × Json) → Nat
  | [] => 0
  | (_, value) :: rest => max value.depth (membersDepth rest)

end

mutual

/-- All numbers in a value. -/
def numbers : Json → List Number
  | number value => [value]
  | array items => itemsNumbers items
  | object members => membersNumbers members
  | _ => []

/-- All numbers in the items. -/
def itemsNumbers : List Json → List Number
  | [] => []
  | item :: rest => item.numbers ++ itemsNumbers rest

/-- All numbers in the members. -/
def membersNumbers : List (String × Json) → List Number
  | [] => []
  | (_, value) :: rest => value.numbers ++ membersNumbers rest

end

theorem itemsDepth_le_iff {items : List Json} {n : Nat} :
    itemsDepth items ≤ n ↔ ∀ j ∈ items, j.depth ≤ n := by
  induction items with
  | nil => simp [itemsDepth]
  | cons item items ih => rw [itemsDepth, Nat.max_le, ih, List.forall_mem_cons]

theorem membersDepth_le_iff {members : List (String × Json)} {n : Nat} :
    membersDepth members ≤ n ↔ ∀ m ∈ members, m.2.depth ≤ n := by
  induction members with
  | nil => simp [membersDepth]
  | cons member members ih => rw [membersDepth, Nat.max_le, ih, List.forall_mem_cons]

theorem mem_itemsNumbers {items : List Json} {n : Number} :
    n ∈ itemsNumbers items ↔ ∃ j ∈ items, n ∈ j.numbers := by
  induction items with
  | nil => simp [itemsNumbers]
  | cons item items ih => simp [itemsNumbers, ih]

theorem mem_membersNumbers {members : List (String × Json)} {n : Number} :
    n ∈ membersNumbers members ↔ ∃ m ∈ members, n ∈ m.2.numbers := by
  induction members with
  | nil => simp [membersNumbers]
  | cons member members ih =>
    simp only [membersNumbers, List.mem_append, ih, List.mem_cons, or_and_right, exists_or,
      exists_eq_left]

/-- A value with integers for numbers, which are exact within 64 bits, and with the members of every
object by increasing name. -/
structure Exact (j : Json) : Prop where
  numbers : ∀ n ∈ j.numbers, n.isWord = true
  canonical : j.canonical = j

/-! ### Canonical values -/

theorem canonicalMembers_of_fixed {members : List (String × Json)}
    (h : ∀ m ∈ members, m.2.canonical = m.2) : canonicalMembers members = members := by
  induction members with
  | nil => rfl
  | cons m members ih =>
    rw [canonicalMembers, h m List.mem_cons_self, ih fun n hn => h n (List.mem_cons_of_mem m hn)]

theorem canonicalItems_of_fixed {items : List Json} (h : ∀ j ∈ items, j.canonical = j) :
    canonicalItems items = items := by
  induction items with
  | nil => rfl
  | cons j items ih =>
    rw [canonicalItems, h j List.mem_cons_self, ih fun k hk => h k (List.mem_cons_of_mem j hk)]

/-! ### Values that were kept -/

/-- A value that was kept: at most `room` containers deep, with the members of every object by
increasing name. -/
structure Kept (room : Nat) (j : Json) : Prop where
  depth : j.depth ≤ room
  canonical : j.canonical = j

/-- A value that is kept as it is when it was printed: so are its numbers. -/
structure Returns (room : Nat) (j : Json) : Prop extends Kept room j where
  numbers : ∀ n ∈ j.numbers, n.Returns

theorem Kept.array {room : Nat} {items : List Json} (h : ∀ j ∈ items, j.Kept room) :
    (Json.array items).Kept (room + 1) where
  depth := Nat.succ_le_succ (itemsDepth_le_iff.2 fun j hj => (h j hj).depth)
  canonical := by rw [Json.canonical, canonicalItems_of_fixed fun j hj => (h j hj).canonical]

theorem Kept.object {room : Nat} {fields : SortedMap String Json}
    (h : ∀ m ∈ fields.entries, m.2.Kept room) : (Json.object fields.entries).Kept (room + 1) where
  depth := Nat.succ_le_succ (membersDepth_le_iff.2 fun m hm => (h m hm).depth)
  canonical := by
    rw [Json.canonical, canonicalMembers_of_fixed fun m hm => (h m hm).canonical,
      SortedMap.ofList_entries]

theorem Exact.returns {room : Nat} {j : Json} (h : j.Exact) (hdepth : j.depth ≤ room) :
    j.Returns room :=
  ⟨⟨hdepth, h.canonical⟩, fun n hn => Number.returns_of_isWord (h.numbers n hn)⟩

theorem returns_string (room : Nat) (s : String) : (string s).Returns room :=
  ⟨⟨Nat.zero_le _, rfl⟩, fun _ hn => absurd hn List.not_mem_nil⟩

theorem returns_nat (room : Nat) {n : Nat} (h : n < UInt64.size) : (nat n).Returns room := by
  refine ⟨⟨Nat.zero_le _, rfl⟩, fun m hm => Number.returns_of_isWord ?_⟩
  rw [List.mem_singleton.1 hm]
  simp only [Number.isWord, Bool.and_eq_true, decide_eq_true_eq, Int.ofNat_eq_natCast]
  omega

theorem Returns.mono {room more : Nat} {j : Json} (h : j.Returns room) (hle : room ≤ more) :
    j.Returns more :=
  ⟨⟨Nat.le_trans h.depth hle, h.canonical⟩, h.numbers⟩

theorem Returns.array {room : Nat} {items : List Json} (h : ∀ j ∈ items, j.Returns room) :
    (Json.array items).Returns (room + 1) := by
  refine ⟨.array fun j hj => (h j hj).toKept, fun n hn => ?_⟩
  obtain ⟨j, hj, hn⟩ := mem_itemsNumbers.1 hn
  exact (h j hj).numbers n hn

theorem returns_strings (room : Nat) (values : List String) :
    (strings values).Returns (room + 1) := by
  refine .array fun j hj => ?_
  obtain ⟨value, -, rfl⟩ := List.mem_map.1 hj
  exact returns_string room value

end Json

namespace Document

open Json (depth numbers)

/-! ### What was kept -/

mutual

/-- What is kept of a document is a kept value. -/
theorem kept_of_value? : (d : Document) → {room : Nat} → {j : Json} → value? room d = some j →
    j.Kept room
  | .null, _, _, h => by
    cases h
    exact ⟨Nat.zero_le _, rfl⟩
  | .bool _, _, _, h => by
    cases h
    exact ⟨Nat.zero_le _, rfl⟩
  | .number n, _, _, h => by
    obtain ⟨held, -, rfl⟩ := Option.map_eq_some_iff.1 h
    exact ⟨Nat.zero_le _, rfl⟩
  | .string s, _, _, h => by
    obtain ⟨s, -, rfl⟩ := Option.map_eq_some_iff.1 h
    exact ⟨Nat.zero_le _, rfl⟩
  | .array items, 0, _, h => nomatch h
  | .array items, room + 1, _, h => by
    obtain ⟨values, hvalues, rfl⟩ := Option.map_eq_some_iff.1 h
    exact .array (kept_of_itemValues? items hvalues)
  | .object members, 0, _, h => nomatch h
  | .object members, room + 1, _, h => by
    obtain ⟨values, hvalues, rfl⟩ := Option.map_eq_some_iff.1 h
    exact .object fun m hm =>
      kept_of_memberValues? members hvalues m (SortedMap.mem_of_mem_ofList hm)

theorem kept_of_itemValues? : (items : List Document) → {room : Nat} → {values : List Json} →
    itemValues? room items = some values → ∀ j ∈ values, j.Kept room
  | [], _, _, h => by
    cases h
    exact fun _ hj => absurd hj List.not_mem_nil
  | item :: items, room, _, h => by
    simp only [itemValues?, Option.bind_eq_bind, Option.bind_eq_some_iff] at h
    obtain ⟨value, hvalue, values, hvalues, h⟩ := h
    cases h
    exact List.forall_mem_cons.2 ⟨kept_of_value? item hvalue, kept_of_itemValues? items hvalues⟩

theorem kept_of_memberValues? : (members : List (Option String × Document)) → {room : Nat} →
    {values : List (String × Json)} → memberValues? room members = some values →
    ∀ m ∈ values, m.2.Kept room
  | [], _, _, h => by
    cases h
    exact fun _ hm => absurd hm List.not_mem_nil
  | (name, value) :: members, room, _, h => by
    simp only [memberValues?, Option.bind_eq_bind, Option.bind_eq_some_iff] at h
    obtain ⟨name, -, j, hj, values, hvalues, h⟩ := h
    cases h
    exact List.forall_mem_cons.2 ⟨kept_of_value? value hj, kept_of_memberValues? members hvalues⟩

end

theorem names_of_memberValues? {room : Nat} {members : List (Option String × Document)}
    {values : List (String × Json)} (h : memberValues? room members = some values) :
    values.map (fun m => some m.1) = members.map Prod.fst := by
  induction members generalizing values with
  | nil =>
    cases h
    rfl
  | cons member members ih =>
    simp only [memberValues?, Option.bind_eq_bind, Option.bind_eq_some_iff] at h
    obtain ⟨name, hname, j, -, values, hvalues, h⟩ := h
    cases h
    rw [List.map_cons, List.map_cons, ih hvalues, hname]

/-! ### Keeping what was printed -/

mutual

/-- Of a value whose numbers return and that is not nested too deep the canonical form is kept. -/
theorem value?_ofJson : (j : Json) → {room : Nat} → j.depth ≤ room →
    (∀ n ∈ j.numbers, n.Returns) → value? room (ofJson j) = some j.canonical
  | .null, _, _, _ => rfl
  | .bool _, _, _, _ => rfl
  | .number n, _, _, h => by
    have hn : n.numeral.number? = some n := h n List.mem_cons_self
    rw [ofJson, value?, hn]
    rfl
  | .string _, _, _, _ => rfl
  | .array items, room + 1, hdepth, h => by
    have hitems := itemValues?_ofItems items (Nat.le_of_succ_le_succ hdepth) h
    rw [ofJson, value?, hitems]
    rfl
  | .object members, room + 1, hdepth, h => by
    have hmembers := memberValues?_ofMembers members (Nat.le_of_succ_le_succ hdepth) h
    rw [ofJson, value?, hmembers]
    rfl

theorem itemValues?_ofItems : (items : List Json) → {room : Nat} → Json.itemsDepth items ≤ room →
    (∀ n ∈ Json.itemsNumbers items, n.Returns) →
    itemValues? room (ofItems items) = some (Json.canonicalItems items)
  | [], _, _, _ => rfl
  | item :: items, room, hdepth, h => by
    have hdepth := Nat.max_le.1 hdepth
    have hitem := value?_ofJson item hdepth.1 fun n hn => h n (List.mem_append_left _ hn)
    have hitems := itemValues?_ofItems items hdepth.2 fun n hn => h n (List.mem_append_right _ hn)
    rw [ofItems, itemValues?, hitem, hitems]
    rfl

theorem memberValues?_ofMembers : (members : List (String × Json)) → {room : Nat} →
    Json.membersDepth members ≤ room → (∀ n ∈ Json.membersNumbers members, n.Returns) →
    memberValues? room (ofMembers members) = some (Json.canonicalMembers members)
  | [], _, _, _ => rfl
  | (name, value) :: members, room, hdepth, h => by
    have hdepth := Nat.max_le.1 hdepth
    have hvalue := value?_ofJson value hdepth.1 fun n hn => h n (List.mem_append_left _ hn)
    have hmembers :=
      memberValues?_ofMembers members hdepth.2 fun n hn => h n (List.mem_append_right _ hn)
    rw [ofMembers, memberValues?, hvalue, hmembers]
    rfl

end

/-- What returns is kept as it is. -/
theorem value?_of_returns {room : Nat} {j : Json} (h : j.Returns room) :
    value? room (ofJson j) = some j := by
  rw [value?_ofJson j h.depth h.numbers, h.canonical]

theorem memberValues?_of_returns {room : Nat} {members : List (String × Json)}
    (h : ∀ m ∈ members, m.2.Returns room) :
    memberValues? room (ofMembers members) = some members := by
  have hdepth := Json.membersDepth_le_iff.2 fun m hm => (h m hm).depth
  have hnumbers : ∀ n ∈ Json.membersNumbers members, n.Returns := by
    intro n hn
    obtain ⟨m, hm, hn⟩ := Json.mem_membersNumbers.1 hn
    exact (h m hm).numbers n hn
  rw [memberValues?_ofMembers members hdepth hnumbers,
    Json.canonicalMembers_of_fixed fun m hm => (h m hm).canonical]

/-- Of an object whose values return the members are kept in order. -/
theorem value?_object {room : Nat} {members : List (String × Json)}
    (h : ∀ m ∈ members, m.2.Returns room) :
    value? (room + 1) (ofJson (.object members)) =
      some (.object (SortedMap.ofList members).entries) := by
  rw [ofJson, value?, memberValues?_of_returns h]
  rfl

theorem names_ofMembers (members : List (String × Json)) :
    (ofMembers members).map Prod.fst = (members.map Prod.fst).map some := by
  induction members with
  | nil => rfl
  | cons m members ih => rw [ofMembers, List.map_cons, List.map_cons, List.map_cons, ih]

/-- Printed members are kept with their names. -/
theorem names_of_memberValues?_ofMembers {room : Nat} {members values : List (String × Json)}
    (h : memberValues? room (ofMembers members) = some values) :
    values.map Prod.fst = members.map Prod.fst := by
  have hsome : (values.map Prod.fst).map some = (members.map Prod.fst).map some := by
    rw [← names_ofMembers members, ← names_of_memberValues? h, List.map_map]
    rfl
  exact (List.map_inj_right fun _ _ => Option.some.inj).1 hsome

mutual

/-- The numbers of a value that is kept as it is return. -/
theorem returns_of_value? : (j : Json) → {room : Nat} → value? room (ofJson j) = some j →
    ∀ n ∈ j.numbers, n.Returns
  | .null, _, _ => fun _ hn => absurd hn List.not_mem_nil
  | .bool _, _, _ => fun _ hn => absurd hn List.not_mem_nil
  | .number n, _, h => by
    obtain ⟨held, hheld, heq⟩ := Option.map_eq_some_iff.1 h
    cases heq
    exact List.forall_mem_singleton.2 hheld
  | .string _, _, _ => fun _ hn => absurd hn List.not_mem_nil
  | .array items, 0, h => nomatch h
  | .array items, room + 1, h => by
    obtain ⟨values, hvalues, heq⟩ := Option.map_eq_some_iff.1 h
    cases heq
    exact returns_of_itemValues? items hvalues
  | .object members, 0, h => nomatch h
  | .object members, room + 1, h => by
    obtain ⟨values, hvalues, heq⟩ := Option.map_eq_some_iff.1 h
    have hentries : (SortedMap.ofList values).entries = members := Json.object.inj heq
    -- what is kept has the names of the members in their order, so no member was dropped or moved
    have hnames := names_of_memberValues?_ofMembers hvalues
    rw [← hentries] at hnames
    have hsame : values = members :=
      (SortedMap.eq_entries_of_ofList rfl hnames).trans hentries
    exact returns_of_memberValues? members (hsame ▸ hvalues)

theorem returns_of_itemValues? : (items : List Json) → {room : Nat} →
    itemValues? room (ofItems items) = some items → ∀ n ∈ Json.itemsNumbers items, n.Returns
  | [], _, _ => fun _ hn => absurd hn List.not_mem_nil
  | item :: items, room, h => by
    simp only [ofItems, itemValues?, Option.bind_eq_bind, Option.bind_eq_some_iff] at h
    obtain ⟨value, hvalue, values, hvalues, heq⟩ := h
    cases heq
    exact List.forall_mem_append.2 ⟨returns_of_value? _ hvalue, returns_of_itemValues? _ hvalues⟩

theorem returns_of_memberValues? : (members : List (String × Json)) → {room : Nat} →
    memberValues? room (ofMembers members) = some members →
    ∀ n ∈ Json.membersNumbers members, n.Returns
  | [], _, _ => fun _ hn => absurd hn List.not_mem_nil
  | (name, value) :: members, room, h => by
    simp only [ofMembers, memberValues?, Option.bind_eq_bind, Option.bind_eq_some_iff] at h
    obtain ⟨_, -, j, hj, values, hvalues, heq⟩ := h
    cases heq
    exact List.forall_mem_append.2 ⟨returns_of_value? _ hj, returns_of_memberValues? _ hvalues⟩

end

/-- **A value is kept as it is exactly if it returns.** -/
theorem value?_ofJson_iff {room : Nat} {j : Json} :
    value? room (ofJson j) = some j ↔ j.Returns room :=
  ⟨fun h => ⟨kept_of_value? _ h, returns_of_value? j h⟩, value?_of_returns⟩

/-- The entries of a map are kept as they are exactly if their values return. -/
theorem memberValues?_entries_iff {room : Nat} {m : SortedMap String Json} :
    (memberValues? room (ofMembers m.entries)).map SortedMap.ofList = some m ↔
      ∀ p ∈ m.entries, p.2.Returns room := by
  constructor
  · intro h p hp
    obtain ⟨values, hvalues, heq⟩ := Option.map_eq_some_iff.1 h
    have hsame := SortedMap.eq_entries_of_ofList heq (names_of_memberValues?_ofMembers hvalues)
    rw [hsame] at hvalues
    refine ⟨kept_of_memberValues? _ hvalues p hp, fun n hn => ?_⟩
    exact returns_of_memberValues? _ hvalues n (Json.mem_membersNumbers.2 ⟨p, hp, hn⟩)
  · intro h
    rw [memberValues?_of_returns h, Option.map_some, SortedMap.ofList_entries]

end Document

end CallSignaling
