import CallSignaling.Proofs.Json.Keeping
import CallSignaling.Proofs.Json.Members
import Mathlib.Data.List.Count

/-!
# Free fields beside the named ones

Some records keep all members that they have no field for, and print them behind their fields.

* `Json.memberNames`: the names of an object's members, in the order held.
* `SortedMap.LacksAll`: none of the names has a value in the map.
* `Document.fields?_of_repeated`: a field that is there twice spoils the record.
* `Document.fields?_printed`: the fields of a printed record are found.
* `Document.free?_printed_iff`: its free fields are kept as they are exactly if they return.
* `Document.lacksAll_of_free?`, `Document.kept_of_free?`: what is kept has none of the names of the
  fields, and its values are kept values.
-/

namespace CallSignaling

/-- None of the names has a value in the map. -/
def SortedMap.LacksAll {α : Type} (names : List String) (m : SortedMap String α) : Prop :=
  ∀ name ∈ names, m.get? name = none

instance {α : Type} (names : List String) (m : SortedMap String α) : Decidable (m.LacksAll names) :=
  decidable_of_iff (∀ name ∈ names, (m.get? name).isNone = true)
    (forall₂_congr fun _ _ => Option.isNone_iff_eq_none)

theorem SortedMap.LacksAll.not_mem {α : Type} {names : List String} {m : SortedMap String α}
    (h : m.LacksAll names) {p : String × α} (hp : p ∈ m.entries) : p.1 ∉ names := by
  intro hmem
  have hget := SortedMap.get?_eq_some_iff.2 hp
  rw [h p.1 hmem] at hget
  cases hget

namespace Json

/-- The names of an object's members, in the order held. -/
def memberNames : Json → List String
  | object members => members.map Prod.fst
  | _ => []

end Json

namespace Document

open Json (present)

/-! ### The named fields -/

/-- A field that is there twice spoils the record. -/
theorem fields?_of_repeated {names : List String} {members : List (String × Json)} {name : String}
    (hname : name ∈ names) (h : 2 ≤ (members.map Prod.fst).count name) :
    (ofJson (.object members)).fields? names = none := by
  rw [ofJson]
  refine fields?_of_repeated_member hname ?_
  rwa [names_ofMembers, List.count_map_of_injective _ some fun _ _ => Option.some.inj]

/-- The fields of a printed record are found, whatever free fields stand behind them. -/
theorem fields?_printed (fields : List (String × Option Json)) {free : SortedMap String Json}
    (h : (fields.map Prod.fst).Nodup) (hfree : free.LacksAll (fields.map Prod.fst)) :
    (ofJson (.object (present fields ++ free.entries))).fields? (fields.map Prod.fst) =
      some (fields.map fun field => field.2.map ofJson) :=
  fields?_present_append h (fun _ => hfree.not_mem) (.refl _)

/-! ### The free fields -/

/-- Free fields that were printed behind the others are kept as they are exactly if they return. -/
theorem free?_printed_iff (fields : List (String × Option Json)) {room : Nat}
    {free : SortedMap String Json} (hnames : free.LacksAll (fields.map Prod.fst)) :
    (ofJson (.object (present fields ++ free.entries))).free? (fields.map Prod.fst) room =
      some free ↔ ∀ m ∈ free.entries, m.2.Returns room := by
  have hfilter : (ofMembers (present fields ++ free.entries)).filter
      (fun m => m.1.all fun name => !(fields.map Prod.fst).contains name) =
        ofMembers free.entries := by
    simp only [ofMembers_eq_map, List.map_append, List.filter_append]
    rw [List.filter_eq_nil_iff.2, List.filter_eq_self.2, List.nil_append]
    · intro m hm
      obtain ⟨p, hp, rfl⟩ := List.mem_map.1 hm
      simpa using hnames.not_mem hp
    · intro m hm
      obtain ⟨p, hp, rfl⟩ := List.mem_map.1 hm
      have hname := (Json.names_present_sublist fields).subset (List.mem_map_of_mem hp)
      simpa using hname
  rw [← memberValues?_entries_iff, ofJson, free?, hfilter, Option.map_eq_bind]
  rfl

/-- The free fields of a document are members of it with other names, and their values were kept. -/
theorem of_free? {names : List String} {room : Nat} {d : Document} {free : SortedMap String Json}
    (h : d.free? names room = some free) {m : String × Json} (hm : m ∈ free.entries) :
    m.1 ∉ names ∧ m.2.Kept room := by
  cases d with
  | object members =>
    simp only [free?, Option.bind_eq_bind, Option.bind_eq_some_iff] at h
    obtain ⟨others, hothers, h⟩ := h
    cases h
    have hmem := SortedMap.mem_of_mem_ofList hm
    refine ⟨fun hname => ?_, kept_of_memberValues? _ hothers m hmem⟩
    have hkept : some m.1 ∈ others.map fun m => some m.1 := List.mem_map.2 ⟨m, hmem, rfl⟩
    rw [names_of_memberValues? hothers] at hkept
    obtain ⟨other, hother, heq⟩ := List.mem_map.1 hkept
    have hfree := (List.mem_filter.1 hother).2
    rw [heq] at hfree
    simp [hname] at hfree
  | _ => cases h

theorem lacksAll_of_free? {names : List String} {room : Nat} {d : Document}
    {free : SortedMap String Json} (h : d.free? names room = some free) : free.LacksAll names :=
  fun _ hname => Option.eq_none_iff_forall_ne_some.2 fun _ hget =>
    (of_free? h (SortedMap.get?_eq_some_iff.1 hget)).1 hname

theorem kept_of_free? {names : List String} {room : Nat} {d : Document}
    {free : SortedMap String Json} (h : d.free? names room = some free) :
    ∀ m ∈ free.entries, m.2.Kept room :=
  fun _ hm => (of_free? h hm).2

end Document

end CallSignaling
