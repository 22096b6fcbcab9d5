import CallSignaling.Json.Record
import CallSignaling.Proofs.Json.Numbers
import Mathlib.Data.List.Nodup

/-!
# The fields of a printed record

* `Json.present`, `Document.fieldMembers`: the members of a record, its fields that are there.
* `Document.fields?_of_perm`: the order of the members does not matter.
* `Document.fields?_fieldMembers`: the fields are found among members with other names.
* `Document.fields?_of_repeated_member`, `Document.fields?_of_nameless`: what spoils a record.
* `Document.fields?_present`: the fields of a printed record are found again, whatever the order of
  its members.
* `Document.text?_string`, `Document.word64?_nat`, `Document.word32?_nat`, `Document.list?_map`,
  `Document.whenPresent_map`: single fields that were printed are read back.
-/

namespace CallSignaling

namespace Json

/-- The members of a record: those of its fields that are there. -/
def present (fields : List (String × Option Json)) : List (String × Json) :=
  fields.filterMap fun field => field.2.map (field.1, ·)

theorem present_append (fields others : List (String × Option Json)) :
    present (fields ++ others) = present fields ++ present others :=
  List.filterMap_append

theorem mem_present {fields : List (String × Option Json)} {name : String} {value : Json} :
    (name, value) ∈ present fields ↔ (name, some value) ∈ fields := by
  simp only [present, List.mem_filterMap, Option.map_eq_some_iff, Prod.mk.injEq]
  constructor
  · rintro ⟨⟨_, _⟩, hmem, _, rfl, rfl, rfl⟩
    exact hmem
  · intro hmem
    exact ⟨_, hmem, value, rfl, rfl, rfl⟩

theorem names_present_sublist (fields : List (String × Option Json)) :
    ((present fields).map Prod.fst).Sublist (fields.map Prod.fst) := by
  induction fields with
  | nil => exact .slnil
  | cons field fields ih =>
    obtain ⟨name, value⟩ := field
    cases value with
    | none => exact ih.cons name
    | some value => exact ih.cons_cons name

end Json

namespace Document

open Json (present)

/-! ### Members -/

theorem ofItems_eq_map (items : List Json) : ofItems items = items.map ofJson := by
  induction items with
  | nil => rfl
  | cons item items ih => rw [ofItems, ih, List.map_cons]

theorem ofMembers_eq_map (members : List (String × Json)) :
    ofMembers members = members.map fun m => (some m.1, ofJson m.2) := by
  induction members with
  | nil => rfl
  | cons member members ih => rw [ofMembers, ih, List.map_cons]

/-- The members of an object: those of its fields that are there. -/
def fieldMembers (fields : List (String × Option Document)) : List (Option String × Document) :=
  fields.filterMap fun field => field.2.map (some field.1, ·)

theorem ofMembers_present (fields : List (String × Option Json)) :
    ofMembers (present fields) = fieldMembers (fields.map fun f => (f.1, f.2.map ofJson)) := by
  rw [ofMembers_eq_map, present, fieldMembers, List.map_filterMap, List.filterMap_map]
  congr 1
  funext field
  obtain ⟨name, value⟩ := field
  cases value <;> rfl

/-- The order of the members does not matter to one of them. -/
theorem member?_of_perm {members others : List (Option String × Document)}
    (h : members.Perm others) (name : String) : member? name members = member? name others := by
  have hfound := h.filter (·.1 = some name)
  rw [member?, member?]
  generalize members.filter (·.1 = some name) = found at hfound
  generalize others.filter (·.1 = some name) = found' at hfound
  rcases found with _ | ⟨first, _ | ⟨second, rest⟩⟩
  · rw [List.nil_perm.1 hfound]
  · rw [List.singleton_perm.1 hfound]
  · have hlength := hfound.length_eq
    rcases found' with _ | ⟨first', _ | ⟨second', rest'⟩⟩
    · cases hlength
    · simp at hlength
    · rfl

theorem member?_append {name : String} {members others : List (Option String × Document)}
    (h : ∀ m ∈ others, m.1 ≠ some name) :
    member? name (members ++ others) = member? name members := by
  have hothers : others.filter (·.1 = some name) = [] :=
    List.filter_eq_nil_iff.2 fun m hm heq => h m hm (of_decide_eq_true heq)
  rw [member?, List.filter_append, hothers, List.append_nil, member?]

theorem member?_of_repeated {name : String} {members : List (Option String × Document)}
    (h : 2 ≤ (members.map Prod.fst).count (some name)) : member? name members = none := by
  have hlength : 2 ≤ (members.filter (·.1 = some name)).length := by
    rw [List.count_eq_countP, List.countP_map, List.countP_eq_length_filter] at h
    simpa [Function.comp_def, beq_eq_decide] using h
  rw [member?]
  generalize members.filter (·.1 = some name) = found at hlength
  rcases found with _ | ⟨first, _ | ⟨second, rest⟩⟩
  · cases hlength
  · simp at hlength
  · rfl

theorem filter_fieldMembers {fields : List (String × Option Document)} {name : String}
    {value : Option Document} (h : (fields.map Prod.fst).Nodup) (hmem : (name, value) ∈ fields) :
    (fieldMembers fields).filter (·.1 = some name) = (value.map (some name, ·)).toList := by
  have hother : ∀ {fields : List (String × Option Document)}, name ∉ fields.map Prod.fst →
      (fieldMembers fields).filter (·.1 = some name) = [] := by
    intro fields hname
    refine List.filter_eq_nil_iff.2 fun m hm heq => hname ?_
    obtain ⟨field, hfield, hm⟩ := List.mem_filterMap.1 hm
    obtain ⟨_, -, rfl⟩ := Option.map_eq_some_iff.1 hm
    have hname : some field.1 = some name := of_decide_eq_true heq
    exact List.mem_map.2 ⟨field, hfield, Option.some.inj hname⟩
  induction fields with
  | nil => cases hmem
  | cons field fields ih =>
    have ⟨hfield, hfields⟩ := List.nodup_cons.1 h
    have hcons : fieldMembers (field :: fields) =
        (field.2.map (some field.1, ·)).toList ++ fieldMembers fields := by
      rw [fieldMembers, List.filterMap_cons, fieldMembers]
      cases field.2 <;> rfl
    rw [hcons, List.filter_append]
    rcases List.mem_cons.1 hmem with rfl | hmem
    · rw [hother hfield, List.append_nil]
      cases value <;> simp
    · have hne : field.1 ≠ name := fun heq => hfield (heq ▸ List.mem_map_of_mem hmem)
      rw [ih hfields hmem]
      cases field.2 <;> simp [hne]

/-! ### The fields of a record -/

theorem mapM_eq_some {α β : Type} {f : α → Option β} {g : α → β} {l : List α}
    (h : ∀ a ∈ l, f a = some (g a)) : l.mapM f = some (l.map g) := by
  induction l with
  | nil => rfl
  | cons a l ih =>
    rw [List.mapM_cons, h a List.mem_cons_self, ih fun b hb => h b (List.mem_cons_of_mem a hb)]
    rfl

theorem isSome_of_mapM {α β : Type} {f : α → Option β} {l : List α} {values : List β}
    (h : l.mapM f = some values) {a : α} (ha : a ∈ l) : ∃ b, f a = some b := by
  induction l generalizing values with
  | nil => cases ha
  | cons c l ih =>
    simp only [List.mapM_cons, Option.bind_eq_bind, Option.bind_eq_some_iff] at h
    obtain ⟨b, hb, rest, hrest, -⟩ := h
    rcases List.mem_cons.1 ha with rfl | ha
    · exact ⟨b, hb⟩
    · exact ih hrest ha

/-- The order of the members does not matter to the fields. -/
theorem fields?_of_perm {members others : List (Option String × Document)}
    (h : members.Perm others) (names : List String) :
    (object members).fields? names = (object others).fields? names := by
  have hnamed : members.all (·.1.isSome) = others.all (·.1.isSome) := by
    rw [Bool.eq_iff_iff, List.all_eq_true, List.all_eq_true]
    exact forall_congr' fun m => by rw [h.mem_iff]
  have hmember : (member? · members) = (member? · others) := funext (member?_of_perm h)
  rw [fields?, fields?, hnamed, hmember]

/-- **Fields among other members**: the fields are found, and members with other names do not matter
to them. -/
theorem fields?_fieldMembers {fields : List (String × Option Document)}
    {others : List (Option String × Document)} (h : (fields.map Prod.fst).Nodup)
    (hothers : ∀ m ∈ others, ∃ name ∉ fields.map Prod.fst, m.1 = some name) :
    (object (fieldMembers fields ++ others)).fields? (fields.map Prod.fst) =
      some (fields.map Prod.snd) := by
  have hnamed : (fieldMembers fields ++ others).all (·.1.isSome) = true := by
    rw [List.all_append, Bool.and_eq_true, List.all_eq_true, List.all_eq_true]
    constructor
    · intro m hm
      obtain ⟨field, -, hm⟩ := List.mem_filterMap.1 hm
      obtain ⟨_, -, rfl⟩ := Option.map_eq_some_iff.1 hm
      rfl
    · intro m hm
      obtain ⟨name, -, hname⟩ := hothers m hm
      rw [hname]
      rfl
  rw [fields?, if_pos hnamed, List.mapM_map]
  refine mapM_eq_some fun field hfield => ?_
  rw [Function.comp_apply, member?_append, member?, filter_fieldMembers h hfield]
  · cases field.2 <;> rfl
  · intro m hm heq
    obtain ⟨name, hname, hm⟩ := hothers m hm
    have hsame : name = field.1 := Option.some.inj (hm.symm.trans heq)
    exact hname (hsame ▸ List.mem_map_of_mem hfield)

/-- A member that is there twice spoils the record. -/
theorem fields?_of_repeated_member {names : List String}
    {members : List (Option String × Document)} {name : String} (hname : name ∈ names)
    (h : 2 ≤ (members.map Prod.fst).count (some name)) : (object members).fields? names = none := by
  refine Option.eq_none_iff_forall_ne_some.2 fun values heq => ?_
  rw [fields?] at heq
  split at heq
  · obtain ⟨d, hd⟩ := isSome_of_mapM heq hname
    rw [member?_of_repeated h] at hd
    cases hd
  · cases heq

/-- A member whose name is no text spoils the record. -/
theorem fields?_of_nameless {names : List String} {members : List (Option String × Document)}
    (h : none ∈ members.map Prod.fst) : (object members).fields? names = none := by
  obtain ⟨m, hm, hname⟩ := List.mem_map.1 h
  rw [fields?, if_neg]
  intro hnamed
  have hsome := List.all_eq_true.1 hnamed m hm
  rw [hname] at hsome
  cases hsome

/-- The fields of a printed record are found again among members with other names, whatever the
order of its members. -/
theorem fields?_present_append {fields : List (String × Option Json)}
    {members others : List (String × Json)} (h : (fields.map Prod.fst).Nodup)
    (hothers : ∀ m ∈ others, m.1 ∉ fields.map Prod.fst)
    (hperm : members.Perm (present fields ++ others)) :
    (ofJson (.object members)).fields? (fields.map Prod.fst) =
      some (fields.map fun field => field.2.map ofJson) := by
  let documents := fields.map fun field => (field.1, field.2.map ofJson)
  have hnames : documents.map Prod.fst = fields.map Prod.fst := by
    rw [List.map_map]
    rfl
  have hmembers : (ofMembers members).Perm (fieldMembers documents ++ ofMembers others) := by
    rw [← ofMembers_present]
    simp only [ofMembers_eq_map, ← List.map_append]
    exact hperm.map _
  have hother : ∀ m ∈ ofMembers others, ∃ name ∉ documents.map Prod.fst, m.1 = some name := by
    intro m hm
    rw [ofMembers_eq_map] at hm
    obtain ⟨other, hmem, rfl⟩ := List.mem_map.1 hm
    exact ⟨other.1, hnames.symm ▸ hothers other hmem, rfl⟩
  have hfields := fields?_fieldMembers (hnames.symm ▸ h) hother
  rw [hnames, List.map_map] at hfields
  rw [ofJson, fields?_of_perm hmembers, hfields]
  rfl

/-- The fields of a printed record are found again, whatever the order of its members. -/
theorem fields?_present {fields : List (String × Option Json)} {members : List (String × Json)}
    (h : (fields.map Prod.fst).Nodup) (hperm : members.Perm (present fields)) :
    (ofJson (.object members)).fields? (fields.map Prod.fst) =
      some (fields.map fun field => field.2.map ofJson) := by
  rw [← List.append_nil (present fields)] at hperm
  exact fields?_present_append h (by simp) hperm

theorem fields?_object (fields : List (String × Option Json))
    (h : (fields.map Prod.fst).Nodup) :
    (ofJson (.object (present fields))).fields? (fields.map Prod.fst) =
      some (fields.map fun field => field.2.map ofJson) :=
  fields?_present h (.refl _)

/-! ### Single fields -/

theorem text?_string (s : String) : (ofJson (.string s)).text? = some s := rfl

theorem natBelow?_nat {n bound : Nat} (h : n < bound) :
    (ofJson (.nat n)).natBelow? bound = some n := by
  have hdigits : (Number.integer n).numeral.natural? = some n := by
    simp [Number.numeral, Numeral.natural?, Numeral.isPlain, digitsValue_toDigits]
  rw [Json.nat, ofJson, natBelow?, hdigits, Option.filter_some, if_pos (decide_eq_true h)]

theorem word64?_nat (n : UInt64) : (ofJson (.nat n.toNat)).word64? = some n := by
  rw [word64?, natBelow?_nat n.toNat_lt, Option.map_some, UInt64.ofNat_toNat]

theorem word32?_nat (n : UInt32) : (ofJson (.nat n.toNat)).word32? = some n := by
  rw [word32?, natBelow?_nat n.toNat_lt, Option.map_some, UInt32.ofNat_toNat]

theorem list?_map {α : Type} {item? : Document → Option α} {toJson : α → Json}
    (h : ∀ a, item? (ofJson (toJson a)) = some a) (values : List α) :
    (ofJson (.array (values.map toJson))).list? item? = some values := by
  have hvalues : values.mapM (item? ∘ ofJson ∘ toJson) = some (values.map id) :=
    mapM_eq_some fun a _ => h a
  rw [ofJson, ofItems_eq_map, list?, List.map_map, List.mapM_map, hvalues, List.map_id]

@[simp] theorem ofJson_eq_null {j : Json} : ofJson j = .null ↔ j = .null := by
  cases j <;> simp [ofJson]

/-- A field that is written when present is read back. -/
theorem whenPresent_map {α : Type} {read? : Document → Option α} {toJson : α → Json}
    (h : ∀ a, read? (ofJson (toJson a)) = some a) (hnull : ∀ a, toJson a ≠ .null)
    (value : Option α) : whenPresent read? ((value.map toJson).map ofJson) = some value := by
  cases value with
  | none => rfl
  | some a =>
    rw [Option.map_some, Option.map_some, whenPresent, withDefault, optional?, h]
    · rfl
    · exact mt ofJson_eq_null.1 (hnull a)

end Document

end CallSignaling
