import CallSignaling.Proofs.Locus.Encoding

/-!
# Working copies that are written and read again

A working copy starts as a copy that was read and takes changes and partial copies that were read.
What is a free field of a change may be a named field of a copy: `url` is.

* `Locus.Update`: a change or a partial copy, and what it does to a working copy.
* `Locus.Update.IsRead`, `Locus.Snapshot.IsRead`: an update and a copy that were read from texts.
* `Locus.Update.carriesUrl`: the update is a change with a free field `url`.
* `Locus.Snapshot.Tidy`: what is true of a working copy whatever it took.
* `Locus.Snapshot.survives_iff`: a working copy is printed with each name once exactly if it took no
  such change, and then it is read from its text as it is exactly if its numbers return.
-/

namespace CallSignaling.Locus

open Document (readText?)
open Json (present)

/-- What a working copy takes. -/
inductive Update where
  | change (d : Delta)
  | part (s : Snapshot)

/-- A copy that was read from a text. -/
def Snapshot.IsRead (s : Snapshot) : Prop :=
  ∃ text, readText? Snapshot.ofDocument? text = some s

namespace Update

/-- A working copy with an update. -/
def applyTo (s : Snapshot) : Update → Snapshot
  | change d => s.apply d
  | part p => s.merge p

/-- An update that was read from a text. -/
def IsRead : Update → Prop
  | change d => ∃ text, readText? Delta.ofDocument? text = some d
  | part p => p.IsRead

/-- The update is a change with a free field `url`. -/
def carriesUrl : Update → Bool
  | change d => d.payload.contains "url"
  | part _ => false

/-- The free fields that the update writes over those held. -/
def fields : Update → Fields
  | change d => d.payload
  | part p => p.state

theorem state_applyTo (s : Snapshot) (u : Update) :
    (u.applyTo s).state = s.state.union u.fields := by
  cases u <;> rfl

end Update

/-! ### What was read -/

theorem Snapshot.of_ofDocument? {d : Document} {s : Snapshot} (h : ofDocument? d = some s) :
    d.free? fieldNames (Document.nestingLimit - 1) = some s.state := by
  simp only [ofDocument?, Option.bind_eq_bind, Option.bind_eq_some_iff] at h
  obtain ⟨state, hstate, fields, -, h⟩ := h
  split at h
  · simp only [Option.bind_eq_some_iff] at h
    obtain ⟨url, -, sequence, -, syncUrl, -, h⟩ := h
    cases h
    exact hstate
  · cases h

theorem Delta.of_ofDocument? {d : Document} {c : Delta} (h : ofDocument? d = some c) :
    d.free? fieldNames (Document.nestingLimit - 1) = some c.payload := by
  simp only [ofDocument?, Option.bind_eq_bind, Option.bind_eq_some_iff] at h
  obtain ⟨payload, hpayload, fields, -, h⟩ := h
  split at h
  · simp only [Option.bind_eq_some_iff] at h
    obtain ⟨base, -, sequence, -, syncUrl, -, h⟩ := h
    cases h
    exact hpayload
  · cases h

/-! ### What a working copy holds -/

namespace Snapshot

/-- Whatever a working copy took, its free fields were kept, and of the names of fields they have at
most `url`. -/
structure Tidy (s : Snapshot) : Prop where
  names : s.state.LacksAll ["sequence", "syncUrl"]
  kept : ∀ m ∈ s.state.entries, m.2.Kept (Document.nestingLimit - 1)

theorem IsRead.tidy {s : Snapshot} (h : s.IsRead) : s.Tidy ∧ s.state.get? "url" = none := by
  obtain ⟨text, h⟩ := h
  obtain ⟨d, -, h⟩ := Option.bind_eq_some_iff.1 h
  have hfree := of_ofDocument? h
  have hnames := Document.lacksAll_of_free? hfree
  exact ⟨⟨fun name hname => hnames name (List.mem_cons_of_mem _ hname),
    Document.kept_of_free? hfree⟩, hnames "url" List.mem_cons_self⟩

end Snapshot

theorem Update.IsRead.fields {u : Update} (h : u.IsRead) :
    u.fields.LacksAll ["sequence", "syncUrl"] ∧
      (∀ m ∈ u.fields.entries, m.2.Kept (Document.nestingLimit - 1)) ∧
      (u.fields.get? "url").isSome = u.carriesUrl := by
  cases u with
  | change d =>
    obtain ⟨text, h⟩ := h
    obtain ⟨document, -, h⟩ := Option.bind_eq_some_iff.1 h
    have hfree := Delta.of_ofDocument? h
    have hnames := Document.lacksAll_of_free? hfree
    exact ⟨fun name hname => hnames name (List.mem_cons_of_mem _ hname),
      Document.kept_of_free? hfree, rfl⟩
  | part p =>
    obtain ⟨htidy, hurl⟩ := Snapshot.IsRead.tidy h
    exact ⟨htidy.names, htidy.kept, congrArg Option.isSome hurl⟩

namespace Snapshot

/-- A working copy with updates in turn. -/
def takeAll (updates : List Update) (s : Snapshot) : Snapshot := updates.foldl Update.applyTo s

theorem tidy_applyTo {s : Snapshot} {u : Update} (h : s.Tidy) (hu : u.IsRead) :
    (u.applyTo s).Tidy := by
  obtain ⟨hnames, hkept, -⟩ := hu.fields
  constructor
  · intro name hname
    rw [Update.state_applyTo, SortedMap.get?_union, hnames name hname, h.names name hname]
    rfl
  · intro m hm
    rw [Update.state_applyTo] at hm
    exact (SortedMap.mem_union hm).elim (hkept m) (h.kept m)

theorem tidy_takeAll {updates : List Update} {s : Snapshot} (h : s.Tidy)
    (hu : ∀ u ∈ updates, u.IsRead) : (s.takeAll updates).Tidy := by
  induction updates generalizing s with
  | nil => exact h
  | cons u updates ih =>
    have ⟨hfirst, hrest⟩ := List.forall_mem_cons.1 hu
    exact ih (tidy_applyTo h hfirst) hrest

/-- A free field `url` never goes away, and only a change brings it. -/
theorem isSome_url_takeAll {updates : List Update} (s : Snapshot) (hu : ∀ u ∈ updates, u.IsRead) :
    ((s.takeAll updates).state.get? "url").isSome =
      ((s.state.get? "url").isSome || updates.any Update.carriesUrl) := by
  induction updates generalizing s with
  | nil => simp [takeAll]
  | cons u updates ih =>
    obtain ⟨hfirst, hrest⟩ := List.forall_mem_cons.1 hu
    obtain ⟨-, -, hurl⟩ := hfirst.fields
    have hstep : ((u.applyTo s).state.get? "url").isSome =
        ((s.state.get? "url").isSome || u.carriesUrl) := by
      rw [Update.state_applyTo, SortedMap.get?_union, Option.isSome_or, hurl, Bool.or_comm]
    rw [takeAll, List.foldl_cons, ← takeAll, ih (u.applyTo s) hrest, hstep, List.any_cons,
      Bool.or_assoc]

/-! ### What is printed -/

theorem memberNames_toJson (s : Snapshot) :
    s.toJson.memberNames = (present s.fields).map Prod.fst ++ s.state.keys := by
  rw [toJson_eq_present, Json.memberNames, List.map_append]
  rfl

theorem nodup_names_present (s : Snapshot) : ((present s.fields).map Prod.fst).Nodup :=
  (Json.names_present_sublist s.fields).nodup (by rw [names_fields]; decide)

theorem lacksAll_fieldNames {s : Snapshot} (h : s.Tidy) (hurl : s.state.get? "url" = none) :
    s.state.LacksAll fieldNames :=
  List.forall_mem_cons.2 ⟨hurl, h.names⟩

theorem nodup_memberNames {s : Snapshot} (h : s.Tidy) (hurl : s.state.get? "url" = none) :
    s.toJson.memberNames.Nodup := by
  rw [memberNames_toJson]
  refine List.Nodup.append s.nodup_names_present s.state.nodup_keys fun name hfield hkey => ?_
  obtain ⟨m, hm, rfl⟩ := List.mem_map.1 hkey
  have hname := (Json.names_present_sublist s.fields).subset hfield
  exact (lacksAll_fieldNames h hurl).not_mem hm hname

/-- With a free field `url` the name is printed twice. -/
theorem two_le_count_url {s : Snapshot} (hurl : (s.state.get? "url").isSome = true) :
    2 ≤ s.toJson.memberNames.count "url" := by
  obtain ⟨v, hv⟩ := Option.isSome_iff_exists.1 hurl
  have hkey : "url" ∈ s.state.keys := List.mem_map_of_mem (SortedMap.get?_eq_some_iff.1 hv)
  have hfield : "url" ∈ (present s.fields).map Prod.fst := List.mem_cons_self
  have hkeys := List.one_le_count_iff.2 hkey
  have hfields := List.one_le_count_iff.2 hfield
  rw [memberNames_toJson, List.count_append]
  omega

theorem ofDocument?_toJson_of_url {s : Snapshot} (hurl : (s.state.get? "url").isSome = true) :
    ofDocument? (Document.ofJson s.toJson) = none := by
  have hcount := two_le_count_url hurl
  have hfields : (Document.ofJson s.toJson).fields? fieldNames = none := by
    rw [toJson_eq_present] at hcount ⊢
    exact Document.fields?_of_repeated List.mem_cons_self hcount
  rw [ofDocument?, hfields]
  cases Document.free? fieldNames _ _ <;> rfl

/-! ### A change that carries a `url` -/

/-- A copy without free fields is read from its own text. -/
theorem isRead_of_state {s : Snapshot} (h : s.state = ∅) : s.IsRead := by
  refine ⟨s.toJson.text, ?_⟩
  have hnames : s.state.LacksAll fieldNames := by
    rw [h]
    exact fun _ _ => rfl
  rw [Document.readText?_text, ofDocument?_toJson_iff hnames, h]
  exact fun _ hm => absurd hm List.not_mem_nil

end Snapshot

/-- A change whose only free field is a `url`. -/
def Delta.carryingUrl : Delta :=
  { Delta.range 10 20 with payload := .ofList [("url", .string "v")] }

theorem Delta.isRead_carryingUrl : (Update.change carryingUrl).IsRead := by
  refine ⟨carryingUrl.toJson.text, ?_⟩
  rw [Document.readText?_text, ofDocument?_toJson_iff (by decide)]
  intro m hm
  rw [List.mem_singleton.1 hm]
  exact Json.returns_string _ _

theorem Delta.isRead_range (base stop : UInt64) : (Update.change (range base stop)).IsRead := by
  refine ⟨(range base stop).toJson.text, ?_⟩
  rw [Document.readText?_text, ofDocument?_toJson_iff fun _ _ => rfl]
  exact fun _ hm => absurd hm List.not_mem_nil

namespace Snapshot

/-! ### Survival -/

/-- The numbers in the free fields of a copy. -/
def numbers (s : Snapshot) : List Number := Json.membersNumbers s.state.entries

/-- What was kept in the free fields returns exactly if the numbers do. -/
theorem Tidy.returns_iff {s : Snapshot} (h : s.Tidy) :
    (∀ m ∈ s.state.entries, m.2.Returns (Document.nestingLimit - 1)) ↔
      ∀ n ∈ s.numbers, n.Returns := by
  constructor
  · intro hreturns n hn
    obtain ⟨m, hm, hn⟩ := Json.mem_membersNumbers.1 hn
    exact (hreturns m hm).numbers n hn
  · intro hnumbers m hm
    exact ⟨h.kept m hm, fun n hn => hnumbers n (Json.mem_membersNumbers.2 ⟨m, hm, hn⟩)⟩

/-- **A working copy survives its own encoding exactly if no change carried a `url` and its numbers
return**: a copy that was read and has taken changes and partial copies that were read is printed with
each name once if and only if none of the changes had a free field `url`.  Its text is read as the
copy if and only if, besides, every number in its free fields is read again as it was printed; with
such a change it is not read as any copy. -/
theorem survives_iff {s : Snapshot} {updates : List Update} (hs : s.IsRead)
    (hu : ∀ u ∈ updates, u.IsRead) :
    let last := s.takeAll updates
    (last.toJson.memberNames.Nodup ↔ ∀ u ∈ updates, u.carriesUrl = false) ∧
      (readText? ofDocument? last.toJson.text = some last ↔
        (∀ u ∈ updates, u.carriesUrl = false) ∧ ∀ n ∈ last.numbers, n.Returns) ∧
      ((∃ u ∈ updates, u.carriesUrl = true) → readText? ofDocument? last.toJson.text = none) := by
  intro last
  obtain ⟨htidy, hnone⟩ := hs.tidy
  have hlast : last.Tidy := tidy_takeAll htidy hu
  have hurl : (last.state.get? "url").isSome = updates.any Update.carriesUrl := by
    rw [isSome_url_takeAll s hu, hnone]
    rfl
  rw [Document.readText?_text]
  by_cases h : ∀ u ∈ updates, u.carriesUrl = false
  · have hany : last.state.get? "url" = none := by
      rw [← Option.isNone_iff_eq_none, ← Option.not_isSome, hurl]
      simpa using h
    rw [ofDocument?_toJson_iff (lacksAll_fieldNames hlast hany), hlast.returns_iff]
    refine ⟨iff_of_true (nodup_memberNames hlast hany) h, (and_iff_right h).symm, ?_⟩
    rintro ⟨u, hmem, hcarries⟩
    rw [h u hmem] at hcarries
    cases hcarries
  · have hany : (last.state.get? "url").isSome = true := by
      rw [hurl]
      simpa using h
    have hlost := ofDocument?_toJson_of_url hany
    refine ⟨iff_of_false (fun hnodup => ?_) h, iff_of_false ?_ fun hall => h hall.1,
      fun _ => hlost⟩
    · have hle := List.nodup_iff_count_le_one.1 hnodup "url"
      have htwo := two_le_count_url hany
      omega
    · rw [hlost]
      nofun

/-- A copy that takes a change and a partial copy with another `url` survives; had the change
carried a `url`, it would not. -/
theorem survives_range_merge :
    let s : Snapshot := { url := "u" }
    let part : Snapshot := { url := "w", sequence := .range 0 30 }
    let kept := s.takeAll [.change (.range 10 20), .part part]
    let lost := s.takeAll [.change .carryingUrl, .part part]
    (s.IsRead ∧ part.IsRead) ∧
      (kept.toJson.memberNames.Nodup ∧ readText? ofDocument? kept.toJson.text = some kept) ∧
      ¬ lost.toJson.memberNames.Nodup ∧ readText? ofDocument? lost.toJson.text = none := by
  intro s part kept lost
  have hs : s.IsRead := isRead_of_state rfl
  have hpart : part.IsRead := isRead_of_state rfl
  have hkept : ∀ u ∈ [Update.change (.range 10 20), .part part], u.IsRead :=
    List.forall_mem_cons.2 ⟨Delta.isRead_range 10 20, List.forall_mem_singleton.2 hpart⟩
  have hlost : ∀ u ∈ [Update.change .carryingUrl, .part part], u.IsRead :=
    List.forall_mem_cons.2 ⟨Delta.isRead_carryingUrl, List.forall_mem_singleton.2 hpart⟩
  obtain ⟨hnodup, hread, -⟩ := survives_iff hs hkept
  obtain ⟨hrepeated, -, hunread⟩ := survives_iff hs hlost
  exact ⟨⟨hs, hpart⟩, ⟨hnodup.2 (by decide), hread.2 ⟨by decide, by decide⟩⟩,
    fun h => absurd (hrepeated.1 h) (by decide), hunread ⟨_, List.mem_cons_self, rfl⟩⟩

/-- The copy at `u` that takes a change with a free field `url` and then a partial copy at `w` is
printed with `url` twice, and its text is not read as a copy. -/
theorem url_printed_twice :
    let s : Snapshot := { url := "u" }
    let updates : List Update :=
      [.change .carryingUrl, .part { url := "w", sequence := .range 0 30 }]
    let last := s.takeAll updates
    (s.IsRead ∧ ∀ u ∈ updates, u.IsRead) ∧
      last.toJson.memberNames = ["url", "sequence", "url"] ∧
      readText? ofDocument? last.toJson.text = none := by
  intro s updates last
  have hupdates : ∀ u ∈ updates, u.IsRead :=
    List.forall_mem_cons.2
      ⟨Delta.isRead_carryingUrl, List.forall_mem_singleton.2 (isRead_of_state rfl)⟩
  refine ⟨⟨isRead_of_state rfl, hupdates⟩, rfl, ?_⟩
  rw [Document.readText?_text]
  exact ofDocument?_toJson_of_url rfl

end Snapshot

end CallSignaling.Locus
