import CallSignaling.Locus.Sequence
import Mathlib.Data.List.Pairwise
import Mathlib.Data.List.Sort

/-!
# Comparison from either side

The owner of each of two copies compares it with the other one.  What the two find has to fit.

* `Locus.Sequence.After`: a sequence starts after everything that another one contains.
* `Locus.Sequence.Crossed`: each of two sequences lies after the other, which takes entries out of
  order or a range with its ends the wrong way round.
* `Locus.Sequence.Relation.flip`: a relation as the other side sees it.
* `Locus.Sequence.ProperEntries`: entries in their order.

Unless two sequences are crossed, the other side sees the relation flipped (`relation_flip`), so that
no two copies can replace each other (`compare_consistent`).  Between proper entries without ranges
the four rules come down to order and inclusion (`compare_entries`).
-/

namespace CallSignaling.Locus.Sequence

/-! ### Entries of one side only -/

theorem covers_iff {s : Sequence} {e : UInt64} :
    s.covers e = true ↔ e ∈ s.entries ∨ s.rangeStart ≤ e ∧ e ≤ s.rangeEnd := by
  simp [covers]

theorem covers_of_mem {s : Sequence} {e : UInt64} (h : e ∈ s.entries) : s.covers e = true :=
  covers_iff.2 (.inl h)

theorem mem_entriesBeyond {s other : Sequence} {e : UInt64} :
    e ∈ s.entriesBeyond other ↔ e ∈ s.entries ∧ other.covers e = false := by
  rw [entriesBeyond, List.mem_mergeSort, List.mem_filter, Bool.not_eq_true']

theorem entriesBeyond_eq_nil {s other : Sequence} :
    s.entriesBeyond other = [] ↔ ∀ e ∈ s.entries, other.covers e = true := by
  simp only [List.eq_nil_iff_forall_not_mem, mem_entriesBeyond, not_and, Bool.not_eq_false]

theorem entriesBeyond_self (s : Sequence) : s.entriesBeyond s = [] :=
  entriesBeyond_eq_nil.2 fun _ => covers_of_mem

/-- An entry of its own is one that the other side neither lists nor has in its range. -/
theorem exists_of_entriesBeyond_ne_nil {s other : Sequence} (h : s.entriesBeyond other ≠ []) :
    ∃ e ∈ s.entries, e ∉ other.entries ∧ ¬ (other.rangeStart ≤ e ∧ e ≤ other.rangeEnd) := by
  obtain ⟨e, he⟩ := List.exists_mem_of_ne_nil _ h
  obtain ⟨hmem, hcovers⟩ := mem_entriesBeyond.1 he
  have hnot : ¬ (e ∈ other.entries ∨ other.rangeStart ≤ e ∧ e ≤ other.rangeEnd) := fun hin => by
    rw [covers_iff.2 hin] at hcovers
    cases hcovers
  exact ⟨e, hmem, not_or.1 hnot⟩

/-! ### The rules in turn -/

theorem exceeds_some {a b : UInt64} : exceeds (some a) (some b) = true ↔ b < a := by
  simp [exceeds]

/-- `s` starts after the highest point of `other`. -/
def After (s other : Sequence) : Prop := exceeds s.lowest? (some other.highest) = true

/-- Each of the two starts after the highest point of the other. -/
def Crossed (s other : Sequence) : Prop := s.After other ∧ other.After s

theorem relation_of_after {a b : Sequence} (h : a.After b) : a.relation b = .newer := by
  simp only [relation, compareApart?, if_pos (show exceeds _ _ = true from h)]

theorem relation_of_before {a b : Sequence} (h : b.After a) (hnot : ¬ a.After b) :
    a.relation b = .older := by
  simp only [relation, compareApart?, if_neg (show ¬ exceeds _ _ = true from hnot),
    if_pos (show exceeds _ _ = true from h)]

/-- Where neither lies after the other, the entries of their own decide first. -/
theorem relation_of_overlap {a b : Sequence} (h : ¬ a.After b) (h' : ¬ b.After a) :
    a.relation b =
      if a.entriesBeyond b = [] then
        if b.entriesBeyond a = [] then a.compareSpans b else .older
      else
        if b.entriesBeyond a = [] then .newer
        else a.compareOwn b (a.entriesBeyond b) (b.entriesBeyond a) := by
  simp only [relation, compareApart?, if_neg (show ¬ exceeds _ _ = true from h),
    if_neg (show ¬ exceeds _ _ = true from h')]
  cases a.entriesBeyond b <;> cases b.entriesBeyond a <;> rfl

/-- Copies have diverged only if each has entries of its own. -/
theorem entriesBeyond_of_diverged {a b : Sequence} (h : a.relation b = .diverged) :
    a.entriesBeyond b ≠ [] ∧ b.entriesBeyond a ≠ [] := by
  by_cases hab : a.After b
  · rw [relation_of_after hab] at h
    cases h
  by_cases hba : b.After a
  · rw [relation_of_before hba hab] at h
    cases h
  rw [relation_of_overlap hab hba] at h
  split at h
  · split at h
    · -- the spans tell which is newer, or that neither is
      unfold compareSpans at h
      split at h
      · split at h
        · cases h
        · split at h <;> cases h
      · cases h
    · cases h
  · split at h
    · cases h
    · exact ⟨‹_›, ‹_›⟩

/-! ### The other side -/

/-- The relation as the other side sees it. -/
def Relation.flip : Relation → Relation
  | newer => older
  | older => newer
  | equal => equal
  | diverged => diverged

@[simp] theorem Relation.flip_eq_diverged {r : Relation} : r.flip = .diverged ↔ r = .diverged := by
  cases r <;> simp [flip]

theorem compareSpans_flip (a b : Sequence) : b.compareSpans a = (a.compareSpans b).flip := by
  unfold compareSpans
  cases a.span? with
  | none => cases b.span? <;> rfl
  | some c =>
    cases b.span? with
    | none => rfl
    | some i =>
      rcases Int.lt_trichotomy c i with h | rfl | h
      · simp [h, Int.not_lt.2 (Int.le_of_lt h), Relation.flip]
      · simp [Relation.flip]
      · simp [h, Int.not_lt.2 (Int.le_of_lt h), Relation.flip]

/-- Lists of entries of their own start with different entries. -/
theorem exceeds_entriesBeyond {a b : Sequence} (ha : a.entriesBeyond b ≠ [])
    (hb : b.entriesBeyond a ≠ []) :
    exceeds (b.entriesBeyond a).head? (a.entriesBeyond b).head? =
      !exceeds (a.entriesBeyond b).head? (b.entriesBeyond a).head? := by
  obtain ⟨hours, hbeyond⟩ := mem_entriesBeyond.1 (List.head_mem ha)
  obtain ⟨htheirs, -⟩ := mem_entriesBeyond.1 (List.head_mem hb)
  have hne : (a.entriesBeyond b).head ha ≠ (b.entriesBeyond a).head hb := fun heq => by
    rw [heq, covers_of_mem htheirs] at hbeyond
    cases hbeyond
  rw [List.head?_eq_some_head ha, List.head?_eq_some_head hb]
  rcases Std.lt_trichotomy ((a.entriesBeyond b).head ha) ((b.entriesBeyond a).head hb)
    with hlt | heq | hgt
  · simp [exceeds, hlt, UInt64.lt_asymm hlt]
  · exact absurd heq hne
  · simp [exceeds, hgt, UInt64.lt_asymm hgt]

theorem compareOwn_flip {a b : Sequence} {ours theirs : List UInt64}
    (h : exceeds theirs.head? ours.head? = !exceeds ours.head? theirs.head?) :
    b.compareOwn a theirs ours = (a.compareOwn b ours theirs).flip := by
  have hmeet : (b.hasNoRange && a.hasNoRange || a.meets theirs || b.meets ours) =
      (a.hasNoRange && b.hasNoRange || b.meets ours || a.meets theirs) := by
    rw [Bool.and_comm, Bool.or_right_comm]
  unfold compareOwn
  rw [hmeet, h]
  split
  · rfl
  · cases exceeds ours.head? theirs.head? <;> rfl

/-- Unless they are crossed, the other side sees the relation of two sequences flipped. -/
theorem relation_flip {a b : Sequence} (h : ¬ a.Crossed b) :
    b.relation a = (a.relation b).flip := by
  by_cases hab : a.After b
  · have hba : ¬ b.After a := fun hba => h ⟨hab, hba⟩
    rw [relation_of_after hab, relation_of_before hab hba]
    rfl
  by_cases hba : b.After a
  · rw [relation_of_after hba, relation_of_before hba hab]
    rfl
  rw [relation_of_overlap hab hba, relation_of_overlap hba hab]
  by_cases hours : a.entriesBeyond b = []
  · by_cases htheirs : b.entriesBeyond a = []
    · simp only [hours, htheirs, if_true]
      exact compareSpans_flip a b
    · simp only [hours, htheirs, if_true, if_false]
      rfl
  · by_cases htheirs : b.entriesBeyond a = []
    · simp only [hours, htheirs, if_true, if_false]
      rfl
    · simp only [hours, htheirs, if_false]
      exact compareOwn_flip (exceeds_entriesBeyond hours htheirs)

/-- Either side of crossed sequences takes its own for the newer one. -/
theorem Crossed.relation {a b : Sequence} (h : a.Crossed b) :
    a.relation b = .newer ∧ b.relation a = .newer :=
  ⟨relation_of_after h.1, relation_of_after h.2⟩

theorem relation_self (s : Sequence) : s.relation s = .newer ∨ s.relation s = .equal := by
  by_cases h : s.After s
  · exact .inl (relation_of_after h)
  · right
    rw [relation_of_overlap h h, if_pos (entriesBeyond_self s), if_pos (entriesBeyond_self s)]
    unfold compareSpans
    cases s.span? with
    | none => rfl
    | some width => simp

/-! ### What is done with a copy -/

section Compare

variable {a b : Sequence} (ha : a.isEmpty = false) (hb : b.isEmpty = false)

include ha hb

theorem compare_eq_useIncoming : a.compare b = .useIncoming ↔ a.relation b = .older := by
  rw [compare, ha, hb]
  cases a.relation b <;> decide

theorem compare_eq_useCurrent :
    a.compare b = .useCurrent ↔ a.relation b = .newer ∨ a.relation b = .equal := by
  rw [compare, ha, hb]
  cases a.relation b <;> decide

theorem compare_eq_desync : a.compare b = .desync ↔ a.relation b = .diverged := by
  rw [compare, ha, hb]
  cases a.relation b <;> decide

end Compare

/-- **Two copies cannot replace each other**: whatever entries and ranges they have, two sequences
that are not empty have diverged from either side or from none.  If one side takes the other copy,
the other side keeps it.  Copies have diverged only if each has an entry that the other one neither
lists nor has in its range, and no copy is replaced by one at its own sequence. -/
theorem compare_consistent {a b : Sequence} (ha : a.isEmpty = false) (hb : b.isEmpty = false) :
    (a.compare b = .desync ↔ b.compare a = .desync) ∧
      (a.compare b = .useIncoming → b.compare a = .useCurrent) ∧
      (a.compare b = .desync →
        (∃ e ∈ a.entries, e ∉ b.entries ∧ ¬ (b.rangeStart ≤ e ∧ e ≤ b.rangeEnd)) ∧
          ∃ e ∈ b.entries, e ∉ a.entries ∧ ¬ (a.rangeStart ≤ e ∧ e ≤ a.rangeEnd)) ∧
      a.compare a = .useCurrent := by
  rw [compare_eq_desync ha hb, compare_eq_desync hb ha, compare_eq_useIncoming ha hb,
    compare_eq_useCurrent hb ha, compare_eq_useCurrent ha ha]
  refine ⟨?_, ?_, fun hdiverged => ?_, relation_self a⟩
  · by_cases hcrossed : a.Crossed b
    · rw [hcrossed.relation.1, hcrossed.relation.2]
    · rw [relation_flip hcrossed, Relation.flip_eq_diverged]
  · intro holder
    by_cases hcrossed : a.Crossed b
    · exact .inl hcrossed.relation.2
    · exact .inl ((relation_flip hcrossed).trans (congrArg Relation.flip holder))
  · obtain ⟨hours, htheirs⟩ := entriesBeyond_of_diverged hdiverged
    exact ⟨exists_of_entriesBeyond_ne_nil hours, exists_of_entriesBeyond_ne_nil htheirs⟩

/-- The first two copies have diverged although they share a range.  The third one goes beyond the
first. -/
theorem compare_consistent_commonRange :
    let a : Sequence := { entries := [12, 7, 12, 30], rangeStart := 1, rangeEnd := 20 }
    let b : Sequence := { entries := [25], rangeStart := 1, rangeEnd := 20 }
    let c : Sequence := { entries := [40], rangeStart := 1, rangeEnd := 30 }
    (a.isEmpty = false ∧ b.isEmpty = false ∧ c.isEmpty = false) ∧
      (a.compare b = .desync ∧ b.compare a = .desync ∧
        (∃ e ∈ a.entries, e ∉ b.entries ∧ ¬ (b.rangeStart ≤ e ∧ e ≤ b.rangeEnd)) ∧
          ∃ e ∈ b.entries, e ∉ a.entries ∧ ¬ (a.rangeStart ≤ e ∧ e ≤ a.rangeEnd)) ∧
      (a.compare c = .useIncoming ∧ c.compare a = .useCurrent) ∧
      a.compare a = .useCurrent := by
  intro a b c
  have hab : a.compare b = .desync := by decide +kernel
  have hac : a.compare c = .useIncoming := by decide +kernel
  obtain ⟨hdesync, -, hown, hself⟩ :=
    compare_consistent (a := a) (b := b) (by decide) (by decide)
  obtain ⟨-, hkept, -, -⟩ := compare_consistent (a := a) (b := c) (by decide) (by decide)
  exact ⟨⟨by decide, by decide, by decide⟩, ⟨hab, hdesync.1 hab, hown hab⟩, ⟨hac, hkept hac⟩, hself⟩

/-! ### Proper entries -/

/-- Entries as they come about: some, in strictly increasing order, and none of them zero. -/
structure ProperEntries (entries : List UInt64) : Prop where
  nonempty : entries ≠ []
  increasing : entries.Pairwise (· < ·)
  nonzero : 0 ∉ entries

theorem covers_ofEntries {entries : List UInt64} {e : UInt64} (he : e ≠ 0) :
    (ofEntries entries).covers e = true ↔ e ∈ entries := by
  rw [covers_iff]
  constructor
  · rintro (hmem | ⟨-, hle⟩)
    · exact hmem
    · exact absurd (UInt64.le_zero_iff.1 hle) he
  · exact .inl

namespace ProperEntries

variable {xs ys : List UInt64} (hx : ProperEntries xs) (hy : ProperEntries ys)

include hx

theorem isEmpty_eq_false : (ofEntries xs).isEmpty = false := by
  rw [isEmpty, Bool.and_eq_false_iff]
  exact .inl (List.isEmpty_eq_false_iff.2 hx.nonempty)

theorem head_le {e : UInt64} (he : e ∈ xs) : xs.head hx.nonempty ≤ e :=
  (hx.increasing.imp UInt64.le_of_lt).rel_head he

theorem le_getLast {e : UInt64} (he : e ∈ xs) : e ≤ xs.getLast hx.nonempty :=
  (hx.increasing.imp UInt64.le_of_lt).rel_getLast he

theorem lowest?_eq : (ofEntries xs).lowest? = some (xs.head hx.nonempty) :=
  List.head?_eq_some_head hx.nonempty

theorem highest_eq : (ofEntries xs).highest = xs.getLast hx.nonempty := by
  have hne : xs.getLast hx.nonempty ≠ 0 := fun heq =>
    hx.nonzero (heq ▸ List.getLast_mem hx.nonempty)
  simp [highest, ofEntries, List.getLast?_eq_some_getLast hx.nonempty, Option.filter_some, hne]

theorem position_eq : (ofEntries xs).position = xs.getLast hx.nonempty := by
  simp [position, ofEntries, List.getLast?_eq_some_getLast hx.nonempty]

theorem entriesBeyond_eq_nil_iff :
    (ofEntries xs).entriesBeyond (ofEntries ys) = [] ↔ xs ⊆ ys := by
  rw [entriesBeyond_eq_nil]
  refine forall_congr' fun e => imp_congr_right fun he => covers_ofEntries ?_
  rintro rfl
  exact hx.nonzero he

include hy

theorem after_iff :
    (ofEntries xs).After (ofEntries ys) ↔ ys.getLast hy.nonempty < xs.head hx.nonempty := by
  rw [After, hx.lowest?_eq, hy.highest_eq, exceeds_some]

/-- Lists of which one lies after the other have no entries in common. -/
theorem not_subset_of_lt (h : xs.getLast hx.nonempty < ys.head hy.nonempty) :
    ¬ xs ⊆ ys ∧ ¬ ys ⊆ xs ∧ ¬ ys.getLast hy.nonempty < xs.head hx.nonempty := by
  have hapart : ∀ e ∈ xs, e ∉ ys := fun e hex hey =>
    UInt64.not_lt.2 (UInt64.le_trans (hy.head_le hey) (hx.le_getLast hex)) h
  refine ⟨fun hsub => ?_, fun hsub => ?_, fun hlt => ?_⟩
  · exact hapart _ (List.head_mem hx.nonempty) (hsub (List.head_mem hx.nonempty))
  · exact hapart _ (hsub (List.head_mem hy.nonempty)) (List.head_mem hy.nonempty)
  · have hup := hx.head_le (List.getLast_mem hx.nonempty)
    have hup' := hy.head_le (List.getLast_mem hy.nonempty)
    exact UInt64.lt_irrefl _
      (UInt64.lt_of_le_of_lt (UInt64.le_trans hup' (UInt64.le_of_lt hlt))
        (UInt64.lt_of_le_of_lt hup h))

/-- Where neither list lies after the other, inclusion decides. -/
theorem relation_of_not_lt (h : ¬ ys.getLast hy.nonempty < xs.head hx.nonempty)
    (h' : ¬ xs.getLast hx.nonempty < ys.head hy.nonempty) :
    ((ofEntries xs).relation (ofEntries ys) = .older ↔ xs ⊆ ys ∧ ¬ ys ⊆ xs) ∧
      ((ofEntries xs).relation (ofEntries ys) = .newer ∨
        (ofEntries xs).relation (ofEntries ys) = .equal ↔ ys ⊆ xs) := by
  rw [← hx.after_iff hy] at h
  rw [← hy.after_iff hx] at h'
  rw [relation_of_overlap h h']
  simp only [hx.entriesBeyond_eq_nil_iff, hy.entriesBeyond_eq_nil_iff]
  by_cases hsub : xs ⊆ ys
  · by_cases hsup : ys ⊆ xs
    · -- lists with the same entries are the same, and so are their spans
      obtain rfl := List.Subset.antisymm_of_pairwise hx.increasing hy.increasing hsub hsup
      simp [compareSpans, lowest?_eq hx, span?]
    · simp [hsub, hsup]
  · by_cases hsup : ys ⊆ xs
    · simp [hsub, hsup]
    · -- without ranges, entries of their own on both sides mean that the copies have diverged
      have hrange : (ofEntries xs).hasNoRange && (ofEntries ys).hasNoRange := rfl
      simp [hsub, hsup, compareOwn, hrange]

theorem relation_iff :
    ((ofEntries xs).relation (ofEntries ys) = .older ↔
        xs.getLast hx.nonempty < ys.head hy.nonempty ∨ xs ⊆ ys ∧ ¬ ys ⊆ xs) ∧
      ((ofEntries xs).relation (ofEntries ys) = .newer ∨
        (ofEntries xs).relation (ofEntries ys) = .equal ↔
          ys.getLast hy.nonempty < xs.head hx.nonempty ∨ ys ⊆ xs) := by
  by_cases hafter : ys.getLast hy.nonempty < xs.head hx.nonempty
  · obtain ⟨-, hsub, hnot⟩ := hy.not_subset_of_lt hx hafter
    rw [relation_of_after ((hx.after_iff hy).2 hafter)]
    simp [hafter, hsub, hnot]
  by_cases hbefore : xs.getLast hx.nonempty < ys.head hy.nonempty
  · obtain ⟨-, hsup, -⟩ := hx.not_subset_of_lt hy hbefore
    rw [relation_of_before ((hy.after_iff hx).2 hbefore) fun h => hafter ((hx.after_iff hy).1 h)]
    simp [hafter, hbefore, hsup]
  · obtain ⟨holder, hnewer⟩ := hx.relation_of_not_lt hy hafter hbefore
    rw [holder, hnewer]
    simp [hafter, hbefore]

end ProperEntries

/-- **Proper entries are compared by order and inclusion**: without ranges, an incoming copy is
taken just if its entries lie after all of those held or are more than those held; the copy held
stays just if its entries lie after all of the incoming ones or include them; and otherwise the two
have diverged.  So a copy that is taken never lies behind the one held. -/
theorem compare_entries {a b : List UInt64} (ha : ProperEntries a) (hb : ProperEntries b) :
    ((ofEntries a).compare (ofEntries b) = .useIncoming ↔
        a.getLast ha.nonempty < b.head hb.nonempty ∨ a ⊆ b ∧ ¬ b ⊆ a) ∧
      ((ofEntries a).compare (ofEntries b) = .useCurrent ↔
        b.getLast hb.nonempty < a.head ha.nonempty ∨ b ⊆ a) ∧
      ((ofEntries a).compare (ofEntries b) = .desync ↔
        ¬ (a.getLast ha.nonempty < b.head hb.nonempty ∨ a ⊆ b ∧ ¬ b ⊆ a) ∧
          ¬ (b.getLast hb.nonempty < a.head ha.nonempty ∨ b ⊆ a)) ∧
      ((ofEntries a).compare (ofEntries b) = .useIncoming →
        (ofEntries a).position ≤ (ofEntries b).position) := by
  have hea := ha.isEmpty_eq_false
  have heb := hb.isEmpty_eq_false
  obtain ⟨holder, hnewer⟩ := ha.relation_iff hb
  have htaken := (compare_eq_useIncoming hea heb).trans holder
  have hkept := (compare_eq_useCurrent hea heb).trans hnewer
  refine ⟨htaken, hkept, ?_, fun h => ?_⟩
  · rw [← htaken, ← hkept]
    cases (ofEntries a).compare (ofEntries b) <;> decide
  · rw [ha.position_eq, hb.position_eq]
    rcases htaken.1 h with hbefore | ⟨hsub, -⟩
    · exact UInt64.le_trans (UInt64.le_of_lt hbefore) (hb.head_le (List.getLast_mem hb.nonempty))
    · exact hb.le_getLast (hsub (List.getLast_mem ha.nonempty))

/-- More entries are taken and fewer are not, and entries that differ in the middle have
diverged. -/
theorem compare_entries_more :
    (ProperEntries [3, 5] ∧ ProperEntries [3, 4, 5] ∧ ProperEntries [1, 3, 5]) ∧
      ((ofEntries [3, 5]).compare (ofEntries [3, 4, 5]) = .useIncoming ∧
        (ofEntries [3, 5]).position ≤ (ofEntries [3, 4, 5]).position) ∧
      (ofEntries [3, 4, 5]).compare (ofEntries [3, 5]) = .useCurrent ∧
      (ofEntries [3, 4, 5]).compare (ofEntries [1, 3, 5]) = .desync := by
  have hfew : ProperEntries [3, 5] := ⟨by decide, by decide, by decide⟩
  have hmany : ProperEntries [3, 4, 5] := ⟨by decide, by decide, by decide⟩
  have hother : ProperEntries [1, 3, 5] := ⟨by decide, by decide, by decide⟩
  obtain ⟨htaken, -, -, hposition⟩ := compare_entries hfew hmany
  obtain ⟨-, hkept, -, -⟩ := compare_entries hmany hfew
  obtain ⟨-, -, hdiverged, -⟩ := compare_entries hmany hother
  have hmore := htaken.2 (.inr ⟨by decide, by decide⟩)
  exact ⟨⟨hfew, hmany, hother⟩, ⟨hmore, hposition hmore⟩, hkept.2 (.inr (by decide)),
    hdiverged.2 ⟨by simp, by simp⟩⟩

end CallSignaling.Locus.Sequence
