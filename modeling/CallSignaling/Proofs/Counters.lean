import CallSignaling.Metric
import Mathlib.Data.List.Basic

/-!
# What a counter shows

* `Metric.counter`: what the counter of a series shows after a run, nothing being zero.
* `Metric.deltaSeries`: the series that counts how often a thing happened to a change.
* `Metric.violationSeries`: the series that counts violations of the protocol of exchanges.

Series with different names are different (`seriesKey_ne`).  A series to which every measurement
counts one more shows how often it is written to (`counter_eq_countP`), so one that belongs to a
single measurement shows how often that was made (`counter_eq_count`).  Hence the series of the
changes show how often each thing happened to one (`counter_delta`), and that of the violations how
often there was one (`counter_violation`).
-/

namespace CallSignaling.Metric

/-! ### Names of series -/

/-- The name of a series is what stands before its labels. -/
theorem takeWhile_seriesKey {name : String} (labels : List (String × String))
    (h : '\x7b' ∉ name.toList) :
    (seriesKey name labels).toList.takeWhile (· ≠ '\x7b') = name.toList := by
  have hname : ∀ c ∈ name.toList, decide (c ≠ '\x7b') = true := by
    intro c hc
    rw [decide_eq_true_iff]
    rintro rfl
    exact h hc
  unfold seriesKey
  split
  · rw [← List.append_nil name.toList, List.takeWhile_append_of_pos hname, List.takeWhile_nil]
  · rw [String.append_assoc, String.append_assoc, String.toList_append, String.toList_append,
      List.takeWhile_append_of_pos hname]
    show name.toList ++ [] = name.toList
    exact List.append_nil _

/-- Series with different names are different, whatever their labels. -/
theorem seriesKey_ne {name other : String} (labels others : List (String × String))
    (h : '\x7b' ∉ name.toList) (hother : '\x7b' ∉ other.toList) (hne : name ≠ other) :
    seriesKey name labels ≠ seriesKey other others := by
  intro heq
  have hnames := takeWhile_seriesKey labels h
  rw [heq, takeWhile_seriesKey others hother] at hnames
  exact hne (String.toList_injective hnames.symm)

/-! ### Counters -/

/-- The number in a reading of a counter. -/
def Reading.total : Option Reading → Nat
  | some (.counter n) => n
  | _ => 0

/-- What the counter of a series shows. -/
def counter (key : String) (metrics : List Metric) : Nat :=
  Reading.total ((report metrics).get? key)

/-- The reading, if there is one, is that of a counter. -/
def Reading.Counts (reading : Option Reading) : Prop :=
  ∀ x, reading = some x → ∃ n, x = .counter n

theorem Reading.counts_update {reading : Option Reading} (h : Counts reading) :
    Counts (some (update reading .count)) ∧
      total (some (update reading .count)) = total reading + 1 := by
  cases hreading : reading with
  | none =>
    refine ⟨?_, rfl⟩
    intro x hx
    cases hx
    exact ⟨1, rfl⟩
  | some y =>
    obtain ⟨n, rfl⟩ := h y hreading
    refine ⟨?_, rfl⟩
    intro x hx
    cases hx
    exact ⟨n + 1, rfl⟩

/-- The readings after one more sample. -/
def record (readings : SortedMap String Reading) (s : String × Update) :
    SortedMap String Reading :=
  readings.insert s.1 (Reading.update (readings.get? s.1) s.2)

/-- If every sample for a series counts one more then they are added to what it showed. -/
theorem total_foldl_record {key : String} {samples : List (String × Update)}
    {readings : SortedMap String Reading} (hcounts : Reading.Counts (readings.get? key))
    (h : ∀ s ∈ samples, s.1 = key → s.2 = .count) :
    Reading.total ((samples.foldl record readings).get? key) =
      Reading.total (readings.get? key) + samples.countP (·.1 = key) := by
  induction samples generalizing readings with
  | nil => rfl
  | cons s samples ih =>
    have htail : ∀ t ∈ samples, t.1 = key → t.2 = .count :=
      fun t ht => h t (List.mem_cons_of_mem s ht)
    rw [List.foldl_cons, List.countP_cons]
    by_cases hkey : s.1 = key
    · -- the sample counts one more, and the rest starts from there
      obtain ⟨hcounts', htotal⟩ := Reading.counts_update hcounts
      have hget : (record readings s).get? key =
          some (Reading.update (readings.get? key) .count) := by
        rw [record, hkey, h s List.mem_cons_self hkey, SortedMap.get?_insert_self]
      rw [ih (hget ▸ hcounts') htail, hget, htotal, if_pos (decide_eq_true hkey)]
      omega
    · have hget : (record readings s).get? key = readings.get? key :=
        SortedMap.get?_insert_of_ne _ _ (Ne.symm hkey)
      rw [ih (hget ▸ hcounts) htail, hget, if_neg (by simpa using hkey)]
      omega

/-- A series to which every measurement counts one more shows how often it is written to. -/
theorem counter_eq_countP {key : String} {metrics : List Metric}
    (h : ∀ s ∈ metrics.flatMap samples, s.1 = key → s.2 = .count) :
    counter key metrics = (metrics.flatMap samples).countP (·.1 = key) := by
  have hnone : Reading.Counts ((∅ : SortedMap String Reading).get? key) :=
    fun x hx => by cases hx
  have htotal := total_foldl_record hnone h
  rwa [SortedMap.get?_empty, show Reading.total none = 0 from rfl, Nat.zero_add] at htotal

/-- A series that belongs to one measurement shows how often it was made. -/
theorem counter_eq_count {key : String} {m : Metric} (hm : m.samples = [(key, .count)])
    (hothers : ∀ other : Metric, other ≠ m → ∀ s ∈ other.samples, s.1 ≠ key)
    (metrics : List Metric) : counter key metrics = metrics.count m := by
  have hcount : ∀ s ∈ metrics.flatMap samples, s.1 = key → s.2 = .count := by
    intro s hs hkey
    obtain ⟨other, -, hs⟩ := List.mem_flatMap.1 hs
    by_cases hother : other = m
    · rw [hother, hm] at hs
      rw [List.mem_singleton.1 hs]
    · exact absurd hkey (hothers other hother s hs)
  rw [counter_eq_countP hcount]
  clear hcount
  induction metrics with
  | nil => rfl
  | cons other metrics ih =>
    rw [List.flatMap_cons, List.countP_append, ih, List.count_cons, Nat.add_comm]
    congr 1
    by_cases hother : other = m
    · rw [hother, hm]
      simp
    · rw [if_neg (by simpa using hother), List.countP_eq_zero]
      intro s hs
      simpa using hothers other hother s hs

/-! ### The series of the changes and of the violations -/

/-- The series that counts how often `action` happened to a change. -/
def deltaSeries (action : DeltaAction) : String :=
  seriesKey "signaling_locus_deltas_total" [("action", action.name)]

/-- The series that counts violations of the protocol of exchanges. -/
def violationSeries : String := "signaling_roap_protocol_violations_total"

theorem deltaSeries_injective {a b : DeltaAction} (h : deltaSeries a = deltaSeries b) : a = b := by
  revert h
  cases a <;> cases b <;> decide +kernel

/-- Only the changes write to series of their name, and only the violations to that of theirs. -/
theorem exists_seriesKey {m : Metric} {key : String} {update : Update}
    (hs : (key, update) ∈ m.samples) :
    ∃ name labels, key = seriesKey name labels ∧ '\x7b' ∉ name.toList ∧
      (name = "signaling_locus_deltas_total" → ∃ action, m = .delta action) ∧
      (name = violationSeries → m = .protocolViolation) := by
  cases m with
  | delta action =>
    cases List.mem_singleton.1 hs
    exact ⟨_, _, rfl, by decide +kernel, fun _ => ⟨action, rfl⟩,
      fun h => absurd h (by decide +kernel)⟩
  | protocolViolation =>
    cases List.mem_singleton.1 hs
    exact ⟨_, [], rfl, by decide +kernel, fun h => absurd h (by decide +kernel), fun _ => rfl⟩
  | mediaRequest kind failure =>
    -- the only measurement that writes to two series
    rcases List.mem_cons.1 hs with hs | hs
    · cases hs
      exact ⟨_, _, rfl, by decide +kernel, fun h => absurd h (by decide +kernel),
        fun h => absurd h (by decide +kernel)⟩
    · cases List.mem_singleton.1 hs
      exact ⟨_, _, rfl, by decide +kernel, fun h => absurd h (by decide +kernel),
        fun h => absurd h (by decide +kernel)⟩
  | exchangeFinished | duplicateMessage | turnOkRequired | turnResponseMissing
  | meetingsActive _ =>
    cases List.mem_singleton.1 hs
    exact ⟨_, [], rfl, by decide +kernel, fun h => absurd h (by decide +kernel),
      fun h => absurd h (by decide +kernel)⟩
  | _ =>
    cases List.mem_singleton.1 hs
    exact ⟨_, _, rfl, by decide +kernel, fun h => absurd h (by decide +kernel),
      fun h => absurd h (by decide +kernel)⟩

/-- Only a change to which `action` happened writes to its series. -/
theorem ne_deltaSeries_of_mem {m : Metric} {action : DeltaAction} {key : String}
    {update : Update} (hm : m ≠ .delta action) (hs : (key, update) ∈ m.samples) :
    key ≠ deltaSeries action := by
  obtain ⟨name, labels, hkey, hbrace, hdelta, -⟩ := exists_seriesKey hs
  by_cases hname : name = "signaling_locus_deltas_total"
  · obtain ⟨other, rfl⟩ := hdelta hname
    cases List.mem_singleton.1 hs
    intro h
    exact hm (congrArg Metric.delta (deltaSeries_injective h))
  · rw [hkey]
    exact seriesKey_ne labels _ hbrace (by decide +kernel) hname

/-- Only a violation writes to its series. -/
theorem ne_violationSeries_of_mem {m : Metric} {key : String} {update : Update}
    (hm : m ≠ .protocolViolation) (hs : (key, update) ∈ m.samples) : key ≠ violationSeries := by
  obtain ⟨name, labels, rfl, hbrace, -, hviolation⟩ := exists_seriesKey hs
  have hname : name ≠ violationSeries := fun h => hm (hviolation h)
  exact seriesKey_ne labels [] hbrace (by decide +kernel) hname

/-- **The counters of the changes**: the series of an action shows how often it was measured. -/
theorem counter_delta (action : DeltaAction) (metrics : List Metric) :
    counter (deltaSeries action) metrics = metrics.count (.delta action) :=
  counter_eq_count (m := .delta action) rfl (fun _ hm _ hs => ne_deltaSeries_of_mem hm hs) metrics

/-- The counter of the violations shows how often one was measured. -/
theorem counter_violation (metrics : List Metric) :
    counter violationSeries metrics = metrics.count .protocolViolation :=
  counter_eq_count rfl (fun _ hm _ hs => ne_violationSeries_of_mem hm hs) metrics

end CallSignaling.Metric
