import CallSignaling.Proofs.Meeting.Activity
import Mathlib.Data.UInt
import Mathlib.Tactic.Common

/-!
# The numbers of local offers

A local offer gets the number after the highest one acknowledged, and no other is accepted while it
is under way.  The number is free again as soon as the meeting forgets that the offer is under way,
and that it does when the call is left, or when another offer with the same number could not be
sent.

* `Meeting.Input.Acknowledges`: the inputs that acknowledge a number or a higher one.
* `Meeting.Activity.Sends`: the request at a place made the meeting send a message.
* `Meeting.Activity.OfferSent`: the caller of a local offer was told that it was sent.
* `Meeting.Activity.Exhausted`: the highest number that there is was acknowledged.

Main statements: of two local offers that were sent the later one has no smaller number, and a larger
one exactly if the first one's number or a higher one was acknowledged between the two requests; if
not, the first one was let go (`offers_sent_in_order`).  There is no number after the
highest one acknowledged exactly if the numbers are exhausted, and then the meeting crashes over the
next offer (`offers_numbered_until_exhausted`).
-/

namespace CallSignaling.Meeting

open Roap (Message)

/-! ### The numbers over inputs -/

section Counter

variable {κ : Type}

/-- Whether an input acknowledges a message numbered `n` or higher. -/
def Input.Acknowledges (n : UInt64) : Input κ → Prop
  | .sent message (.ok _) _ => n ≤ message.seq
  | _ => False

theorem le_max_iff {n a b : UInt64} : n ≤ max a b ↔ n ≤ a ∨ n ≤ b := by
  have hmax : max a b = if a ≤ b then b else a := rfl
  rw [hmax]
  split <;> simp only [UInt64.le_iff_toNat_le] at * <;> omega

/-- The highest number that there is. -/
def lastNumber : UInt64 := 18446744073709551615

theorem lastNumber_le_iff {n : UInt64} : lastNumber ≤ n ↔ ¬ n.toNat + 1 < UInt64.size := by
  have hlast : lastNumber.toNat + 1 = UInt64.size := rfl
  rw [UInt64.le_iff_toNat_le]
  omega

theorem toNat_add_one {n : UInt64} (h : n.toNat + 1 < UInt64.size) :
    (n + 1).toNat = n.toNat + 1 := by
  rw [UInt64.toNat_add]
  exact Nat.mod_eq_of_lt h

namespace Counter

theorem le_lastSeq_after_iff {n : UInt64} {input : Input κ} {c : Counter} :
    n ≤ (c.after input).lastSeq ↔ n ≤ c.lastSeq ∨ input.Acknowledges n := by
  cases input with
  | sent message result caller =>
    cases result with
    | ok response => exact le_max_iff
    | error e => simp [after, Input.Acknowledges]
  | submit action caller => cases action <;> simp [after, Input.Acknowledges]
  | _ => simp [after, Input.Acknowledges]

theorem le_lastSeq_afterAll_iff {n : UInt64} {inputs : List (Input κ)} {c : Counter} :
    n ≤ (c.afterAll inputs).lastSeq ↔
      n ≤ c.lastSeq ∨ ∃ input ∈ inputs, input.Acknowledges n := by
  induction inputs generalizing c with
  | nil => simp [afterAll]
  | cons input inputs ih =>
    have hih : n ≤ (c.afterAll (input :: inputs)).lastSeq ↔ _ := ih (c := c.after input)
    rw [hih, le_lastSeq_after_iff, or_assoc]
    simp

/-- The guard of an offer is taken away when the call is left and when an offer with its number was
sent or could not be sent. -/
theorem offerInFlight_after {n : UInt64} {c : Counter} (input : Input κ)
    (h : c.offerInFlight = some n) :
    (c.after input).offerInFlight = some n ∨ (∃ caller, input = .submit .callLeave caller) ∨
      ∃ message result caller, input = .sent message result caller ∧ message.kind = .offer ∧
        message.seq = n := by
  cases input with
  | sent message result caller =>
    by_cases hfrees : message.kind = .offer ∧ message.seq = n
    · exact .inr (.inr ⟨message, result, caller, rfl, hfrees.1, hfrees.2⟩)
    · refine .inl ?_
      have hkeeps : ¬ (message.kind = .offer && c.offerInFlight = some message.seq) = true := by
        rw [h, Bool.and_eq_true, decide_eq_true_eq, decide_eq_true_eq, Option.some.injEq]
        exact fun hboth => hfrees ⟨hboth.1, hboth.2.symm⟩
      exact (if_neg hkeeps).trans h
  | submit action caller =>
    cases action with
    | callLeave => exact .inr (.inl ⟨caller, rfl⟩)
    | _ => exact .inl h
  | sendOffer sdps tieBreaker caller => exact .inl (by simp [after, h])
  | _ => exact .inl h

theorem offerInFlight_afterAll {n : UInt64} {inputs : List (Input κ)} {c : Counter}
    (h : c.offerInFlight = some n) (hfree : (c.afterAll inputs).offerInFlight = none) :
    (∃ caller, .submit .callLeave caller ∈ inputs) ∨
      ∃ message result caller, .sent message result caller ∈ inputs ∧ message.kind = .offer ∧
        message.seq = n := by
  induction inputs generalizing c with
  | nil =>
    rw [show c.afterAll [] = c from rfl, h] at hfree
    cases hfree
  | cons input inputs ih =>
    rcases offerInFlight_after input h with hkept | ⟨caller, rfl⟩ |
      ⟨message, result, caller, rfl, hkind, hseq⟩
    · rcases ih hkept hfree with ⟨caller, hmem⟩ | ⟨message, result, caller, hmem, hmessage⟩
      · exact .inl ⟨caller, .tail _ hmem⟩
      · exact .inr ⟨message, result, caller, .tail _ hmem, hmessage⟩
    · exact .inl ⟨caller, .head _⟩
    · exact .inr ⟨message, result, caller, .head _, hkind, hseq⟩

/-- Of an offer accepted and the next one that is accepted after some inputs. -/
theorem next_offer {first second : Counter} {between : List (Input κ)} {s t : UInt64}
    (hs : s = first.lastSeq + 1) (ht : t = second.lastSeq + 1)
    (hjoin : second = afterAll between { first with offerInFlight := some s })
    (hfree : second.offerInFlight = none) (hbound : second.lastSeq.toNat + 1 < UInt64.size) :
    s ≤ t ∧ (s < t ↔ ∃ input ∈ between, input.Acknowledges s) ∧
      (s = t → (∃ caller, .submit .callLeave caller ∈ between) ∨
        ∃ message e caller, .sent message (.error e) caller ∈ between ∧ message.kind = .offer ∧
          message.seq = s) := by
  have hreach : ∀ n, n ≤ second.lastSeq ↔
      n ≤ first.lastSeq ∨ ∃ input ∈ between, input.Acknowledges n := by
    intro n
    rw [hjoin]
    exact le_lastSeq_afterAll_iff
  have hle : first.lastSeq ≤ second.lastSeq := (hreach _).2 (.inl (UInt64.le_refl _))
  rw [UInt64.le_iff_toNat_le] at hle
  have hsNat : s.toNat = first.lastSeq.toNat + 1 := by rw [hs, toNat_add_one (by omega)]
  have htNat : t.toNat = second.lastSeq.toNat + 1 := by rw [ht, toNat_add_one hbound]
  have hlt : s < t ↔ ∃ input ∈ between, input.Acknowledges s := by
    have hbeyond : ¬ s ≤ first.lastSeq := by
      rw [UInt64.le_iff_toNat_le]
      omega
    have hbetween := hreach s
    rw [or_iff_right hbeyond] at hbetween
    rw [← hbetween, UInt64.lt_iff_toNat_lt, UInt64.le_iff_toNat_le]
    omega
  refine ⟨by rw [UInt64.le_iff_toNat_le]; omega, hlt, fun heq => ?_⟩
  -- the guard of the first offer was taken away, but not by an acknowledgement
  have hnone : ¬ ∃ input ∈ between, input.Acknowledges s := by
    rw [← hlt, heq]
    exact UInt64.lt_irrefl t
  rw [hjoin] at hfree
  rcases offerInFlight_afterAll rfl hfree with hleave |
    ⟨message, result, caller, hmem, hkind, rfl⟩
  · exact .inl hleave
  · cases result with
    | ok response => exact absurd ⟨_, hmem, UInt64.le_refl _⟩ hnone
    | error e => exact .inr ⟨message, e, caller, hmem, hkind, rfl⟩

/-- The message that a request makes a meeting with these numbers send. -/
def message? (c : Counter) : Input κ → Option Message
  | .sendOffer sdps tieBreaker _ => c.offerNumber?.map fun seq => .offer seq sdps tieBreaker
  | .sendRoap message _ => some message
  | _ => none

theorem message?_of_sends? {m : Meeting} {input : Input κ} {message : Message} {caller : κ}
    (h : m.sends? input = some (message, some caller)) :
    input.caller? = some caller ∧ m.counter.message? input = some message := by
  cases input with
  | sendOffer sdps tieBreaker caller' =>
    obtain ⟨seq, hnumber, heq⟩ := Option.map_eq_some_iff.1 h
    cases heq
    exact ⟨rfl, by rw [message?, hnumber, Option.map_some]⟩
  | sendRoap message' caller' =>
    cases h
    exact ⟨rfl, rfl⟩
  | answerBuilt seq result =>
    cases result with
    | error e => cases h
    | ok sdps => simp [sends?] at h
  | answerApplied seq result =>
    cases result with
    | error e => cases h
    | ok done => simp [sends?] at h
  | _ => cases h

end Counter

end Counter

namespace Activity

/-! ### Where inputs come from -/

/-- Whether work is a message whose caller is `k`. -/
def sendsFor (k : Nat) : Effect Nat → Bool
  | .send _ caller => caller = some k
  | _ => false

/-- Whether an input is a report on a message whose caller is `k`. -/
def reportsFor (k : Nat) : Input Nat → Bool
  | .sent _ _ caller => caller = some k
  | _ => false

section Source

variable {a : Activity} {input : Input Nat} {tasks : List (Effect Nat)}

theorem Source.send_mem {message : Message} {result : Except TransportError Media.Response}
    {caller : Option Nat} (h : Source a (.sent message result caller) tasks) :
    .send message caller ∈ a.tasks := by
  generalize hinput : Input.sent message result caller = input at h
  cases h with
  | request request => cases request <;> cases hinput
  | timer => cases hinput
  | stop => cases hinput
  | report htask hreport =>
    rename_i task report
    subst hinput
    cases task <;> cases report <;> cases hreport
    exact List.mem_of_getElem? htask

/-- The caller of a request is known by its place. -/
theorem Source.caller_eq {c : Counter} {message : Message} {k : Nat} (h : Source a input tasks)
    (hmessage : c.message? input = some message) (hcaller : input.caller? = some k) :
    k = a.past.length := by
  cases h with
  | request request => cases request <;> cases hcaller <;> rfl
  | timer => cases hmessage
  | stop => cases hmessage
  | report htask hreport =>
    rename_i task report
    cases task <;> cases report <;> cases hreport <;> cases hmessage

/-- A message that is reported on is no longer under way. -/
theorem Source.count_le (h : Source a input tasks) (k : Nat) :
    tasks.countP (sendsFor k) + (reportsFor k input).toNat ≤ a.tasks.countP (sendsFor k) := by
  cases h with
  | request request => cases request <;> exact le_rfl
  | timer => exact le_rfl
  | stop => exact le_rfl
  | report htask hreport =>
    rename_i i task report
    have hsame : reportsFor k input = sendsFor k task := by
      cases task <;> cases report <;> cases hreport <;> rfl
    obtain ⟨hi, rfl⟩ := List.getElem?_eq_some_iff.1 htask
    rw [← (List.getElem_cons_eraseIdx_perm hi).countP_eq, List.countP_cons, hsame]
    cases sendsFor k a.tasks[i] <;> simp

end Source

/-! ### What was sent for whom -/

/-- The request at the place `k` made the meeting send a message. -/
def Sends (past : List (Input Nat)) (k : Nat) (message : Message) : Prop :=
  ∃ input, past[k]? = some input ∧ input.caller? = some k ∧
    (Counter.ofInputs (past.take k)).message? input = some message

theorem Sends.append {past : List (Input Nat)} {k : Nat} {message : Message}
    (h : Sends past k message) (later : List (Input Nat)) : Sends (past ++ later) k message := by
  obtain ⟨input, hinput, hcaller, hmessage⟩ := h
  obtain ⟨hk, -⟩ := List.getElem?_eq_some_iff.1 hinput
  refine ⟨input, ?_, hcaller, ?_⟩
  · rw [List.getElem?_append_left hk, hinput]
  · rw [List.take_append_of_le_length hk.le]
    exact hmessage

/-- Every message under way or reported on was sent for its caller, once, and callers are told what
was reported. -/
structure Traced (a : Activity) : Prop where
  tasks : ∀ message k, .send message (some k) ∈ a.tasks → Sends a.past k message
  reports : ∀ message result k, .sent message result (some k) ∈ a.past → Sends a.past k message
  replies : ∀ k seq, .reply k (.sent seq) ∈ a.effects →
    ∃ message response, .sent message (.ok response) (some k) ∈ a.past ∧ message.seq = seq
  once : ∀ k, a.tasks.countP (sendsFor k) + a.past.countP (reportsFor k) ≤ 1
  none_yet : ∀ k, a.past.length ≤ k →
    a.tasks.countP (sendsFor k) + a.past.countP (reportsFor k) = 0

theorem traced_start (name : String) (limits : Locus.Limits) (ownsMedia : Bool) :
    (start name limits ownsMedia).Traced where
  tasks _ _ h := by cases h
  reports _ _ _ h := by cases h
  replies _ _ h := by cases h
  once k := Nat.zero_le 1
  none_yet k _ := rfl

section Handle

variable {a : Activity} {input : Input Nat} {tasks : List (Effect Nat)}

theorem sends_handle (hcounter : a.meeting.counter = .ofInputs a.past)
    (hsource : Source a input tasks) {message : Message} {k : Nat}
    (h : a.meeting.sends? input = some (message, some k)) :
    k = a.past.length ∧ Sends (a.past ++ [input]) k message := by
  obtain ⟨hcaller, hmessage⟩ := Counter.message?_of_sends? h
  obtain rfl := hsource.caller_eq hmessage hcaller
  refine ⟨rfl, input, List.getElem?_concat_length, hcaller, ?_⟩
  rw [List.take_left, ← hcounter]
  exact hmessage

/-- At most one message is sent for a caller, and only when its request comes in. -/
theorem count_sent_le (hcounter : a.meeting.counter = .ofInputs a.past)
    (hsource : Source a input tasks) (now draw k : Nat) :
    ((a.meeting.step now draw input).effects.filter Effect.isWork).countP (sendsFor k) ≤
      if k = a.past.length then 1 else 0 := by
  have hfilter : ∀ e : Effect Nat, (sendsFor k e && e.isWork) = (sendsFor k e && e.isSend) := by
    intro e
    cases e <;> simp [sendsFor, Effect.isWork, Effect.isSend]
  rw [List.countP_filter]
  simp only [hfilter]
  rw [← List.countP_filter, filter_isSend_step]
  cases hsends : a.meeting.sends? input with
  | none => simp
  | some sends =>
    obtain ⟨message, caller⟩ := sends
    by_cases hcaller : caller = some k
    · subst hcaller
      rw [if_pos (sends_handle hcounter hsource hsends).1]
      exact List.countP_le_length
    · simp [sendsFor, hcaller]

/-- What is under way for a caller or reported grows only when its request comes in. -/
theorem count_handled_le (hcounter : a.meeting.counter = .ofInputs a.past)
    (hsource : Source a input tasks) (now draw k : Nat) :
    (handle now draw input { a with tasks := tasks }).tasks.countP (sendsFor k) +
        (handle now draw input { a with tasks := tasks }).past.countP (reportsFor k) ≤
      a.tasks.countP (sendsFor k) + a.past.countP (reportsFor k) +
        if k = a.past.length then 1 else 0 := by
  have hsent := count_sent_le hcounter hsource now draw k
  have hreported := hsource.count_le k
  have hinput : [input].countP (reportsFor k) = (reportsFor k input).toNat := by
    rw [List.countP_singleton]
    cases reportsFor k input <;> rfl
  simp only [handle, List.countP_append, hinput]
  omega

theorem traced_handle (h : a.Traced) (hcounter : a.meeting.counter = .ofInputs a.past)
    (hsource : Source a input tasks) (now draw : Nat) :
    Traced (handle now draw input { a with tasks := tasks }) where
  tasks message k hmem := by
    rcases List.mem_append.1 hmem with hold | hnew
    · exact (h.tasks message k (hsource.sublist.subset hold)).append [input]
    · exact (sends_handle hcounter hsource (send_mem_step_iff.1 (List.mem_filter.1 hnew).1)).2
  reports message result k hmem := by
    rcases List.mem_append.1 hmem with hold | hnew
    · exact (h.reports message result k hold).append [input]
    · rw [← List.mem_singleton.1 hnew] at hsource
      exact (h.tasks message k hsource.send_mem).append [input]
  replies k seq hmem := by
    rcases List.mem_append.1 hmem with hold | hnew
    · obtain ⟨message, response, hreport, hseq⟩ := h.replies k seq hold
      exact ⟨message, response, List.mem_append_left _ hreport, hseq⟩
    · obtain ⟨message, response, rfl, hseq⟩ := of_reply_sent_mem_step hnew
      exact ⟨message, response, List.mem_concat_self, hseq⟩
  once k := by
    have hcount := count_handled_le hcounter hsource now draw k
    split at hcount
    · rename_i hk
      have hnone := h.none_yet k hk.ge
      omega
    · have honce := h.once k
      omega
  none_yet k hk := by
    have hlength : (handle now draw input { a with tasks := tasks }).past.length =
        a.past.length + 1 := List.length_append
    have hcount := count_handled_le hcounter hsource now draw k
    have hnone := h.none_yet k (by omega)
    rw [if_neg (by omega)] at hcount
    omega

end Handle

theorem Traced.of_sublist {a : Activity} {tasks : List (Effect Nat)} (h : a.Traced)
    (hless : tasks.Sublist a.tasks) (hasEnded : Bool) :
    Traced { a with tasks := tasks, hasEnded := hasEnded } where
  tasks message k hmem := h.tasks message k (hless.subset hmem)
  reports := h.reports
  replies := h.replies
  once k := (Nat.add_le_add_right hless.countP_le _).trans (h.once k)
  none_yet k hk := by
    have hcount := hless.countP_le (p := sendsFor k)
    have hnone := h.none_yet k hk
    exact Nat.le_zero.1 ((Nat.add_le_add_right hcount _).trans hnone.le)

theorem traced_run (name : String) (limits : Locus.Limits) (ownsMedia : Bool)
    (occurrences : List Occurrence) : ((start name limits ownsMedia).run occurrences).Traced := by
  have hboth := run_induction (P := fun a => Faithful name ownsMedia a ∧ Traced a)
    (fun now draw input tasks a hsource h =>
      ⟨(h.1.with_tasks tasks a.hasEnded).handle now draw input,
        traced_handle h.2 h.1.counter hsource now draw⟩)
    (fun tasks hasEnded _ hless h =>
      ⟨h.1.with_tasks tasks hasEnded, h.2.of_sublist hless hasEnded⟩)
    occurrences ⟨faithful_start name limits ownsMedia, traced_start name limits ownsMedia⟩
  exact hboth.2

/-! ### Local offers that were sent -/

/-- The request at the place `k` is a local offer, and its caller was told that it was sent as
`seq`. -/
def OfferSent (a : Activity) (k : Nat) (seq : UInt64) : Prop :=
  (∃ sdps tieBreaker, a.past[k]? = some (.sendOffer sdps tieBreaker k)) ∧
    .reply k (.sent seq) ∈ a.effects

/-- A local offer that was sent was accepted when none was under way, with the number after the
highest one acknowledged then, and it was acknowledged itself. -/
theorem OfferSent.accepted {a : Activity} {k : Nat} {seq : UInt64} (h : a.OfferSent k seq)
    (htraced : a.Traced) :
    (Counter.ofInputs (a.past.take k)).offerNumber? = some seq ∧
      ∃ message response, .sent message (.ok response) (some k) ∈ a.past := by
  obtain ⟨⟨sdps, tieBreaker, hrequest⟩, hreply⟩ := h
  obtain ⟨message, response, hreport, rfl⟩ := htraced.replies k seq hreply
  obtain ⟨input, hinput, -, hmessage⟩ := htraced.reports message _ k hreport
  rw [hrequest, Option.some.injEq] at hinput
  subst hinput
  obtain ⟨seq, hnumber, rfl⟩ := Option.map_eq_some_iff.1 hmessage
  exact ⟨hnumber, _, response, hreport⟩

theorem eq_of_countP_le_one {α : Type} {p : α → Bool} {l : List α} (h : l.countP p ≤ 1) {x y : α}
    (hx : x ∈ l) (hy : y ∈ l) (hpx : p x = true) (hpy : p y = true) : x = y := by
  rw [List.countP_eq_length_filter] at h
  have hx' := List.mem_filter.2 ⟨hx, hpx⟩
  have hy' := List.mem_filter.2 ⟨hy, hpy⟩
  match hl : l.filter p with
  | [] => simp [hl] at hx'
  | [z] => simp_all
  | _ :: _ :: _ => simp [hl] at h

/-- What is between two requests leads from the numbers of the first to those of the second. -/
theorem ofInputs_take {past : List (Input Nat)} {i j : Nat} {input : Input Nat} (hij : i < j)
    (hi : past[i]? = some input) :
    Counter.ofInputs (past.take j) =
      ((Counter.ofInputs (past.take i)).after input).afterAll ((past.take j).drop (i + 1)) := by
  have hsplit : past.take j = past.take i ++ input :: (past.take j).drop (i + 1) := by
    have htake : (past.take j).take (i + 1) = past.take i ++ [input] := by
      rw [List.take_take, Nat.min_eq_left hij, List.take_add_one, hi]
      rfl
    conv_lhs => rw [← List.take_append_drop (i + 1) (past.take j), htake]
    rw [List.append_assoc, List.singleton_append]
  conv_lhs => rw [hsplit, Counter.ofInputs_append]
  rfl

theorem lastSeq_take_le (past : List (Input Nat)) (j : Nat) :
    (Counter.ofInputs (past.take j)).lastSeq ≤ (Counter.ofInputs past).lastSeq := by
  conv_rhs => rw [← List.take_append_drop j past, Counter.ofInputs_append]
  exact Counter.le_lastSeq_afterAll_iff.2 (.inl (UInt64.le_refl _))

/-- Of two local offers that were sent, the later one has no smaller number than the first, as long
as numbers do not run out.  It has a larger one exactly if the first one's number or a higher one
was acknowledged between the two requests; if they have the same number, between the requests the
call was left or another offer with that number could not be sent. -/
theorem offers_sent_in_order (name : String) (limits : Locus.Limits) (ownsMedia : Bool)
    (occurrences : List Occurrence) :
    let a := (start name limits ownsMedia).run occurrences
    a.meeting.lastSeq.toNat + 1 < UInt64.size →
      ∀ i j s t, i < j → a.OfferSent i s → a.OfferSent j t →
        let between := (a.past.take j).drop (i + 1)
        s ≤ t ∧ (s < t ↔ ∃ input ∈ between, input.Acknowledges s) ∧
          (s = t → (∃ caller, .submit .callLeave caller ∈ between) ∨
            ∃ message e caller, .sent message (.error e) caller ∈ between ∧
              message.kind = .offer ∧ message.seq = s ∧ caller ≠ some i) := by
  intro a hlast i j s t hij hfirst hsecond between
  have htraced : a.Traced := traced_run name limits ownsMedia occurrences
  have hcounter : a.meeting.counter = .ofInputs a.past :=
    (faithful_run (faithful_start name limits ownsMedia) occurrences).counter
  obtain ⟨hnumber, own, response, hown⟩ := hfirst.accepted htraced
  obtain ⟨-, -, hs⟩ := Counter.offerNumber?_eq_some_iff.1 hnumber
  obtain ⟨hfree, -, ht⟩ := Counter.offerNumber?_eq_some_iff.1 (hsecond.accepted htraced).1
  obtain ⟨sdps, tieBreaker, hrequest⟩ := hfirst.1
  have hjoin := ofInputs_take hij hrequest
  rw [Counter.after_sendOffer hnumber] at hjoin
  have hbound : (Counter.ofInputs (a.past.take j)).lastSeq ≤ a.meeting.counter.lastSeq :=
    hcounter ▸ lastSeq_take_le a.past j
  have hbound' : (Counter.ofInputs (a.past.take j)).lastSeq.toNat ≤ a.meeting.lastSeq.toNat :=
    UInt64.le_iff_toNat_le.1 hbound
  obtain ⟨hle, hlt, hsame⟩ := Counter.next_offer hs ht hjoin hfree (by omega)
  refine ⟨hle, hlt, fun heq => (hsame heq).imp_right ?_⟩
  rintro ⟨message, e, caller, hmem, hkind, hseq⟩
  refine ⟨message, e, caller, hmem, hkind, hseq, ?_⟩
  -- the first offer itself was acknowledged, and it was reported on once
  rintro rfl
  have hpast := List.mem_of_mem_take (List.mem_of_mem_drop hmem)
  have hreports : a.past.countP (reportsFor i) ≤ 1 := Nat.le_of_add_left_le (htraced.once i)
  cases eq_of_countP_le_one hreports hpast hown (decide_eq_true rfl) (decide_eq_true rfl)

/-- A second local offer is asked for when the first has been sent. -/
def offersInTurn : List Occurrence :=
  [{ event := .call (.sendOffer ["first"] 1) }, { event := .report 0 (.sent (.ok default)) },
    { event := .call (.sendOffer ["second"] 2) }, { event := .report 0 (.sent (.ok default)) }]

theorem offers_sent_in_order_inTurn :
    let a := (start "m" ⟨5, 2000, 1000⟩ true).run offersInTurn
    a.meeting.lastSeq.toNat + 1 < UInt64.size ∧ a.OfferSent 0 1 ∧ a.OfferSent 2 2 ∧
      ((1 : UInt64) < 2 ↔ ∃ input ∈ (a.past.take 2).drop 1, input.Acknowledges 1) := by
  intro a
  have hlast : a.meeting.lastSeq.toNat + 1 < UInt64.size := by decide
  have hfirst : a.OfferSent 0 1 := ⟨⟨_, _, rfl⟩, List.mem_of_getElem? (i := 1) rfl⟩
  have hsecond : a.OfferSent 2 2 := ⟨⟨_, _, rfl⟩, List.mem_of_getElem? (i := 3) rfl⟩
  exact ⟨hlast, hfirst, hsecond,
    (offers_sent_in_order "m" ⟨5, 2000, 1000⟩ true offersInTurn hlast 0 2 1 2 (by decide) hfirst
      hsecond).2.1⟩

/-- The call is left while a local offer is under way, and a second one is asked for. -/
def offersAcrossLeave : List Occurrence :=
  [{ event := .call (.sendOffer ["first"] 1) }, { event := .call (.submit .callLeave) },
    { event := .call (.sendOffer ["second"] 2) }, { event := .report 0 (.sent (.ok default)) },
    { event := .report 0 (.sent (.ok default)) }]

/-- Both offers are sent with the same number. -/
theorem offersAcrossLeave_same_number :
    let a := (start "m" ⟨5, 2000, 1000⟩ true).run offersAcrossLeave
    a.OfferSent 0 1 ∧ a.OfferSent 2 1 ∧ a.meeting.lastSeq = 1 := by
  refine ⟨⟨⟨_, _, rfl⟩, ?_⟩, ⟨⟨_, _, rfl⟩, ?_⟩, rfl⟩
  · exact List.mem_of_getElem? (i := 3) rfl
  · exact List.mem_of_getElem? (i := 4) rfl

/-! ### Numbers that run out -/

/-- Whether a message with the highest number that there is was acknowledged. -/
def Exhausted (a : Activity) : Prop := ∃ input ∈ a.past, input.Acknowledges lastNumber

theorem Faithful.exhausted_iff {name : String} {ownsMedia : Bool} {a : Activity}
    (h : Faithful name ownsMedia a) : a.Exhausted ↔ lastNumber ≤ a.meeting.lastSeq := by
  have hreach : lastNumber ≤ (Counter.ofInputs a.past).lastSeq ↔
      lastNumber ≤ (0 : UInt64) ∨ ∃ input ∈ a.past, input.Acknowledges lastNumber :=
    Counter.le_lastSeq_afterAll_iff
  have hzero : ¬ lastNumber ≤ (0 : UInt64) := by decide
  rw [← h.counter, or_iff_right hzero] at hreach
  exact hreach.symm

/-- A meeting stops when it is told to and when it is to send a local offer for which there is no
number. -/
theorem hasEnded_step_iff {a : Activity} (hgoing : a.hasEnded = false) (o : Occurrence) :
    (a.step o).hasEnded = true ↔ o.event = .cancel ∨
      (∃ sdps tieBreaker, o.event = .call (.sendOffer sdps tieBreaker)) ∧
        a.meeting.offerInFlight = none ∧ nextNumber? a.meeting.lastSeq = none := by
  have htake : ∀ (input : Input Nat) (tasks : List (Effect Nat)),
      (take o.now o.draw input { a with tasks := tasks }).hasEnded = true ↔
        (∃ sdps tieBreaker caller, input = .sendOffer sdps tieBreaker caller) ∧
          a.meeting.offerInFlight = none ∧ nextNumber? a.meeting.lastSeq = none := by
    intro input tasks
    have hcrash : (a.meeting.step o.now o.draw input).effects.any Effect.isCrash = true ↔ _ :=
      any_isCrash_step_iff
    rw [take, ← hcrash]
    split
    · exact iff_of_true rfl ‹_›
    · exact iff_of_false (Bool.eq_false_iff.1 hgoing) ‹_›
  have hnot : ¬ a.hasEnded = true := Bool.eq_false_iff.1 hgoing
  rw [step, if_neg hnot]
  cases hevent : o.event with
  | call request =>
    refine (htake _ _).trans ?_
    cases request <;> simp [Request.input]
  | stallTimeout =>
    dsimp only
    split
    · refine (htake _ _).trans ?_
      simp
    · simp [hgoing]
  | report i report =>
    dsimp only
    split
    · rename_i input hreport
      obtain ⟨task, -, hinput⟩ := Option.bind_eq_some_iff.1 hreport
      refine (htake _ _).trans ?_
      cases task <;> cases report <;> cases hinput <;> simp
    · simp [hgoing]
  | crash i => simp [hgoing]
  | cancel => simp [stop]

/-- **In every run there is a number after the highest one acknowledged exactly as long as no
message with the highest number that there is was acknowledged.**  An offer that is accepted before
that is sent with this number, which is not the one of relay discovery.  With exhausted numbers the
meeting crashes over an offer that it would accept, and it stops for no other reason than this one
and that it is told to. -/
theorem offers_numbered_until_exhausted (name : String) (limits : Locus.Limits) (ownsMedia : Bool)
    (occurrences : List Occurrence) :
    let a := (start name limits ownsMedia).run occurrences
    (a.meeting.lastSeq.toNat + 1 < UInt64.size ↔ ¬ a.Exhausted) ∧
      (a.meeting.offerInFlight = none → ∀ now draw sdps tieBreaker caller,
        let o := a.meeting.step now draw (.sendOffer sdps tieBreaker caller : Input Nat)
        (¬ a.Exhausted → ∃ seq : UInt64, seq.toNat = a.meeting.lastSeq.toNat + 1 ∧
          seq ≠ Roap.turnSeq ∧
          o.effects.filter Effect.isSend = [.send (.offer seq sdps tieBreaker) (some caller)]) ∧
        (a.Exhausted → o.effects = [.crash caller])) ∧
      (a.hasEnded = false → ∀ o, (a.step o).hasEnded = true ↔ o.event = .cancel ∨
        (∃ sdps tieBreaker, o.event = .call (.sendOffer sdps tieBreaker)) ∧
          a.meeting.offerInFlight = none ∧ a.Exhausted) := by
  intro a
  have hfaithful := faithful_run (faithful_start name limits ownsMedia) occurrences
  have hexhausted : a.Exhausted ↔ lastNumber ≤ a.meeting.lastSeq := hfaithful.exhausted_iff
  have hnext : a.meeting.lastSeq.toNat + 1 < UInt64.size ↔ ¬ a.Exhausted := by
    rw [hexhausted, lastNumber_le_iff, not_not]
  have hnone : nextNumber? a.meeting.lastSeq = none ↔ a.Exhausted := by
    rw [nextNumber?_eq_none_iff, hnext, not_not]
  refine ⟨hnext, fun hfree now draw sdps tieBreaker caller => ⟨fun hleft => ?_, fun hout => ?_⟩, ?_⟩
  · have hnumber : a.meeting.counter.offerNumber? = some (a.meeting.lastSeq + 1) :=
      Counter.offerNumber?_eq_some_iff.2 ⟨hfree, hnext.2 hleft, rfl⟩
    have htoNat := toNat_add_one (hnext.2 hleft)
    refine ⟨a.meeting.lastSeq + 1, htoNat, fun hzero => ?_, ?_⟩
    · rw [hzero] at htoNat
      exact absurd htoNat.symm (Nat.succ_ne_zero _)
    · rw [filter_isSend_step, sends?, hnumber]
      rfl
  · have hstep : a.meeting.step now draw (.sendOffer sdps tieBreaker caller) =
        a.meeting.onSendOffer sdps tieBreaker caller := rfl
    rw [hstep, onSendOffer, hfree, hnone.2 hout]
    rfl
  · intro hgoing o
    rw [hasEnded_step_iff hgoing, hnone]

/-- The peer offers with the highest number that there is, and the answer is sent. -/
def highestAnswered : List Occurrence :=
  [{ event := .call (.submit (.receive (.offer lastNumber ["peer"] 5))) },
    { event := .report 0 (.built (.ok ["answer"])) },
    { event := .report 0 (.sent (.ok default)) }]

/-- The meeting crashes over the next local offer, which nothing is sent for. -/
theorem highestAnswered_crashes :
    let a := (start "m" ⟨5, 2000, 1000⟩ true).run highestAnswered
    let b := a.step { event := .call (.sendOffer ["own"] 9) }
    a.hasEnded = false ∧ a.meeting.offerInFlight = none ∧
      ¬ a.meeting.lastSeq.toNat + 1 < UInt64.size ∧
      b.effects = a.effects ++ [.crash a.past.length] ∧ b.hasEnded = true :=
  ⟨rfl, rfl, by decide, rfl, rfl⟩

end Activity

end CallSignaling.Meeting
