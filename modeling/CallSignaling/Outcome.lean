import CallSignaling.Metric

/-!
# Outcomes of steps

* `Outcome`: the state after a step, the effects that the step asks for, and the measurements it
  makes, both in order.
* `Outcome.andThen`: a further step from the state reached.
* `Outcome.runAll`: steps in turn, one for each of a list of inputs.
-/

namespace CallSignaling

/-- What a step leads to. -/
@[ext]
structure Outcome (σ ε : Type) where
  state : σ
  effects : List ε := []
  metrics : List Metric := []
  deriving Inhabited

namespace Outcome

variable {σ ε ι : Type}

/-- A step that changes nothing and asks for nothing. -/
def stay (s : σ) : Outcome σ ε := { state := s }

/-- The outcome with a further step from its state. -/
def andThen (o : Outcome σ ε) (f : σ → Outcome σ ε) : Outcome σ ε :=
  let next := f o.state
  { state := next.state
    effects := o.effects ++ next.effects
    metrics := o.metrics ++ next.metrics }

@[simp] theorem stay_state (s : σ) : (stay s : Outcome σ ε).state = s := rfl

@[simp] theorem stay_effects (s : σ) : (stay s : Outcome σ ε).effects = [] := rfl

@[simp] theorem stay_metrics (s : σ) : (stay s : Outcome σ ε).metrics = [] := rfl

@[simp] theorem andThen_state (o : Outcome σ ε) (f : σ → Outcome σ ε) :
    (o.andThen f).state = (f o.state).state := rfl

@[simp] theorem andThen_effects (o : Outcome σ ε) (f : σ → Outcome σ ε) :
    (o.andThen f).effects = o.effects ++ (f o.state).effects := rfl

@[simp] theorem andThen_metrics (o : Outcome σ ε) (f : σ → Outcome σ ε) :
    (o.andThen f).metrics = o.metrics ++ (f o.state).metrics := rfl

theorem andThen_assoc (o : Outcome σ ε) (f g : σ → Outcome σ ε) :
    (o.andThen f).andThen g = o.andThen fun s => (f s).andThen g := by
  simp [andThen, List.append_assoc]

@[simp] theorem stay_andThen (s : σ) (f : σ → Outcome σ ε) : (stay s).andThen f = f s := by
  simp [andThen, stay]

@[simp] theorem andThen_stay (o : Outcome σ ε) : o.andThen stay = o := by
  simp [andThen, stay]

/-! ### Runs -/

/-- Steps in turn, one for each input. -/
def runAll (step : ι → σ → Outcome σ ε) : List ι → σ → Outcome σ ε
  | [], s => stay s
  | i :: inputs, s => (step i s).andThen (runAll step inputs)

/-- A fold of further steps is a run from the state reached. -/
theorem foldl_andThen (step : ι → σ → Outcome σ ε) (inputs : List ι) (o : Outcome σ ε) :
    inputs.foldl (fun o i => o.andThen (step i)) o = o.andThen (runAll step inputs) := by
  induction inputs generalizing o with
  | nil => exact (andThen_stay o).symm
  | cons i inputs ih =>
    rw [List.foldl_cons, ih, andThen_assoc]
    rfl

theorem runAll_append (step : ι → σ → Outcome σ ε) (xs ys : List ι) (s : σ) :
    runAll step (xs ++ ys) s = (runAll step xs s).andThen (runAll step ys) := by
  induction xs generalizing s with
  | nil => exact (stay_andThen s _).symm
  | cons i xs ih =>
    rw [List.cons_append, runAll, runAll, andThen_assoc]
    exact congrArg (andThen _) (funext ih)

/-- What every step keeps holds after every run. -/
theorem runAll_induction {P : σ → Prop} {step : ι → σ → Outcome σ ε}
    (hstep : ∀ i s, P s → P (step i s).state) (inputs : List ι) {s : σ} (h : P s) :
    P (runAll step inputs s).state := by
  induction inputs generalizing s with
  | nil => exact h
  | cons i inputs ih => exact ih (hstep i s h)

/-- What holds of the effects of every step holds of those of a run. -/
theorem of_mem_runAll_effects {Q : ε → Prop} {step : ι → σ → Outcome σ ε}
    (hstep : ∀ i s e, e ∈ (step i s).effects → Q e) {inputs : List ι} {s : σ} {e : ε}
    (h : e ∈ (runAll step inputs s).effects) : Q e := by
  induction inputs generalizing s with
  | nil => cases h
  | cons i inputs ih =>
    rcases List.mem_append.1 h with h | h
    · exact hstep i s e h
    · exact ih h

end Outcome

end CallSignaling
