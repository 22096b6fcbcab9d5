/-!
# Gates

A gate holds back whoever comes until a permit is free.  Permits go to those who came first, and
those not needed at once are kept.

* `Scenario.Gate`: the free permits and those held back, the longest waiting first.
* `Scenario.Gate.enter`, `Scenario.Gate.leave`: one comes, and some turn away.
* `Scenario.Gate.release`: more permits.
-/

namespace CallSignaling.Scenario

/-- A gate before which `α`s wait. -/
structure Gate (α : Type) where
  /-- Whether the gate lets everybody pass. -/
  isOpen : Bool := true
  permits : Nat := 0
  waiting : List α := []
  deriving Inhabited

namespace Gate

variable {α : Type}

/-- One comes.  The result says whether it passes at once. -/
def enter (a : α) (g : Gate α) : Gate α × Bool :=
  if g.isOpen then (g, true)
  else
    match g.permits with
    | 0 => ({ g with waiting := g.waiting ++ [a] }, false)
    | n + 1 => ({ g with permits := n }, true)

/-- Adds permits.  The result holds those who pass now. -/
def release (n : Nat) (g : Gate α) : Gate α × List α :=
  ({ g with permits := g.permits + (n - g.waiting.length), waiting := g.waiting.drop n },
    g.waiting.take n)

/-- Those who satisfy `p` no longer wait. -/
def leave (p : α → Bool) (g : Gate α) : Gate α :=
  { g with waiting := g.waiting.filter (!p ·) }

end Gate

end CallSignaling.Scenario
