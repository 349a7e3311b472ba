/-
# EdgeFrame.Abort -- how a call can fail to return

The source leaves these cases to luck or ends the process in them; the model makes
each of them an error, so that a theorem about a returned value says what it
assumes and a theorem about returning says what it rules out.
-/
import Mathlib.Init

namespace EdgeFrame

/-- The ways a call can fail to return. -/
inductive Abort where
  /-- a loop has not ended within its fuel -/
  | outOfFuel
  /-- an `assert` failed -/
  | assertion
  /-- an index outside its vector -/
  | outOfRange
  /-- a remainder by 0 -/
  | divisionByZero
  /-- a crop that leaves the image: `cv::Mat::operator()` throws -/
  | roi
  /-- `HungarianAlgorithm::step4` walked into a row without a prime -/
  | noPrime
  /-- `HungarianAlgorithm::step5` found no uncovered element -/
  | noUncovered
  deriving DecidableEq, Repr

/-- The result of a loop that is given fuel. -/
def Abort.ofFuel {α : Type} : Option α → Except Abort α
  | none => .error .outOfFuel
  | some a => .ok a

/-- Two calls in a row return: the first one returned, and so did the second. -/
theorem Abort.bind_eq_ok {α β : Type} {x : Except Abort α} {f : α → Except Abort β} {b : β}
    (h : x >>= f = .ok b) : ∃ a, x = .ok a ∧ f a = .ok b := by
  cases x with
  | error e => cases h
  | ok a => exact ⟨a, rfl, h⟩

/-- What follows a call matters for what the call returns only. -/
theorem Abort.bind_congr {α β : Type} {x : Except Abort α} {f g : α → Except Abort β}
    (h : ∀ a, x = .ok a → f a = g a) : x >>= f = x >>= g := by
  cases x with
  | error e => rfl
  | ok a => exact h a rfl

/-- The call returns something with the property `p`. -/
def Abort.returns {α : Type} (x : Except Abort α) (p : α → Bool) : Bool :=
  match x with
  | .error _ => false
  | .ok a => p a

theorem Abort.of_returns {α : Type} {x : Except Abort α} {p : α → Bool}
    (h : Abort.returns x p = true) : ∃ a, x = .ok a ∧ p a = true := by
  cases x with
  | error e => cases h
  | ok a => exact ⟨a, rfl, h⟩

end EdgeFrame
