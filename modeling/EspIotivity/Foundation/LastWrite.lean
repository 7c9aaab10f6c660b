import EspIotivity.Foundation.Machine

/-!
# Last write wins

A component that some steps of a run overwrite and the others leave alone holds,
after the run, what the last overwriting step put there.
-/

namespace EspIotivity.Foundation

universe u v w

variable {Label : Type u} {Value : Type v} {State : Type w}

/-- The value put by the last label that puts one. -/
def lastWrite (puts : Label → Option Value) (labels : List Label) :
    Option Value :=
  (labels.filterMap puts).getLast?

theorem lastWrite_concat (puts : Label → Option Value) (labels : List Label)
    (a : Label) :
    lastWrite puts (labels ++ [a]) = (puts a).or (lastWrite puts labels) := by
  unfold lastWrite
  cases hput : puts a <;> simp [hput]

theorem lastWrite_cons (puts : Label → Option Value) (a : Label)
    (labels : List Label) (old : Value) :
    (lastWrite puts (a :: labels)).getD old =
      (lastWrite puts labels).getD ((puts a).getD old) := by
  unfold lastWrite
  cases hput : puts a with
  | none => simp [hput]
  | some value => simp [hput, List.getLast?_cons]

theorem foldl_lastWrite {puts : Label → Option Value}
    {step : State → Label → State} {get : State → Value}
    (hstep : ∀ s a, get (step s a) = (puts a).getD (get s))
    (labels : List Label) (s : State) :
    get (labels.foldl step s) = (lastWrite puts labels).getD (get s) := by
  induction labels generalizing s with
  | nil => rfl
  | cons a labels ih => rw [List.foldl_cons, ih, hstep, lastWrite_cons]

end EspIotivity.Foundation
