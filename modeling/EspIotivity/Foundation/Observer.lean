import EspIotivity.Foundation.Machine
import Mathlib.Data.List.ReduceOption
import Mathlib.Logic.Function.Iterate

/-!
# A machine under observation

A watcher looks at the state of a machine as often as it likes, between any two
of its steps, and keeps a view of its own.  It changes nothing of what it looks
at, so that the machine runs as if alone; and once the machine has come to rest
the view is the result of looking at one and the same state again and again.
-/

namespace EspIotivity.Foundation

universe u v w

namespace Machine

variable {State : Type u} {Label : Type v} {View : Type w}

/-- The steps of `M`, and `none` for a look of the watcher at its state. -/
def observed (M : Machine State Label) (first : View)
    (look : State → View → View) : Machine (State × View) (Option Label) where
  start := (M.start, first)
  next s label :=
    match label with
    | some a => (M.next s.1 a).map fun t => (t, s.2)
    | none => some (s.1, look s.1 s.2)

variable {M : Machine State Label} {first : View}
  {look : State → View → View}

theorem observed_step {s t : State × View} {a : Label}
    (hnext : (M.observed first look).next s (some a) = some t) :
    M.next s.1 a = some t.1 ∧ t.2 = s.2 := by
  obtain ⟨u, hstep, rfl⟩ := Option.map_eq_some_iff.mp hnext
  exact ⟨hstep, rfl⟩

@[simp] theorem observed_look (s : State × View) :
    (M.observed first look).next s none = some (s.1, look s.1 s.2) := rfl

/-- The watcher leaves no trace in the run of the machine. -/
theorem observed_runFrom {s t : State × View} {labels : List (Option Label)}
    (hrun : (M.observed first look).runFrom s labels = some t) :
    M.runFrom s.1 labels.reduceOption = some t.1 := by
  induction labels generalizing s with
  | nil =>
      cases hrun
      rfl
  | cons label labels ih =>
      obtain ⟨u, hnext, hrest⟩ := Option.bind_eq_some_iff.mp hrun
      cases label with
      | none =>
          cases hnext
          rw [List.reduceOption_cons_of_none]
          exact ih (s := (s.1, look s.1 s.2)) hrest
      | some a =>
          rw [List.reduceOption_cons_of_some, runFrom_cons,
            (observed_step hnext).1]
          exact ih hrest

/-- However the looks are mixed in, what the machine can do it does. -/
theorem exists_observed {s : State × View} {t : State}
    {labels : List (Option Label)}
    (hrun : M.runFrom s.1 labels.reduceOption = some t) :
    ∃ v, (M.observed first look).runFrom s labels = some (t, v) := by
  induction labels generalizing s with
  | nil =>
      cases hrun
      exact ⟨s.2, rfl⟩
  | cons label labels ih =>
      rw [runFrom_cons]
      cases label with
      | none =>
          rw [List.reduceOption_cons_of_none] at hrun
          exact ih (s := (s.1, look s.1 s.2)) hrun
      | some a =>
          rw [List.reduceOption_cons_of_some, runFrom_cons] at hrun
          obtain ⟨u, hnext, hrest⟩ := Option.bind_eq_some_iff.mp hrun
          have hstep : (M.observed first look).next s (some a) =
              some (u, s.2) := by
            simp [observed, hnext]
          rw [hstep]
          exact ih (s := (u, s.2)) hrest

theorem observed_run {s : State × View} {labels : List (Option Label)}
    (hrun : (M.observed first look).run labels = some s) :
    M.run labels.reduceOption = some s.1 :=
  observed_runFrom hrun

/-- What every look keeps of the view, given what the machine keeps. -/
theorem observed_invariant {I : State → Prop} {J : View → Prop}
    (hstart : I M.start) (hstep : ∀ s a t, I s → M.next s a = some t → I t)
    (hfirst : J first) (hlook : ∀ s v, I s → J v → J (look s v))
    {s : State × View} (hs : (M.observed first look).Reachable s) :
    I s.1 ∧ J s.2 := by
  refine hs.invariant (I := fun s => I s.1 ∧ J s.2) ⟨hstart, hfirst⟩ ?_
  rintro before label after ⟨hmachine, hview⟩ hnext
  cases label with
  | none =>
      cases hnext
      exact ⟨hmachine, hlook _ _ hmachine hview⟩
  | some a =>
      obtain ⟨hnext, hsame⟩ := observed_step hnext
      rw [hsame]
      exact ⟨hstep _ _ _ hmachine hnext, hview⟩

/-! ## At rest -/

theorem observed_rest (s : State × View) (looks : Nat) :
    (M.observed first look).runFrom s (List.replicate looks none) =
      some (s.1, (look s.1)^[looks] s.2) := by
  induction looks generalizing s with
  | zero => rfl
  | succ looks ih =>
      rw [List.replicate_succ, runFrom_cons, observed_look, Option.bind_some,
        ih]
      rfl

end Machine

theorem iterate_keeps {View : Type w} {f : View → View} {P : View → Prop}
    (hkeep : ∀ v, P v → P (f v)) {v : View} (hv : P v) (n : Nat) :
    P (f^[n] v) := by
  induction n generalizing v with
  | zero => exact hv
  | succ n ih => exact ih (hkeep v hv)

/-- What holds after some looks and is kept by each holds from then on. -/
theorem iterate_settles {View : Type w} {f : View → View} {P : View → Prop}
    (hkeep : ∀ v, P v → P (f v)) {v : View} {k n : Nat} (hreach : P (f^[k] v))
    (hkn : k ≤ n) : P (f^[n] v) := by
  obtain ⟨more, rfl⟩ := Nat.exists_eq_add_of_le' hkn
  rw [Function.iterate_add_apply]
  exact iterate_keeps hkeep hreach more

end EspIotivity.Foundation
