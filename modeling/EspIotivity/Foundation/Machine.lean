import Mathlib.Logic.Basic
import Mathlib.Data.List.Basic
import Mathlib.Data.List.Induction

/-!
# Labelled machines and their runs

A machine takes one labelled step at a time.  Every choice that is not the
machine's own (the caller's next call, the scheduler's next thread, the result
of an external function) is carried by the label, so that `next` is a partial
function and runs can be evaluated.  A label that is not enabled yields `none`.
-/

namespace EspIotivity.Foundation

universe u v w

structure Machine (State : Type u) (Label : Type v) where
  start : State
  next : State → Label → Option State

namespace Machine

variable {State : Type u} {Label : Type v}

def ofTotal (start : State) (step : State → Label → State) :
    Machine State Label :=
  ⟨start, fun s a => some (step s a)⟩

/-! ## Runs -/

def runFrom (M : Machine State Label) : State → List Label → Option State
  | s, [] => some s
  | s, a :: labels => (M.next s a).bind fun t => M.runFrom t labels

def run (M : Machine State Label) (labels : List Label) : Option State :=
  M.runFrom M.start labels

def Reachable (M : Machine State Label) (s : State) : Prop :=
  ∃ labels, M.run labels = some s

@[simp] theorem runFrom_nil (M : Machine State Label) (s : State) :
    M.runFrom s [] = some s := rfl

@[simp] theorem runFrom_cons (M : Machine State Label) (s : State) (a : Label)
    (labels : List Label) :
    M.runFrom s (a :: labels) =
      (M.next s a).bind fun t => M.runFrom t labels := rfl

theorem runFrom_append (M : Machine State Label) (s : State)
    (first second : List Label) :
    M.runFrom s (first ++ second) =
      (M.runFrom s first).bind fun t => M.runFrom t second := by
  induction first generalizing s with
  | nil => rfl
  | cons a first ih =>
      simp only [List.cons_append, runFrom_cons]
      cases hnext : M.next s a with
      | none => rfl
      | some t => simpa using ih t

theorem runFrom_concat (M : Machine State Label) {s t : State}
    {labels : List Label} (a : Label) (hrun : M.runFrom s labels = some t) :
    M.runFrom s (labels ++ [a]) = M.next t a := by
  rw [runFrom_append, hrun]
  cases hnext : M.next t a <;> simp [hnext]

theorem run_append {M : Machine State Label} {s t : State}
    {first second : List Label} (hfirst : M.run first = some s)
    (hsecond : M.runFrom s second = some t) :
    M.run (first ++ second) = some t := by
  rw [run] at hfirst ⊢
  rw [runFrom_append, hfirst, Option.bind_some, hsecond]

@[simp] theorem runFrom_ofTotal (start s : State)
    (step : State → Label → State) (labels : List Label) :
    (ofTotal start step).runFrom s labels = some (labels.foldl step s) := by
  induction labels generalizing s with
  | nil => rfl
  | cons a labels ih => exact ih (step s a)

/-! ## Guarded runs and invariants -/

/-- Every step attempted by the run meets `P` in the state it starts from. -/
def Throughout (M : Machine State Label) (P : State → Label → Prop) :
    State → List Label → Prop
  | _, [] => True
  | s, a :: labels => P s a ∧ ∀ t ∈ M.next s a, M.Throughout P t labels

variable {M : Machine State Label} {P Q : State → Label → Prop}
  {I : State → Prop}

instance decidableThroughout [∀ s a, Decidable (P s a)] :
    ∀ s labels, Decidable (M.Throughout P s labels)
  | _, [] => .isTrue trivial
  | s, a :: labels =>
      have := fun t => decidableThroughout t labels
      inferInstanceAs (Decidable (P s a ∧ ∀ t ∈ M.next s a,
        M.Throughout P t labels))

theorem throughout_ofTotal_cons {start s : State} {a : Label}
    {step : State → Label → State} {labels : List Label} :
    (ofTotal start step).Throughout P s (a :: labels) ↔
      P s a ∧ (ofTotal start step).Throughout P (step s a) labels := by
  simp [Throughout, ofTotal]

theorem Throughout.invariant
    (hstep : ∀ s a t, I s → P s a → M.next s a = some t → I t)
    {s t : State} {labels : List Label} (hs : I s)
    (hguard : M.Throughout P s labels)
    (hrun : M.runFrom s labels = some t) : I t := by
  induction labels generalizing s with
  | nil =>
      cases hrun
      exact hs
  | cons a labels ih =>
      obtain ⟨u, hnext, hrest⟩ := Option.bind_eq_some_iff.mp hrun
      exact ih (hstep s a u hs hguard.1 hnext) (hguard.2 u hnext) hrest

theorem throughout_of_mem {labels : List Label}
    (h : ∀ a ∈ labels, ∀ s, P s a) (s : State) : M.Throughout P s labels := by
  induction labels generalizing s with
  | nil => trivial
  | cons a labels ih =>
      refine ⟨h a List.mem_cons_self s, fun t _ => ?_⟩
      exact ih (fun b hb => h b (List.mem_cons_of_mem a hb)) t

theorem Reachable.invariant (hstart : I M.start)
    (hstep : ∀ s a t, I s → M.next s a = some t → I t)
    {s : State} (hs : M.Reachable s) : I s := by
  obtain ⟨labels, hrun⟩ := hs
  exact Throughout.invariant (P := fun _ _ => True)
    (fun s a t hi _ hnext => hstep s a t hi hnext) hstart
    (throughout_of_mem (fun _ _ _ => trivial) _) hrun

/-- What a run has brought about, from what each step adds to it. -/
theorem run_induction {R : List Label → State → Prop} (hstart : R [] M.start)
    (hstep : ∀ labels s a t, M.run labels = some s → R labels s →
      M.next s a = some t → R (labels ++ [a]) t)
    {labels : List Label} {s : State} (hrun : M.run labels = some s) :
    R labels s := by
  induction labels using List.reverseRecOn generalizing s with
  | nil =>
      cases hrun
      exact hstart
  | append_singleton labels a ih =>
      rw [run, runFrom_append] at hrun
      obtain ⟨t, hbefore, hlast⟩ := Option.bind_eq_some_iff.mp hrun
      obtain ⟨u, hnext, hend⟩ := Option.bind_eq_some_iff.mp hlast
      cases hend
      exact hstep labels t a s hbefore (ih hbefore) hnext

theorem throughout_congr
    (hstep : ∀ s a t, I s → M.next s a = some t → I t)
    (hiff : ∀ s a, I s → (P s a ↔ Q s a))
    {s : State} (hs : I s) (labels : List Label) :
    M.Throughout P s labels ↔ M.Throughout Q s labels := by
  induction labels generalizing s with
  | nil => rfl
  | cons a labels ih =>
      refine and_congr (hiff s a hs) (forall_congr' fun t => ?_)
      exact imp_congr_right fun hnext => ih (hstep s a t hs hnext)

theorem Throughout.mono
    (hstep : ∀ s a t, I s → P s a → M.next s a = some t → I t)
    (himp : ∀ s a, I s → P s a → Q s a)
    {s : State} (hs : I s) {labels : List Label}
    (hguard : M.Throughout P s labels) : M.Throughout Q s labels := by
  induction labels generalizing s with
  | nil => trivial
  | cons a labels ih =>
      refine ⟨himp s a hs hguard.1, fun t hnext => ?_⟩
      exact ih (hstep s a t hs hguard.1 hnext) (hguard.2 t hnext)

/-- A run that is never stuck where its guard holds comes to its end. -/
theorem Throughout.exists_run
    (hstep : ∀ s a t, I s → P s a → M.next s a = some t → I t)
    (hgo : ∀ s a, I s → P s a → ∃ t, M.next s a = some t)
    {s : State} (hs : I s) {labels : List Label}
    (hguard : M.Throughout P s labels) : ∃ t, M.runFrom s labels = some t := by
  induction labels generalizing s with
  | nil => exact ⟨s, rfl⟩
  | cons a labels ih =>
      obtain ⟨u, hnext⟩ := hgo s a hs hguard.1
      obtain ⟨t, hrun⟩ :=
        ih (hstep s a u hs hguard.1 hnext) (hguard.2 u hnext)
      exact ⟨t, by rw [runFrom_cons, hnext, Option.bind_some, hrun]⟩

theorem throughout_labels {R : Label → Prop}
    (hstep : ∀ s a t, I s → M.next s a = some t → I t)
    (hgo : ∀ s a, I s → R a → ∃ t, M.next s a = some t)
    {s : State} (hs : I s) (labels : List Label) :
    M.Throughout (fun _ a => R a) s labels ↔ ∀ a ∈ labels, R a := by
  induction labels generalizing s with
  | nil => simp [Throughout]
  | cons a labels ih =>
      rw [List.forall_mem_cons]
      refine and_congr_right fun ha => ?_
      obtain ⟨t, hnext⟩ := hgo s a hs ha
      constructor
      · intro h
        exact (ih (hstep s a t hs hnext)).mp (h t hnext)
      · intro h u hu
        exact (ih (hstep s a u hs hu)).mpr h

/-! ## Guards that are exact -/

/-- Steps that meet `P` can come from here to a state that is `Bad`. -/
def LeadsTo (M : Machine State Label) (P : State → Label → Prop)
    (Bad : State → Prop) (s : State) : Prop :=
  ∃ labels t, M.Throughout P s labels ∧ M.runFrom s labels = some t ∧ Bad t

section Leading

variable {Bad : State → Prop}

theorem leadsTo_here {s : State} (hbad : Bad s) : M.LeadsTo P Bad s :=
  ⟨[], s, trivial, rfl, hbad⟩

theorem leadsTo_of_next {s t : State} {a : Label} (ha : P s a)
    (hnext : M.next s a = some t) (ht : M.LeadsTo P Bad t) :
    M.LeadsTo P Bad s := by
  obtain ⟨labels, u, hguard, hrun, hbad⟩ := ht
  refine ⟨a :: labels, u, ⟨ha, fun v hv => ?_⟩, ?_, hbad⟩
  · obtain rfl := Option.some.inj (hnext.symm.trans hv)
    exact hguard
  · rw [runFrom_cons, hnext, Option.bind_some, hrun]

/--
A guard that keeps `I` leaves nothing out if a step that does not meet it is
enough to come to a `Bad` state, while the later steps do meet it.
-/
theorem guard_iff_not_leadsTo
    (hstep : ∀ s a t, I s → P s a → M.next s a = some t → I t)
    (hgood : ∀ s, I s → ¬ Bad s) (himp : ∀ s a, Q s a → P s a)
    {s t : State} {a : Label} (hs : I s) (hnext : M.next s a = some t)
    (hblame : ¬ P s a → M.LeadsTo Q Bad t) :
    P s a ↔ ¬ M.LeadsTo Q Bad t := by
  constructor
  · rintro ha ⟨labels, u, hguard, hrun, hbad⟩
    have ht := hstep s a t hs ha hnext
    have hlater : ∀ s a t, I s → Q s a → M.next s a = some t → I t :=
      fun s a t hs ha => hstep s a t hs (himp s a ha)
    exact hgood u (hguard.invariant hlater ht hrun) hbad
  · exact not_imp_comm.mp hblame

end Leading

/-! ## Runs that must end -/

/-- None of these labels is enabled. -/
def AtRest (M : Machine State Label) (R : Label → Prop) (s : State) : Prop :=
  ∀ a, R a → M.next s a = none

section Ending

variable {R : Label → Prop} {size : State → Nat}
  (hdrop : ∀ s a t, R a → M.next s a = some t → size t < size s)

include hdrop

theorem length_le_of_drop {labels : List Label} (hlabels : ∀ a ∈ labels, R a)
    {s t : State} (hrun : M.runFrom s labels = some t) :
    labels.length + size t ≤ size s := by
  induction labels generalizing s with
  | nil =>
      cases hrun
      simp
  | cons a labels ih =>
      obtain ⟨u, hnext, hrest⟩ := Option.bind_eq_some_iff.mp hrun
      obtain ⟨ha, hlabels⟩ := List.forall_mem_cons.mp hlabels
      have hfirst := hdrop s a u ha hnext
      have hlater := ih hlabels hrest
      simp only [List.length_cons]
      omega

theorem exists_atRest (s : State) :
    ∃ labels t, (∀ a ∈ labels, R a) ∧ M.runFrom s labels = some t ∧
      M.AtRest R t := by
  induction hn : size s using Nat.strongRecOn generalizing s with
  | ind n ih =>
      by_cases hrest : M.AtRest R s
      · exact ⟨[], s, by simp, rfl, hrest⟩
      · simp only [AtRest, not_forall] at hrest
        obtain ⟨a, ha, henabled⟩ := hrest
        obtain ⟨u, hnext⟩ := Option.ne_none_iff_exists'.mp henabled
        obtain ⟨labels, t, hlabels, hrun, hend⟩ :=
          ih (size u) (hn ▸ hdrop s a u ha hnext) u rfl
        refine ⟨a :: labels, t, ?_, ?_, hend⟩
        · exact List.forall_mem_cons.mpr ⟨ha, hlabels⟩
        · rw [runFrom_cons, hnext, Option.bind_some, hrun]

end Ending

/-! ## Logs -/

/-- A machine that keeps the labels taken so far with what each returned. -/
def logging {Result : Type w} (start : State)
    (call : State → Label → Option (State × Result)) :
    Machine (State × List (Label × Result)) Label :=
  ⟨(start, []), fun s a =>
    (call s.1 a).map fun (t, result) => (t, s.2 ++ [(a, result)])⟩

theorem logging_next {Result : Type w} {start : State}
    {call : State → Label → Option (State × Result)}
    {s t : State × List (Label × Result)} {a : Label} :
    (logging start call).next s a = some t ↔
      ∃ result, call s.1 a = some (t.1, result) ∧
        t.2 = s.2 ++ [(a, result)] := by
  constructor
  · intro hnext
    obtain ⟨⟨u, result⟩, hcall, rfl⟩ := Option.map_eq_some_iff.mp hnext
    exact ⟨result, hcall, rfl⟩
  · rintro ⟨result, hcall, hlog⟩
    exact Option.map_eq_some_iff.mpr
      ⟨(t.1, result), hcall, Prod.ext rfl hlog.symm⟩

end Machine

end EspIotivity.Foundation
