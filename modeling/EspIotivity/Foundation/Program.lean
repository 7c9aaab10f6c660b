import Mathlib.Logic.Basic

/-!
# Programs that stop early

A program changes a state and returns or fails; what it did before failing
stays done.  A `Contract` says what a run of it leaves alone and on what
condition it returns; `Performs` says what a run of it does, in order.
-/

namespace EspIotivity.Foundation

universe u v

abbrev Program (State Failure Result : Type u) :=
  ExceptT Failure (StateM State) Result

namespace Program

variable {State Failure Result Next : Type u} {View : Type v}

def exec (p : Program State Failure Result) (s : State) :
    Except Failure Result × State := p.run.run s

def update (f : State → State) : Program State Failure PUnit := modify f

def when (condition : Bool) (p : Program State Failure PUnit) :
    Program State Failure PUnit := if condition then p else pure ⟨⟩

def orFail (failure : Failure) (value : Option Result) :
    Program State Failure Result :=
  match value with
  | some value => pure value
  | none => throw failure

def ensure (failure : Failure) (condition : Bool) :
    Program State Failure PUnit :=
  if condition then pure ⟨⟩ else throw failure

def ignoring [DecidableEq Failure] (failure : Failure)
    (p : Program State Failure PUnit) : Program State Failure PUnit :=
  ExceptT.mk fun s =>
    match p.exec s with
    | (.ok value, t) => (.ok value, t)
    | (.error e, t) => (if e = failure then .ok ⟨⟩ else .error e, t)

/--
A run leaves `view` of the state alone, returns only if `condition` holds and
ends in `failure` only if it does not.
-/
structure Contract (view : State → View) (failure : Failure)
    (condition : Bool) (p : Program State Failure Result) : Prop where
  keeps : ∀ s, view (p.exec s).2 = view s
  returns : ∀ s value, (p.exec s).1 = .ok value → condition = true
  fails : ∀ s, (p.exec s).1 = .error failure → condition = false

variable {view : State → View} {failure : Failure} {c d : Bool}

theorem exec_bind (p : Program State Failure Result)
    (f : Result → Program State Failure Next) (s : State) :
    (p >>= f).exec s = match p.exec s with
      | (.ok value, t) => (f value).exec t
      | (.error e, t) => (.error e, t) := by
  change (ExceptT.bindCont f (p.exec s).1).run (p.exec s).2 = _
  rcases p.exec s with ⟨_ | _, t⟩ <;> rfl

theorem exec_ignoring [DecidableEq Failure] (failure : Failure)
    (p : Program State Failure PUnit) (s : State) :
    (ignoring failure p).exec s = match p.exec s with
      | (.ok value, t) => (.ok value, t)
      | (.error e, t) => (if e = failure then .ok ⟨⟩ else .error e, t) := rfl

theorem ignoring_ne_failure [DecidableEq Failure] {failure : Failure}
    (p : Program State Failure PUnit) (s : State) :
    ((ignoring failure p).exec s).1 ≠ .error failure := by
  rw [exec_ignoring]
  rcases p.exec s with ⟨e | value, t⟩
  · dsimp only
    split
    case isTrue => exact fun h => nomatch h
    case isFalse he => exact fun h => he (Except.error.inj h)
  · exact fun h => nomatch h

theorem contract_pure (value : Result) : Contract view failure true
    (pure value : Program State Failure Result) where
  keeps _ := rfl
  returns _ _ _ := rfl
  fails _ h := nomatch h

theorem contract_throw (e : Failure) (hc : e = failure → c = false) :
    Contract view failure c (throw e : Program State Failure Result) where
  keeps _ := rfl
  returns _ _ h := nomatch h
  fails _ h := hc (Except.error.inj h)

theorem contract_bind {p : Program State Failure Result}
    {f : Result → Program State Failure Next} (hp : Contract view failure c p)
    (hf : ∀ value, Contract view failure d (f value)) :
    Contract view failure (c && d) (p >>= f) := by
  constructor
  case keeps =>
    intro s
    have hkeeps := hp.keeps s
    rw [exec_bind]
    rcases h : p.exec s with ⟨_ | value, t⟩
    · rw [h] at hkeeps
      exact hkeeps
    · rw [h] at hkeeps
      exact ((hf value).keeps t).trans hkeeps
  case returns =>
    intro s result hresult
    have hreturns := hp.returns s
    rw [exec_bind] at hresult
    rcases h : p.exec s with ⟨_ | value, t⟩
    · rw [h] at hresult
      cases hresult
    · rw [h] at hresult hreturns
      rw [hreturns value rfl, (hf value).returns t result hresult]
      rfl
  case fails =>
    intro s hresult
    have hfails := hp.fails s
    rw [exec_bind] at hresult
    rcases h : p.exec s with ⟨_ | value, t⟩
    · rw [h] at hresult hfails
      have he := Except.error.inj hresult
      rw [hfails (congrArg Except.error he), Bool.false_and]
    · rw [h] at hresult
      rw [(hf value).fails t hresult, Bool.and_false]

theorem contract_bind_of_left {p : Program State Failure Result}
    {f : Result → Program State Failure Next} (hp : Contract view failure c p)
    (hf : ∀ value, Contract view failure true (f value)) :
    Contract view failure c (p >>= f) :=
  Bool.and_true c ▸ contract_bind hp hf

theorem contract_bind_of_right {p : Program State Failure Result}
    {f : Result → Program State Failure Next}
    (hp : Contract view failure true p)
    (hf : ∀ value, Contract view failure d (f value)) :
    Contract view failure d (p >>= f) :=
  Bool.true_and d ▸ contract_bind hp hf

theorem contract_update {f : State → State} (hf : ∀ s, view (f s) = view s) :
    Contract view failure true
      (update f : Program State Failure PUnit) where
  keeps := hf
  returns _ _ _ := rfl
  fails _ h := nomatch h

theorem contract_when {p : Program State Failure PUnit} (b : Bool)
    (hp : Contract view failure c p) :
    Contract view failure (!b || c) (when b p) := by
  cases b with
  | false => exact contract_pure _
  | true => exact hp

theorem contract_orFail (value : Option Result) :
    Contract view failure value.isSome
      (orFail failure value : Program State Failure Result) := by
  cases value with
  | none => exact contract_throw _ fun _ => rfl
  | some value => exact contract_pure value

theorem contract_orFail_other {e : Failure} (he : e ≠ failure)
    (value : Option Result) : Contract view failure true
      (orFail e value : Program State Failure Result) := by
  cases value with
  | none => exact contract_throw _ fun h => absurd h he
  | some value => exact contract_pure value

theorem contract_ensure (condition : Bool) :
    Contract view failure condition
      (ensure failure condition : Program State Failure PUnit) := by
  cases condition with
  | false => exact contract_throw _ fun _ => rfl
  | true => exact contract_pure _

theorem contract_ensure_other {e : Failure} (he : e ≠ failure)
    (condition : Bool) : Contract view failure true
      (ensure e condition : Program State Failure PUnit) := by
  cases condition with
  | false => exact contract_throw _ fun h => absurd h he
  | true => exact contract_pure _

theorem contract_ignoring [DecidableEq Failure]
    {p : Program State Failure PUnit} (hp : Contract view failure c p) :
    Contract view failure true (ignoring failure p) := by
  constructor
  case keeps =>
    intro s
    have hkeeps := hp.keeps s
    rw [exec_ignoring]
    rcases h : p.exec s with ⟨_ | value, t⟩
    all_goals
      rw [h] at hkeeps
      exact hkeeps
  case returns => exact fun _ _ _ => rfl
  case fails => exact fun s h => absurd h (ignoring_ne_failure p s)

/-! ## Programs by the actions they perform -/

/-- A run takes `view` through `actions`, unless it ends in another failure. -/
structure Performs {Action : Type v} (view : State → View)
    (act : View → Action → View) (failure : Failure) (condition : Bool)
    (actions : List Action) (p : Program State Failure Result) : Prop where
  returns : ∀ s value, (p.exec s).1 = .ok value →
    condition = true ∧ view (p.exec s).2 = actions.foldl act (view s)
  fails : ∀ s, (p.exec s).1 = .error failure →
    condition = false ∧ view (p.exec s).2 = actions.foldl act (view s)

section Performs

variable {Action : Type v} {act : View → Action → View}
  {actions later : List Action}

theorem Contract.performs {p : Program State Failure Result}
    (hp : Contract view failure c p) : Performs view act failure c [] p where
  returns s value h := ⟨hp.returns s value h, hp.keeps s⟩
  fails s h := ⟨hp.fails s h, hp.keeps s⟩

theorem performs_update {f : State → State} {action : Action}
    (hf : ∀ s, view (f s) = act (view s) action) :
    Performs view act failure true [action]
      (update f : Program State Failure PUnit) where
  returns s _ _ := ⟨rfl, hf s⟩
  fails _ h := nomatch h

theorem Performs.ok {p : Program State Failure Result}
    (hp : Performs view act failure c actions p) {s t : State} {value : Result}
    (h : p.exec s = (.ok value, t)) :
    c = true ∧ view t = actions.foldl act (view s) := by
  have hreturns := hp.returns s value
  rw [h] at hreturns
  exact hreturns rfl

theorem Performs.error {p : Program State Failure Result}
    (hp : Performs view act failure c actions p) {s t : State}
    (h : p.exec s = (.error failure, t)) :
    c = false ∧ view t = actions.foldl act (view s) := by
  have hfails := hp.fails s
  rw [h] at hfails
  exact hfails rfl

/-- A failure of the first part leaves the second's actions out. -/
theorem performs_bind {p : Program State Failure Result}
    {f : Result → Program State Failure Next}
    (hp : Performs view act failure c actions p)
    (hf : ∀ value, Performs view act failure d later (f value)) :
    Performs view act failure (c && d)
      (actions ++ if c then later else []) (p >>= f) := by
  constructor
  case returns =>
    intro s result hresult
    rw [exec_bind] at hresult ⊢
    rcases h : p.exec s with ⟨e | value, t⟩
    · rw [h] at hresult
      cases hresult
    · rw [h] at hresult
      obtain ⟨rfl, hfirst⟩ := hp.ok h
      obtain ⟨rfl, hsecond⟩ := (hf value).returns t result hresult
      rw [if_pos rfl, List.foldl_append, ← hfirst]
      exact ⟨rfl, hsecond⟩
  case fails =>
    intro s hresult
    rw [exec_bind] at hresult ⊢
    rcases h : p.exec s with ⟨e | value, t⟩
    · rw [h] at hresult
      cases hresult
      obtain ⟨rfl, hfirst⟩ := hp.error h
      exact ⟨rfl, by simpa using hfirst⟩
    · rw [h] at hresult
      obtain ⟨rfl, hfirst⟩ := hp.ok h
      obtain ⟨rfl, hsecond⟩ := (hf value).fails t hresult
      rw [if_pos rfl, List.foldl_append, ← hfirst]
      exact ⟨rfl, hsecond⟩

theorem performs_when {p : Program State Failure PUnit} (b : Bool)
    (hp : Performs view act failure c actions p) :
    Performs view act failure (!b || c) (if b then actions else [])
      (when b p) := by
  cases b with
  | false => exact (contract_pure _).performs
  | true => exact hp

theorem performs_ignoring [DecidableEq Failure]
    {p : Program State Failure PUnit}
    (hp : Performs view act failure c actions p) :
    Performs view act failure true actions (ignoring failure p) := by
  constructor
  case returns =>
    intro s result hresult
    rw [exec_ignoring] at hresult ⊢
    rcases h : p.exec s with ⟨e | value, t⟩
    · rw [h] at hresult
      dsimp only at hresult
      split at hresult
      case isTrue he =>
        rw [he] at h
        exact ⟨rfl, (hp.error h).2⟩
      case isFalse => cases hresult
    · exact ⟨rfl, (hp.ok h).2⟩
  case fails => exact fun s h => absurd h (ignoring_ne_failure p s)

end Performs

end Program

end EspIotivity.Foundation
