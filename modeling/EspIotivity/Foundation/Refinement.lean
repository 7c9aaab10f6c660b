import EspIotivity.Foundation.Network

/-!
# Refinement

A machine refines another if, under a view of its states, every step is one of
the other's or changes nothing there; where its states do not determine the
other's, a relation stands for the view.  A network refines another if its
parties do so one by one and send the same.
-/

namespace EspIotivity.Foundation

universe u v w x y z

namespace Machine

variable {State : Type u} {Label : Type v} {Abstract : Type w} {Move : Type x}

/-- `I` is what the steps keep and the view needs. -/
structure Refines (C : Machine State Label) (A : Machine Abstract Move)
    (view : State → Abstract) (act : Label → Option Move)
    (I : State → Prop) : Prop where
  start : view C.start = A.start
  first : I C.start
  keeps : ∀ s a t, I s → C.next s a = some t → I t
  stutters : ∀ s a t, I s → C.next s a = some t → act a = none →
    view t = view s
  steps : ∀ s a t b, I s → C.next s a = some t → act a = some b →
    A.next (view s) b = some (view t)

variable {C : Machine State Label} {A : Machine Abstract Move}
  {view : State → Abstract} {act : Label → Option Move} {I : State → Prop}

theorem Refines.runFrom (h : C.Refines A view act I) {s t : State}
    {labels : List Label} (hs : I s) (hrun : C.runFrom s labels = some t) :
    I t ∧ A.runFrom (view s) (labels.filterMap act) = some (view t) := by
  induction labels generalizing s with
  | nil =>
      cases hrun
      exact ⟨hs, rfl⟩
  | cons a labels ih =>
      obtain ⟨u, hnext, hrest⟩ := Option.bind_eq_some_iff.mp hrun
      obtain ⟨ht, hviews⟩ := ih (h.keeps s a u hs hnext) hrest
      refine ⟨ht, ?_⟩
      cases hact : act a with
      | none =>
          rw [List.filterMap_cons_none hact,
            ← h.stutters s a u hs hnext hact]
          exact hviews
      | some b =>
          rw [List.filterMap_cons_some hact, runFrom_cons,
            h.steps s a u b hs hnext hact]
          exact hviews

theorem Refines.run (h : C.Refines A view act I) {s : State}
    {labels : List Label} (hrun : C.run labels = some s) :
    I s ∧ A.run (labels.filterMap act) = some (view s) := by
  have hviews := h.runFrom h.first hrun
  rwa [h.start] at hviews

/--
The other machine follows step by step, in states that `rel` relates, as long
as the steps meet `P`.
-/
structure Follows (C : Machine State Label) (A : Machine Abstract Label)
    (rel : State → Abstract → Prop) (P : State → Label → Prop) : Prop where
  start : rel C.start A.start
  next : ∀ s x a t, rel s x → P s a → C.next s a = some t →
    ∃ y, A.next x a = some y ∧ rel t y

theorem Follows.run {A : Machine Abstract Label}
    {rel : State → Abstract → Prop} {P : State → Label → Prop}
    (h : C.Follows A rel P) {labels : List Label} {t : State}
    (hguard : C.Throughout P C.start labels) (hrun : C.run labels = some t) :
    ∃ y, A.run labels = some y ∧ rel t y := by
  suffices hfrom : ∀ s x, rel s x → C.Throughout P s labels →
      C.runFrom s labels = some t → ∃ y, A.runFrom x labels = some y ∧ rel t y
    from hfrom C.start A.start h.start hguard hrun
  clear hguard hrun
  induction labels with
  | nil =>
      intro s x hrel _ hrun
      cases hrun
      exact ⟨x, rfl, hrel⟩
  | cons a labels ih =>
      intro s x hrel hguard hrun
      obtain ⟨u, hnext, hrest⟩ := Option.bind_eq_some_iff.mp hrun
      obtain ⟨z, hfollow, hrel'⟩ := h.next s x a u hrel hguard.1 hnext
      obtain ⟨y, hlater, hend⟩ := ih u z hrel' (hguard.2 u hnext) hrest
      refine ⟨y, ?_, hend⟩
      rw [runFrom_cons, hfollow, Option.bind_some, hlater]

end Machine

def World.view {Party : Type u} {State : Party → Type v}
    {Abstract : Party → Type y} {Packet : Type w}
    (view : ∀ n, State n → Abstract n) (world : World State Packet) :
    World Abstract Packet where
  parties n := view n (world.parties n)
  sent := world.sent

namespace Network

variable {Party : Type u} [DecidableEq Party] {State : Party → Type v}
  {Packet : Type w} {Act : Party → Type x} {Abstract : Party → Type y}
  {Move : Party → Type z}

/-- What each party's step is in the other network. -/
structure PartyRefines (C : Network State Packet Act)
    (A : Network Abstract Packet Move) (view : ∀ n, State n → Abstract n)
    (act : ∀ n, Act n → Option (Move n)) (I : ∀ n, State n → Prop) :
    Prop where
  start : ∀ n, view n (C.start n) = A.start n
  first : ∀ n, I n (C.start n)
  keeps : ∀ n a sent s t out, I n s → C.step n a sent s = some (t, out) → I n t
  stutters : ∀ n a sent s t out, I n s → C.step n a sent s = some (t, out) →
    act n a = none → view n t = view n s ∧ out = []
  steps : ∀ n a sent s t out b, I n s → C.step n a sent s = some (t, out) →
    act n a = some b → A.step n b sent (view n s) = some (view n t, out)

variable {C : Network State Packet Act} {A : Network Abstract Packet Move}
  {view : ∀ n, State n → Abstract n} {act : ∀ n, Act n → Option (Move n)}
  {I : ∀ n, State n → Prop}

theorem view_update (parties : ∀ n, State n) (n : Party) (s : State n) :
    (fun m => view m (Function.update parties n s m)) =
      Function.update (fun m => view m (parties m)) n (view n s) := by
  funext m
  exact Function.apply_update view parties n s m

theorem PartyRefines.machine (h : PartyRefines C A view act I) :
    C.machine.Refines A.machine (World.view view)
      (fun label => (act label.1 label.2).map (Sigma.mk label.1))
      (fun world => ∀ n, I n (world.parties n)) := by
  constructor
  case start =>
    have hparties : (fun n => view n (C.start n)) = A.start :=
      funext h.start
    simp [World.view, Network.machine, hparties]
  case first => exact h.first
  case keeps =>
    intro before label after hbefore hnext m
    obtain ⟨n, a⟩ := label
    obtain ⟨state, out, hstep, hparties, -⟩ := next_eq hnext
    rw [hparties]
    by_cases hm : m = n
    · subst hm
      rw [Function.update_self]
      exact h.keeps m a _ _ _ _ (hbefore m) hstep
    · rw [Function.update_of_ne hm]
      exact hbefore m
  case stutters =>
    intro before label after hbefore hnext hact
    obtain ⟨n, a⟩ := label
    obtain ⟨state, out, hstep, hparties, hsent⟩ := next_eq hnext
    obtain ⟨hview, rfl⟩ := h.stutters n a _ _ _ _ (hbefore n) hstep
      (Option.map_eq_none_iff.mp hact)
    rw [World.view, World.view, hparties, hsent, view_update, hview,
      Function.update_eq_self, List.append_nil]
  case steps =>
    intro before label after move hbefore hnext hact
    obtain ⟨n, a⟩ := label
    obtain ⟨b, hb, rfl⟩ := Option.map_eq_some_iff.mp hact
    obtain ⟨state, out, hstep, hparties, hsent⟩ := next_eq hnext
    have habstract := h.steps n a _ _ _ _ b (hbefore n) hstep hb
    have hafter : World.view view after =
        ⟨Function.update (fun m => view m (before.parties m)) n (view n state),
          before.sent ++ out⟩ := by
      rw [World.view, hparties, hsent, view_update]
    rw [hafter]
    simp [Network.machine, World.view, habstract]

end Network

end EspIotivity.Foundation
