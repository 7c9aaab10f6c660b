import EspIotivity.Foundation.Machine
import Mathlib.Logic.Function.Basic

/-!
# Parties on an unreliable network

Each party has a state of its own and takes steps that may look at everything
sent so far and send more.  A packet that was sent stays there to be looked at:
a step that acts on it delivers it, one that acts on it again delivers it twice,
steps that act on packets in another order reorder them, and a packet that no
step acts on is lost.
-/

namespace EspIotivity.Foundation

universe u v w x

/-- `step` is `none` where the party cannot act so. -/
structure Network {Party : Type u} (State : Party → Type v) (Packet : Type w)
    (Act : Party → Type x) where
  start : ∀ n, State n
  step : ∀ n, Act n → List Packet → State n → Option (State n × List Packet)

structure World {Party : Type u} (State : Party → Type v) (Packet : Type w)
    where
  parties : ∀ n, State n
  sent : List Packet

namespace Network

variable {Party : Type u} [DecidableEq Party] {State : Party → Type v}
  {Packet : Type w} {Act : Party → Type x}

def machine (N : Network State Packet Act) :
    Machine (World State Packet) (Σ n, Act n) where
  start := ⟨N.start, []⟩
  next before label :=
    (N.step label.1 label.2 before.sent (before.parties label.1)).map
      fun (state, out) =>
        ⟨Function.update before.parties label.1 state, before.sent ++ out⟩

variable {N : Network State Packet Act} {before after : World State Packet}
  {n : Party} {a : Act n}

theorem next_eq (hnext : N.machine.next before ⟨n, a⟩ = some after) :
    ∃ state out,
      N.step n a before.sent (before.parties n) = some (state, out) ∧
        after.parties = Function.update before.parties n state ∧
        after.sent = before.sent ++ out := by
  obtain ⟨⟨state, out⟩, hstep, rfl⟩ := Option.map_eq_some_iff.mp hnext
  exact ⟨state, out, hstep, rfl, rfl⟩

/-- A step of one party leaves the others as they are. -/
theorem next_other {m : Party} (hnext : N.machine.next before ⟨n, a⟩ =
    some after) (hm : m ≠ n) : after.parties m = before.parties m := by
  obtain ⟨state, out, -, hparties, -⟩ := next_eq hnext
  rw [hparties, Function.update_of_ne hm]

/-! ## What the parties rely on and what they guarantee -/

/-- Every party is in order, and so is everything that was sent. -/
structure Keeps (I : ∀ n, State n → Prop) (P : Packet → Prop)
    (world : World State Packet) : Prop where
  parties : ∀ n, I n (world.parties n)
  sent : ∀ p ∈ world.sent, P p

/-- A step in order: from packets in order it makes packets in order. -/
def StepKeeps (N : Network State Packet Act) (I : ∀ n, State n → Prop)
    (P : Packet → Prop) : Prop :=
  ∀ n a sent s t out, I n s → (∀ p ∈ sent, P p) →
    N.step n a sent s = some (t, out) → I n t ∧ ∀ p ∈ out, P p

variable {I : ∀ n, State n → Prop} {P : Packet → Prop}

theorem Keeps.next (hstep : N.StepKeeps I P) (h : Keeps I P before)
    {label : Σ n, Act n}
    (hnext : N.machine.next before label = some after) : Keeps I P after := by
  obtain ⟨n, a⟩ := label
  obtain ⟨state, out, hact, hparties, hsent⟩ := next_eq hnext
  obtain ⟨hstate, hout⟩ := hstep n a _ _ _ _ (h.parties n) h.sent hact
  constructor
  case parties =>
    intro m
    rw [hparties]
    by_cases hm : m = n
    · subst hm
      rwa [Function.update_self]
    · rw [Function.update_of_ne hm]
      exact h.parties m
  case sent =>
    rw [hsent]
    intro p hp
    rcases List.mem_append.mp hp with hold | hnew
    · exact h.sent p hold
    · exact hout p hnew

/-- Whatever is lost, repeated or reordered on the way. -/
theorem reachable_keeps (hstart : ∀ n, I n (N.start n))
    (hstep : N.StepKeeps I P) (hworld : N.machine.Reachable after) :
    Keeps I P after :=
  hworld.invariant (I := Keeps I P)
    ⟨hstart, fun _ hp => absurd hp List.not_mem_nil⟩
    fun _ _ _ hbefore hnext => hbefore.next hstep hnext

end Network

end EspIotivity.Foundation
