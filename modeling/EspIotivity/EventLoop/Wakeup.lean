import EspIotivity.Foundation.Machine
import Mathlib.Tactic

/-!
# The main loop and the threads that wake it

`server_main` and `client_main` run the same loop: `oc_main_poll` outside the
mutex, then, under it, a wait that is untimed when the poll returned 0.  The
network thread queues an event and calls `signal_event_loop`; `handle_signal`
calls it first and stores `quit` afterwards.  Each step below is one of these
operations.  A condition signal wakes the loop only if it is blocked, and the
mutex is held from a party's lock to its unlock or wait.
-/

namespace EspIotivity.EventLoop

open EspIotivity.Foundation

inductive MainPoint where
  | testQuit
  | poll
  | lock (nextEvent : Nat)
  | wait (nextEvent : Nat)
  | blocked
  | blockedTimed
  | relock
  | unlock
  | shutdown
  deriving DecidableEq, Repr

inductive SignalPoint where
  | lock
  | signal
  | unlock
  deriving DecidableEq, Repr

inductive HandlerPoint where
  | idle
  | signalling (point : SignalPoint)
  | storeQuit
  deriving DecidableEq, Repr

/-- `net` is `none` while the network thread has nothing to deliver. -/
structure LoopState where
  main : MainPoint
  net : Option SignalPoint
  handler : HandlerPoint
  queued : Nat
  quit : Bool
  deriving DecidableEq, Repr

/-- A step of the main loop carries what `oc_main_poll` returns. -/
inductive LoopAct where
  | main (nextEvent : Nat)
  | timeout
  | enqueue
  | net
  | raise
  | handler
  deriving DecidableEq, Repr

/-! ## The mutex and the condition variable -/

def MainPoint.holds : MainPoint → Bool
  | .wait _ => true
  | .unlock => true
  | _ => false

def SignalPoint.holds : SignalPoint → Bool
  | .lock => false
  | .signal => true
  | .unlock => true

def LoopState.netHolds (s : LoopState) : Bool := s.net.any SignalPoint.holds

def LoopState.handlerHolds (s : LoopState) : Bool :=
  match s.handler with
  | .signalling point => point.holds
  | _ => false

def LoopState.mutexFree (s : LoopState) : Bool :=
  !s.main.holds && !s.netHolds && !s.handlerHolds

/-- `pthread_cond_signal`. -/
def MainPoint.signalled : MainPoint → MainPoint
  | .blocked => .relock
  | .blockedTimed => .relock
  | point => point

/-! ## The steps -/

/-- One operation of `signal_event_loop`; `none` is its return. -/
def signalEventLoop (point : SignalPoint) (s : LoopState) :
    Option (LoopState × Option SignalPoint) :=
  match point with
  | .lock => if s.mutexFree then some (s, some .signal) else none
  | .signal => some ({ s with main := s.main.signalled }, some .unlock)
  | .unlock => some (s, none)

def mainStep (nextEvent : Nat) (s : LoopState) : Option LoopState :=
  match s.main with
  | .testQuit =>
      some { s with main := if s.quit then .shutdown else .poll }
  | .poll => some { s with main := .lock nextEvent, queued := 0 }
  | .lock n => if s.mutexFree then some { s with main := .wait n } else none
  | .wait n =>
      some { s with main := if n = 0 then .blocked else .blockedTimed }
  | .blocked => none
  | .blockedTimed => none
  | .relock => if s.mutexFree then some { s with main := .unlock } else none
  | .unlock => some { s with main := .testQuit }
  | .shutdown => none

def netStep (s : LoopState) : Option LoopState :=
  match s.net with
  | none => none
  | some point =>
      (signalEventLoop point s).map fun (t, rest) => { t with net := rest }

def HandlerPoint.ofSignal : Option SignalPoint → HandlerPoint
  | some point => .signalling point
  | none => .storeQuit

def handlerStep (s : LoopState) : Option LoopState :=
  match s.handler with
  | .idle => none
  | .signalling point =>
      (signalEventLoop point s).map fun (t, rest) =>
        { t with handler := .ofSignal rest }
  | .storeQuit => some { s with handler := .idle, quit := true }

def LoopState.next (s : LoopState) : LoopAct → Option LoopState
  | .main nextEvent => mainStep nextEvent s
  | .timeout =>
      if s.main = .blockedTimed then some { s with main := .relock } else none
  | .enqueue =>
      if s.net = none then
        some { s with net := some .lock, queued := s.queued + 1 }
      else none
  | .net => netStep s
  | .raise =>
      if s.handler = .idle then some { s with handler := .signalling .lock }
      else none
  | .handler => handlerStep s

def loopMachine : Machine LoopState LoopAct :=
  ⟨⟨.testQuit, none, .idle, 0, false⟩, LoopState.next⟩

/-! ## The lost wakeup -/

def SignalPoint.pending : SignalPoint → Bool
  | .lock => true
  | .signal => true
  | .unlock => false

def LoopState.netPending (s : LoopState) : Bool :=
  s.net.any SignalPoint.pending

def LoopState.handlerPending (s : LoopState) : Bool :=
  match s.handler with
  | .signalling point => point.pending
  | _ => false

def LoopState.SignalPending (s : LoopState) : Prop :=
  s.netPending = true ∨ s.handlerPending = true

def LoopState.HasWork (s : LoopState) : Prop :=
  0 < s.queued ∨ s.quit = true

/-- Blocked without a time limit, with work to do and no signal to come. -/
def LostWakeup (s : LoopState) : Prop :=
  s.main = .blocked ∧ s.HasWork ∧ ¬ s.SignalPending

instance (s : LoopState) : Decidable s.SignalPending :=
  inferInstanceAs (Decidable (_ ∨ _))

instance (s : LoopState) : Decidable s.HasWork :=
  inferInstanceAs (Decidable (_ ∨ _))

instance (s : LoopState) : Decidable (LostWakeup s) :=
  inferInstanceAs (Decidable (_ ∧ _))

theorem wakeup_lost : ¬ ∀ s, loopMachine.Reachable s → ¬ LostWakeup s := by
  intro h
  refine h _ ⟨[.main 0, .main 0, .enqueue, .net, .net, .net, .main 0, .main 0],
    rfl⟩ ?_
  decide

/-! ## The steps that can lose one -/

/-- The loop has polled 0 and goes, or has gone, into the untimed wait. -/
def MainPoint.committed : MainPoint → Bool
  | .lock n => n = 0
  | .wait n => n = 0
  | .blocked => true
  | _ => false

/--
A signal is not sent between a poll that returned 0 and its wait while there
is work, a poll does not return 0 once `quit` is 1, and `quit` is not stored
between such a poll and the wakeup, unless in each case another thread still
has a signal to send.
-/
def Timely (s : LoopState) : LoopAct → Prop
  | .net =>
      s.net = some .signal → s.main = .lock 0 → s.HasWork →
        s.handlerPending = true
  | .handler =>
      (s.handler = .signalling .signal → s.main = .lock 0 → s.HasWork →
          s.netPending = true) ∧
        (s.handler = .storeQuit → s.main.committed = true →
          s.netPending = true)
  | .main nextEvent =>
      s.main = .poll → nextEvent = 0 → s.quit = true → s.SignalPending
  | _ => True

instance : ∀ (s : LoopState) (act : LoopAct), Decidable (Timely s act)
  | _, .net => inferInstanceAs (Decidable (_ → _ → _ → _))
  | _, .handler =>
      inferInstanceAs (Decidable ((_ → _ → _ → _) ∧ (_ → _ → _)))
  | _, .main _ => inferInstanceAs (Decidable (_ → _ → _ → _))
  | _, .timeout => .isTrue trivial
  | _, .enqueue => .isTrue trivial
  | _, .raise => .isTrue trivial

/-! ## What one step does -/

theorem signalEventLoop_cases {point : SignalPoint} {s t : LoopState}
    {rest : Option SignalPoint}
    (h : signalEventLoop point s = some (t, rest)) :
    (point = .lock ∧ s.mutexFree = true ∧ t = s ∧ rest = some .signal) ∨
      (point = .signal ∧ t = { s with main := s.main.signalled } ∧
        rest = some .unlock) ∨
      (point = .unlock ∧ t = s ∧ rest = none) := by
  cases point with
  | lock =>
      simp only [signalEventLoop, Option.ite_none_right_eq_some,
        Option.some.injEq, Prod.mk.injEq] at h
      exact .inl ⟨rfl, h.1, h.2.1.symm, h.2.2.symm⟩
  | signal =>
      simp only [signalEventLoop, Option.some.injEq, Prod.mk.injEq] at h
      exact .inr (.inl ⟨rfl, h.1.symm, h.2.symm⟩)
  | unlock =>
      simp only [signalEventLoop, Option.some.injEq, Prod.mk.injEq] at h
      exact .inr (.inr ⟨rfl, h.1.symm, h.2.symm⟩)

theorem netStep_cases {s t : LoopState} (h : netStep s = some t) :
    (s.net = some .lock ∧ s.mutexFree = true ∧
        t = { s with net := some .signal }) ∨
      (s.net = some .signal ∧
        t = { s with main := s.main.signalled, net := some .unlock }) ∨
      (s.net = some .unlock ∧ t = { s with net := none }) := by
  unfold netStep at h
  cases hnet : s.net with
  | none => simp [hnet] at h
  | some point =>
      simp only [hnet, Option.map_eq_some_iff] at h
      obtain ⟨⟨u, rest⟩, hsignal, rfl⟩ := h
      rcases signalEventLoop_cases hsignal with ⟨rfl, hfree, rfl, rfl⟩ |
        ⟨rfl, rfl, rfl⟩ | ⟨rfl, rfl, rfl⟩
      · exact .inl ⟨rfl, hfree, rfl⟩
      · exact .inr (.inl ⟨rfl, rfl⟩)
      · exact .inr (.inr ⟨rfl, rfl⟩)

theorem handlerStep_cases {s t : LoopState} (h : handlerStep s = some t) :
    (s.handler = .signalling .lock ∧ s.mutexFree = true ∧
        t = { s with handler := .signalling .signal }) ∨
      (s.handler = .signalling .signal ∧
        t = { s with
              main := s.main.signalled, handler := .signalling .unlock }) ∨
      (s.handler = .signalling .unlock ∧
        t = { s with handler := .storeQuit }) ∨
      (s.handler = .storeQuit ∧
        t = { s with handler := .idle, quit := true }) := by
  unfold handlerStep at h
  cases hhandler : s.handler with
  | idle => simp [hhandler] at h
  | signalling point =>
      simp only [hhandler, Option.map_eq_some_iff] at h
      obtain ⟨⟨u, rest⟩, hsignal, rfl⟩ := h
      rcases signalEventLoop_cases hsignal with ⟨rfl, hfree, rfl, rfl⟩ |
        ⟨rfl, rfl, rfl⟩ | ⟨rfl, rfl, rfl⟩
      · exact .inl ⟨rfl, hfree, rfl⟩
      · exact .inr (.inl ⟨rfl, rfl⟩)
      · exact .inr (.inr (.inl ⟨rfl, rfl⟩))
  | storeQuit =>
      simp only [hhandler, Option.some.injEq] at h
      exact .inr (.inr (.inr ⟨rfl, h.symm⟩))

/-! ## The invariant -/

structure Exclusive (s : LoopState) : Prop where
  mainNet : ¬ (s.main.holds = true ∧ s.netHolds = true)
  mainHandler : ¬ (s.main.holds = true ∧ s.handlerHolds = true)
  netHandler : ¬ (s.netHolds = true ∧ s.handlerHolds = true)

def Covered (s : LoopState) : Prop :=
  s.main.committed = true → s.HasWork → s.SignalPending

theorem netHolds_of_signal {s : LoopState} (h : s.net = some .signal) :
    s.netHolds = true := by
  simp [LoopState.netHolds, h, SignalPoint.holds]

theorem handlerHolds_of_signal {s : LoopState}
    (h : s.handler = .signalling .signal) : s.handlerHolds = true := by
  simp [LoopState.handlerHolds, h, SignalPoint.holds]

theorem signalled_holds (point : MainPoint) :
    point.signalled.holds = point.holds := by
  cases point <;> rfl

theorem mutexFree_iff (s : LoopState) :
    s.mutexFree = true ↔
      s.main.holds = false ∧ s.netHolds = false ∧ s.handlerHolds = false := by
  simp [LoopState.mutexFree, and_assoc]

theorem exclusive_main {s t : LoopState} {nextEvent : Nat}
    (hs : Exclusive s) (hnext : mainStep nextEvent s = some t) :
    Exclusive t := by
  obtain ⟨hnet, hhandler, hboth⟩ := hs
  unfold mainStep at hnext
  split at hnext
  case h_3 | h_7 =>
    -- Taking the mutex: nobody else holds it.
    simp only [Option.ite_none_right_eq_some, Option.some.injEq] at hnext
    obtain ⟨hfree, rfl⟩ := hnext
    obtain ⟨-, hnet', hhandler'⟩ := (mutexFree_iff s).mp hfree
    exact ⟨fun h => by simp_all [LoopState.netHolds],
      fun h => by simp_all [LoopState.handlerHolds], hboth⟩
  case h_5 | h_6 | h_9 => cases hnext
  all_goals
    -- Any other step leaves the loop without the mutex.
    cases hnext
    refine ⟨?_, ?_, hboth⟩
    all_goals
      rintro ⟨hmain, -⟩
      revert hmain
      dsimp only
      try split
      all_goals simp [MainPoint.holds]

theorem exclusive_net {s t : LoopState} (hs : Exclusive s)
    (hnext : netStep s = some t) : Exclusive t := by
  obtain ⟨hmn, hmh, hnh⟩ := hs
  rcases netStep_cases hnext with ⟨hnet, hfree, rfl⟩ | ⟨hnet, rfl⟩ |
    ⟨hnet, rfl⟩
  · obtain ⟨hmain, -, hhandler⟩ := (mutexFree_iff s).mp hfree
    refine ⟨fun h => ?_, hmh, fun h => ?_⟩
    · simp [hmain] at h
    · exact absurd h.2 (by simpa [LoopState.handlerHolds] using hhandler)
  · have hold := netHolds_of_signal hnet
    refine ⟨fun h => hmn ⟨?_, hold⟩, fun h => hmh ⟨?_, h.2⟩,
      fun h => hnh ⟨hold, h.2⟩⟩
    · exact (signalled_holds s.main).symm.trans h.1
    · exact (signalled_holds s.main).symm.trans h.1
  · exact ⟨fun h => by simp [LoopState.netHolds] at h, hmh,
      fun h => by simp [LoopState.netHolds] at h⟩

theorem exclusive_handler {s t : LoopState} (hs : Exclusive s)
    (hnext : handlerStep s = some t) : Exclusive t := by
  obtain ⟨hmn, hmh, hnh⟩ := hs
  rcases handlerStep_cases hnext with ⟨hhandler, hfree, rfl⟩ |
    ⟨hhandler, rfl⟩ | ⟨hhandler, rfl⟩ | ⟨hhandler, rfl⟩
  · obtain ⟨hmain, hnet, -⟩ := (mutexFree_iff s).mp hfree
    refine ⟨hmn, fun h => ?_, fun h => ?_⟩
    · simp [hmain] at h
    · exact absurd h.1 (by simpa [LoopState.netHolds] using hnet)
  · have hold := handlerHolds_of_signal hhandler
    refine ⟨fun h => hmn ⟨?_, h.2⟩, fun h => hmh ⟨?_, hold⟩,
      fun h => hnh ⟨h.1, hold⟩⟩
    · exact (signalled_holds s.main).symm.trans h.1
    · exact (signalled_holds s.main).symm.trans h.1
  · exact ⟨hmn, fun h => by simp [LoopState.handlerHolds] at h,
      fun h => by simp [LoopState.handlerHolds] at h⟩
  · exact ⟨hmn, fun h => by simp [LoopState.handlerHolds] at h,
      fun h => by simp [LoopState.handlerHolds] at h⟩

theorem exclusive_next {s t : LoopState} {act : LoopAct} (hs : Exclusive s)
    (hnext : s.next act = some t) : Exclusive t := by
  cases act with
  | main nextEvent => exact exclusive_main hs hnext
  | net => exact exclusive_net hs hnext
  | handler => exact exclusive_handler hs hnext
  | timeout =>
      simp only [LoopState.next, Option.ite_none_right_eq_some,
        Option.some.injEq] at hnext
      obtain ⟨-, rfl⟩ := hnext
      exact ⟨fun h => by simp [MainPoint.holds] at h,
        fun h => by simp [MainPoint.holds] at h, hs.netHandler⟩
  | enqueue =>
      simp only [LoopState.next, Option.ite_none_right_eq_some,
        Option.some.injEq] at hnext
      obtain ⟨-, rfl⟩ := hnext
      exact ⟨fun h => by simp [LoopState.netHolds, SignalPoint.holds] at h,
        hs.mainHandler,
        fun h => by simp [LoopState.netHolds, SignalPoint.holds] at h⟩
  | raise =>
      simp only [LoopState.next, Option.ite_none_right_eq_some,
        Option.some.injEq] at hnext
      obtain ⟨-, rfl⟩ := hnext
      exact ⟨hs.mainNet,
        fun h => by simp [LoopState.handlerHolds, SignalPoint.holds] at h,
        fun h => by simp [LoopState.handlerHolds, SignalPoint.holds] at h⟩

/-! ## What a timely step preserves -/

theorem committed_signalled {point : MainPoint}
    (h : point.signalled.committed = true) (hfree : point.holds = false) :
    point = .lock 0 := by
  cases point with
  | lock n =>
      simp only [MainPoint.signalled, MainPoint.committed,
        decide_eq_true_eq] at h
      rw [h]
  | wait n => simp [MainPoint.holds] at hfree
  | _ => simp [MainPoint.signalled, MainPoint.committed] at h

theorem committed_lock {n : Nat} (h : (MainPoint.lock n).committed = true) :
    n = 0 := by
  simpa [MainPoint.committed] using h

theorem covered_main {s t : LoopState} {nextEvent : Nat} (hs : Covered s)
    (htimely : Timely s (.main nextEvent))
    (hnext : mainStep nextEvent s = some t) : Covered t := by
  intro hcommitted hwork
  unfold mainStep at hnext
  split at hnext
  case h_1 =>
    cases hnext
    dsimp only at hcommitted
    split at hcommitted <;> simp [MainPoint.committed] at hcommitted
  case h_2 hmain =>
    -- A poll empties the queue, so the work left is `quit`.
    cases hnext
    have hquit : s.quit = true := by simpa [LoopState.HasWork] using hwork
    exact htimely hmain (committed_lock hcommitted) hquit
  case h_3 n hmain =>
    simp only [Option.ite_none_right_eq_some, Option.some.injEq] at hnext
    obtain ⟨-, rfl⟩ := hnext
    exact hs (by rw [hmain]; exact hcommitted) hwork
  case h_4 n hmain =>
    cases hnext
    refine hs ?_ hwork
    rw [hmain]
    by_cases hn : n = 0
    · simp [MainPoint.committed, hn]
    · simp [MainPoint.committed, hn] at hcommitted
  case h_7 =>
    simp only [Option.ite_none_right_eq_some, Option.some.injEq] at hnext
    obtain ⟨-, rfl⟩ := hnext
    simp [MainPoint.committed] at hcommitted
  case h_8 =>
    cases hnext
    simp [MainPoint.committed] at hcommitted
  all_goals cases hnext

theorem covered_net {s t : LoopState} (hexclusive : Exclusive s)
    (hs : Covered s) (htimely : Timely s .net) (hnext : netStep s = some t) :
    Covered t := by
  intro hcommitted hwork
  rcases netStep_cases hnext with ⟨hnet, -, rfl⟩ | ⟨hnet, rfl⟩ | ⟨hnet, rfl⟩
  · exact .inl rfl
  · have hheld := netHolds_of_signal hnet
    have hfree : s.main.holds = false :=
      Bool.eq_false_iff.mpr fun h => hexclusive.mainNet ⟨h, hheld⟩
    have hmain := committed_signalled hcommitted hfree
    exact .inr (htimely hnet hmain hwork)
  · rcases hs hcommitted hwork with hpending | hpending
    · simp [LoopState.netPending, hnet, SignalPoint.pending] at hpending
    · exact .inr hpending

theorem covered_handler {s t : LoopState} (hexclusive : Exclusive s)
    (hs : Covered s) (htimely : Timely s .handler)
    (hnext : handlerStep s = some t) : Covered t := by
  intro hcommitted hwork
  obtain ⟨hsignal, hquit⟩ := htimely
  rcases handlerStep_cases hnext with ⟨hhandler, -, rfl⟩ | ⟨hhandler, rfl⟩ |
    ⟨hhandler, rfl⟩ | ⟨hhandler, rfl⟩
  · exact .inr rfl
  · have hheld := handlerHolds_of_signal hhandler
    have hfree : s.main.holds = false :=
      Bool.eq_false_iff.mpr fun h => hexclusive.mainHandler ⟨h, hheld⟩
    have hmain := committed_signalled hcommitted hfree
    exact .inl (hsignal hhandler hmain hwork)
  · rcases hs hcommitted hwork with hpending | hpending
    · exact .inl hpending
    · simp [LoopState.handlerPending, hhandler, SignalPoint.pending]
        at hpending
  · exact .inl (hquit hhandler hcommitted)

theorem covered_next {s t : LoopState} {act : LoopAct}
    (hexclusive : Exclusive s) (hs : Covered s) (htimely : Timely s act)
    (hnext : s.next act = some t) : Covered t := by
  cases act with
  | main nextEvent => exact covered_main hs htimely hnext
  | net => exact covered_net hexclusive hs htimely hnext
  | handler => exact covered_handler hexclusive hs htimely hnext
  | timeout =>
      simp only [LoopState.next, Option.ite_none_right_eq_some,
        Option.some.injEq] at hnext
      obtain ⟨-, rfl⟩ := hnext
      intro hcommitted
      simp [MainPoint.committed] at hcommitted
  | enqueue =>
      simp only [LoopState.next, Option.ite_none_right_eq_some,
        Option.some.injEq] at hnext
      obtain ⟨-, rfl⟩ := hnext
      exact fun _ _ => .inl rfl
  | raise =>
      simp only [LoopState.next, Option.ite_none_right_eq_some,
        Option.some.injEq] at hnext
      obtain ⟨-, rfl⟩ := hnext
      exact fun _ _ => .inr rfl

theorem exclusive_of_reachable {s : LoopState}
    (hs : loopMachine.Reachable s) : Exclusive s :=
  hs.invariant ⟨by decide, by decide, by decide⟩ fun _ _ _ => exclusive_next

theorem timely_next {s t : LoopState} {act : LoopAct}
    (hs : Exclusive s ∧ Covered s) (htimely : Timely s act)
    (hnext : loopMachine.next s act = some t) : Exclusive t ∧ Covered t :=
  ⟨exclusive_next hs.1 hnext, covered_next hs.1 hs.2 htimely hnext⟩

theorem invariant_of_timely {labels : List LoopAct} {s : LoopState}
    (htimely : loopMachine.Throughout Timely loopMachine.start labels)
    (hrun : loopMachine.run labels = some s) : Exclusive s ∧ Covered s := by
  apply htimely.invariant (I := fun s => Exclusive s ∧ Covered s) ?_ ?_ hrun
  · exact fun s act t => timely_next
  · exact ⟨⟨by decide, by decide, by decide⟩, by unfold Covered; decide⟩

theorem Covered.not_lost {s : LoopState} (hs : Covered s) :
    ¬ LostWakeup s := by
  rintro ⟨hmain, hwork, hpending⟩
  exact hpending (hs (by rw [hmain]; rfl) hwork)

/-! ## What an untimely step leads to -/

theorem uncovered_of_untimely {s t : LoopState} {act : LoopAct}
    (huntimely : ¬ Timely s act) (hnext : s.next act = some t) :
    ¬ Covered t := by
  intro ht
  apply huntimely
  cases act with
  | main nextEvent =>
      intro hmain hzero hquit
      simp only [LoopState.next, mainStep, hmain, Option.some.injEq] at hnext
      rw [← hnext] at ht
      exact ht (by simp [MainPoint.committed, hzero]) (.inr hquit)
  | net =>
      intro hnet hmain hwork
      simp only [LoopState.next, netStep, hnet, signalEventLoop, hmain,
        Option.map_some, Option.some.injEq] at hnext
      rw [← hnext] at ht
      rcases ht rfl hwork with hpending | hpending
      · cases hpending
      · exact hpending
  | handler =>
      constructor
      · intro hhandler hmain hwork
        simp only [LoopState.next, handlerStep, hhandler, signalEventLoop,
          hmain, Option.map_some, Option.some.injEq] at hnext
        rw [← hnext] at ht
        rcases ht rfl hwork with hpending | hpending
        · exact hpending
        · cases hpending
      · intro hhandler hcommitted
        simp only [LoopState.next, handlerStep, hhandler,
          Option.some.injEq] at hnext
        rw [← hnext] at ht
        rcases ht hcommitted (.inr rfl) with hpending | hpending
        · exact hpending
        · cases hpending
  | _ => trivial

/-- A wakeup can be lost although every further step is timely. -/
def LeadsToLoss (s : LoopState) : Prop :=
  loopMachine.LeadsTo Timely LostWakeup s

/-- With the mutex free, a committed loop goes on into the untimed wait. -/
theorem leadsToLoss_of_free {s : LoopState}
    (hcommitted : s.main.committed = true) (hwork : s.HasWork)
    (hpending : ¬ s.SignalPending) (hnet : s.netHolds = false)
    (hhandler : s.handlerHolds = false) : LeadsToLoss s := by
  have blocked : ∀ u : LoopState, u.main = .blocked → u.HasWork →
      ¬ u.SignalPending → LeadsToLoss u := fun u hmain hwork hpending =>
    Machine.leadsTo_here ⟨hmain, hwork, hpending⟩
  have waiting : ∀ u : LoopState, u.main = .wait 0 → u.HasWork →
      ¬ u.SignalPending → LeadsToLoss u := by
    intro u hmain hwork hpending
    have hnext : u.next (.main 0) = some { u with main := .blocked } := by
      simp [LoopState.next, mainStep, hmain]
    have htimely : Timely u (.main 0) := by simp [Timely, hmain]
    exact Machine.leadsTo_of_next htimely hnext (blocked _ rfl hwork hpending)
  cases hmain : s.main with
  | lock n =>
      have hn : n = 0 := committed_lock (hmain ▸ hcommitted)
      subst hn
      have hfree : s.mutexFree = true :=
        (mutexFree_iff s).mpr ⟨by rw [hmain]; rfl, hnet, hhandler⟩
      have hnext : s.next (.main 0) = some { s with main := .wait 0 } := by
        simp [LoopState.next, mainStep, hmain, hfree]
      have htimely : Timely s (.main 0) := by simp [Timely, hmain]
      exact Machine.leadsTo_of_next htimely hnext
        (waiting _ rfl hwork hpending)
  | wait n =>
      have hn : n = 0 := by simpa [hmain, MainPoint.committed] using hcommitted
      exact waiting s (hn ▸ hmain) hwork hpending
  | blocked => exact blocked s hmain hwork hpending
  | _ => simp [hmain, MainPoint.committed] at hcommitted

theorem net_unlocks {s : LoopState} (hold : s.netHolds = true)
    (hpending : ¬ s.netPending = true) : s.net = some .unlock := by
  cases hnet : s.net with
  | none => simp [LoopState.netHolds, hnet] at hold
  | some point =>
      cases point with
      | lock => simp [LoopState.netHolds, hnet, SignalPoint.holds] at hold
      | signal =>
          simp [LoopState.netPending, hnet, SignalPoint.pending] at hpending
      | unlock => rfl

theorem handler_unlocks {s : LoopState} (hold : s.handlerHolds = true)
    (hpending : ¬ s.handlerPending = true) :
    s.handler = .signalling .unlock := by
  cases hhandler : s.handler with
  | idle => simp [LoopState.handlerHolds, hhandler] at hold
  | storeQuit => simp [LoopState.handlerHolds, hhandler] at hold
  | signalling point =>
      cases point with
      | lock =>
          simp [LoopState.handlerHolds, hhandler, SignalPoint.holds] at hold
      | signal =>
          simp [LoopState.handlerPending, hhandler, SignalPoint.pending]
            at hpending
      | unlock => rfl

theorem leadsToLoss_of_uncovered {s : LoopState} (hexclusive : Exclusive s)
    (huncovered : ¬ Covered s) : LeadsToLoss s := by
  simp only [Covered, Classical.not_imp] at huncovered
  obtain ⟨hcommitted, hwork, hpending⟩ := huncovered
  obtain ⟨hnetPending, hhandlerPending⟩ := not_or.mp hpending
  by_cases hnet : s.netHolds = true
  · have hpoint := net_unlocks hnet hnetPending
    have hnext : s.next .net = some { s with net := none } := by
      simp [LoopState.next, netStep, hpoint, signalEventLoop]
    have htimely : Timely s .net := by simp [Timely, hpoint]
    apply Machine.leadsTo_of_next htimely hnext
    apply leadsToLoss_of_free
    case hcommitted => exact hcommitted
    case hwork => exact hwork
    case hpending =>
      rintro (h | h)
      · cases h
      · exact hhandlerPending h
    case hnet => rfl
    case hhandler =>
      exact Bool.eq_false_iff.mpr fun h => hexclusive.netHandler ⟨hnet, h⟩
  · have hnet := Bool.eq_false_iff.mpr hnet
    by_cases hhandler : s.handlerHolds = true
    · have hpoint := handler_unlocks hhandler hhandlerPending
      have hnext : s.next .handler = some { s with handler := .storeQuit } := by
        simp [LoopState.next, handlerStep, hpoint, signalEventLoop,
          HandlerPoint.ofSignal]
      have htimely : Timely s .handler := by simp [Timely, hpoint]
      apply Machine.leadsTo_of_next htimely hnext
      apply leadsToLoss_of_free
      case hcommitted => exact hcommitted
      case hwork => exact hwork
      case hpending =>
        rintro (h | h)
        · exact hnetPending h
        · cases h
      case hnet => exact hnet
      case hhandler => rfl
    · exact leadsToLoss_of_free hcommitted hwork hpending hnet
        (Bool.eq_false_iff.mpr hhandler)

theorem leadsToLoss_of_untimely {s t : LoopState} {act : LoopAct}
    (hexclusive : Exclusive s) (huntimely : ¬ Timely s act)
    (hnext : loopMachine.next s act = some t) : LeadsToLoss t :=
  leadsToLoss_of_uncovered (exclusive_next hexclusive hnext)
    (uncovered_of_untimely huntimely hnext)

/--
A run whose steps are all timely loses no wakeup, and its next step is timely
exactly if no timely steps can lose one afterwards.  An untimely step of any
run is by itself enough to lose one.
-/
theorem timely_no_lost_wakeup {labels : List LoopAct} {s : LoopState}
    (hrun : loopMachine.run labels = some s) :
    (loopMachine.Throughout Timely loopMachine.start labels →
        ¬ LostWakeup s ∧ ∀ act t, loopMachine.next s act = some t →
          (Timely s act ↔ ¬ LeadsToLoss t)) ∧
      ∀ act t, ¬ Timely s act → loopMachine.next s act = some t →
        LeadsToLoss t := by
  have hexclusive := exclusive_of_reachable ⟨labels, hrun⟩
  constructor
  · intro htimely
    have hs := invariant_of_timely htimely hrun
    refine ⟨hs.2.not_lost, fun act t hnext => ?_⟩
    apply Machine.guard_iff_not_leadsTo
      (I := fun s => Exclusive s ∧ Covered s)
    case hstep => exact fun s act t => timely_next
    case hgood => exact fun s hs => hs.2.not_lost
    case himp => exact fun s act => id
    case hs => exact hs
    case hnext => exact hnext
    case hblame =>
      exact fun huntimely => leadsToLoss_of_untimely hexclusive huntimely hnext
  · exact fun act t huntimely hnext =>
      leadsToLoss_of_untimely hexclusive huntimely hnext

theorem blockedRun_no_lost_wakeup :
    ∃ s, loopMachine.run [.main 0, .main 0, .main 0, .main 0, .enqueue, .net]
        = some s ∧ s.main = .blocked ∧ ¬ LostWakeup s := by
  refine ⟨_, rfl, rfl, ?_⟩
  have hrun : loopMachine.run
      [.main 0, .main 0, .main 0, .main 0, .enqueue, .net] =
        some ⟨.blocked, some .signal, .idle, 1, false⟩ := rfl
  exact ((timely_no_lost_wakeup hrun).1 (by decide)).1

end EspIotivity.EventLoop
