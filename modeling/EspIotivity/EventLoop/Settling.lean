import EspIotivity.EventLoop.Wakeup
import Mathlib.Tactic

/-!
# Where the main loop comes to rest

Once no event, signal or timer is left to come, the threads finish what they
have begun.  No order of their steps goes on for ever or leaves one of them
waiting for the mutex, and what a lost wakeup has left undone is done with the
next event.
-/

namespace EspIotivity.EventLoop

open EspIotivity.Foundation

/-- Nothing comes in, and `oc_main_poll` finds no timer pending. -/
def LoopAct.Quiet : LoopAct → Prop
  | .main nextEvent => nextEvent = 0
  | .timeout => True
  | .enqueue => False
  | .net => True
  | .raise => False
  | .handler => True

instance : ∀ act : LoopAct, Decidable act.Quiet
  | .main nextEvent => inferInstanceAs (Decidable (nextEvent = 0))
  | .timeout => .isTrue trivial
  | .enqueue => .isFalse not_false
  | .net => .isTrue trivial
  | .raise => .isFalse not_false
  | .handler => .isTrue trivial

/-! ## How many quiet steps are left -/

/-- The way to the untimed wait; a timed wait still leads back to the poll. -/
def MainPoint.left : MainPoint → Nat
  | .blocked => 0
  | .shutdown => 0
  | .wait nextEvent => if nextEvent = 0 then 1 else 8
  | .lock nextEvent => if nextEvent = 0 then 2 else 9
  | .poll => 3
  | .testQuit => 4
  | .unlock => 5
  | .relock => 6
  | .blockedTimed => 7

/-- A signal can take the loop from its wait to the end of another round. -/
def SignalPoint.left : SignalPoint → Nat
  | .unlock => 1
  | .signal => 8
  | .lock => 9

def HandlerPoint.left : HandlerPoint → Nat
  | .idle => 0
  | .storeQuit => 1
  | .signalling point => point.left + 1

def LoopState.left (s : LoopState) : Nat :=
  s.main.left + s.net.elim 0 SignalPoint.left + s.handler.left

theorem left_signalled (point : MainPoint) :
    point.signalled.left ≤ point.left + 6 := by
  cases point <;> simp [MainPoint.signalled, MainPoint.left]

theorem mainStep_left {s t : LoopState} (h : mainStep 0 s = some t) :
    t.left < s.left := by
  obtain ⟨main, net, handler, queued, quit⟩ := s
  cases main with
  | testQuit =>
      cases h
      cases quit <;> simp [LoopState.left, MainPoint.left]
  | poll =>
      cases h
      simp [LoopState.left, MainPoint.left]
  | lock n =>
      simp only [mainStep, Option.ite_none_right_eq_some,
        Option.some.injEq] at h
      obtain ⟨-, rfl⟩ := h
      cases n <;> simp [LoopState.left, MainPoint.left]
  | wait n =>
      cases h
      cases n <;> simp [LoopState.left, MainPoint.left]
  | relock =>
      simp only [mainStep, Option.ite_none_right_eq_some,
        Option.some.injEq] at h
      obtain ⟨-, rfl⟩ := h
      simp [LoopState.left, MainPoint.left]
  | unlock =>
      cases h
      simp [LoopState.left, MainPoint.left]
  | blocked | blockedTimed | shutdown => cases h

theorem netStep_left {s t : LoopState} (h : netStep s = some t) :
    t.left < s.left := by
  have hmain := left_signalled s.main
  rcases netStep_cases h with ⟨hnet, -, rfl⟩ | ⟨hnet, rfl⟩ | ⟨hnet, rfl⟩ <;>
    simp only [LoopState.left, hnet, Option.elim_some, Option.elim_none,
      SignalPoint.left] <;>
    omega

theorem handlerStep_left {s t : LoopState} (h : handlerStep s = some t) :
    t.left < s.left := by
  have hmain := left_signalled s.main
  rcases handlerStep_cases h with ⟨hhandler, -, rfl⟩ | ⟨hhandler, rfl⟩ |
      ⟨hhandler, rfl⟩ | ⟨hhandler, rfl⟩ <;>
    simp only [LoopState.left, hhandler, HandlerPoint.left,
      SignalPoint.left] <;>
    omega

theorem quiet_left {s : LoopState} {act : LoopAct} {t : LoopState}
    (hquiet : act.Quiet) (hnext : loopMachine.next s act = some t) :
    t.left < s.left := by
  cases act with
  | main nextEvent =>
      cases hquiet
      exact mainStep_left hnext
  | timeout =>
      simp only [loopMachine, LoopState.next, Option.ite_none_right_eq_some,
        Option.some.injEq] at hnext
      obtain ⟨hmain, rfl⟩ := hnext
      simp [LoopState.left, MainPoint.left, hmain]
  | net => exact netStep_left hnext
  | handler => exact handlerStep_left hnext
  | enqueue | raise => cases hquiet

theorem left_le (s : LoopState) : s.left ≤ 28 := by
  obtain ⟨main, net, handler, queued, quit⟩ := s
  have hmain : main.left ≤ 9 := by
    cases main <;> simp only [MainPoint.left] <;> (try split) <;> omega
  have hsignal : ∀ point : SignalPoint, point.left ≤ 9 := by
    intro point
    cases point <;> simp [SignalPoint.left]
  have hnet : net.elim 0 SignalPoint.left ≤ 9 := by
    cases net with
    | none => simp
    | some point => exact hsignal point
  have hhandler : handler.left ≤ 10 := by
    cases handler with
    | idle | storeQuit => simp [HandlerPoint.left]
    | signalling point => exact Nat.succ_le_succ (hsignal point)
  simp only [LoopState.left]
  omega

/-! ## No thread is left waiting -/

/-- The other threads have returned, and the loop is blocked or has ended. -/
structure LoopState.Resting (s : LoopState) : Prop where
  net : s.net = none
  handler : s.handler = .idle
  main : s.main = .blocked ∨ s.main = .shutdown

/-- Whoever holds the mutex can go on. -/
theorem mutexFree_of_atRest {s : LoopState}
    (h : loopMachine.AtRest LoopAct.Quiet s) : s.mutexFree = true := by
  have hmain := h (.main 0) rfl
  have hnet := h .net trivial
  have hhandler := h .handler trivial
  simp only [loopMachine, LoopState.next, mainStep, netStep, handlerStep]
    at hmain hnet hhandler
  rw [mutexFree_iff]
  refine ⟨?_, ?_, ?_⟩
  · cases hpoint : s.main <;> simp_all [MainPoint.holds]
  · cases hpoint : s.net with
    | none => simp [LoopState.netHolds, hpoint]
    | some point =>
        cases point <;>
          simp_all [LoopState.netHolds, SignalPoint.holds, signalEventLoop]
  · cases hpoint : s.handler with
    | idle | storeQuit => simp [LoopState.handlerHolds, hpoint]
    | signalling point =>
        cases point <;>
          simp_all [LoopState.handlerHolds, SignalPoint.holds, signalEventLoop]

theorem atRest_iff (s : LoopState) :
    loopMachine.AtRest LoopAct.Quiet s ↔ s.Resting := by
  constructor
  · intro h
    have hfree := mutexFree_of_atRest h
    have hmain := h (.main 0) rfl
    have htimeout := h .timeout trivial
    have hnet := h .net trivial
    have hhandler := h .handler trivial
    simp only [loopMachine, LoopState.next, mainStep, netStep, handlerStep]
      at hmain htimeout hnet hhandler
    constructor
    case net =>
      cases hpoint : s.net with
      | none => rfl
      | some point => cases point <;> simp_all [signalEventLoop]
    case handler =>
      cases hpoint : s.handler with
      | idle => rfl
      | storeQuit => simp [hpoint] at hhandler
      | signalling point => cases point <;> simp_all [signalEventLoop]
    case main => cases hpoint : s.main <;> simp_all
  · rintro ⟨hnet, hhandler, hmain⟩ act hquiet
    cases act with
    | main nextEvent =>
        rcases hmain with hmain | hmain <;>
          simp [loopMachine, LoopState.next, mainStep, hmain]
    | timeout =>
        rcases hmain with hmain | hmain <;>
          simp [loopMachine, LoopState.next, hmain]
    | net => simp [loopMachine, LoopState.next, netStep, hnet]
    | handler => simp [loopMachine, LoopState.next, handlerStep, hhandler]
    | enqueue | raise => cases hquiet

/-! ## What is left undone -/

/-- Every event is handled, or the loop has ended as it was told to. -/
def LoopState.Settled (s : LoopState) : Prop :=
  if s.quit then s.main = .shutdown else s.main = .blocked ∧ s.queued = 0

/-- A step of the loop leaves the other threads and `quit` as they are. -/
structure MainStepped (s t : LoopState) : Prop where
  net : t.net = s.net
  handler : t.handler = s.handler
  quit : t.quit = s.quit
  poll : t.main = .poll → s.quit = false
  shutdown : t.main = .shutdown → s.quit = true

theorem mainStep_stepped {s t : LoopState} {nextEvent : Nat}
    (h : mainStep nextEvent s = some t) : MainStepped s t := by
  unfold mainStep at h
  split at h
  case h_1 =>
    cases h
    cases hquit : s.quit <;> constructor <;> simp [hquit]
  case h_2 | h_8 =>
    cases h
    constructor <;> simp
  case h_4 =>
    cases h
    constructor <;> simp only <;> split <;> simp
  case h_3 | h_7 =>
    simp only [Option.ite_none_right_eq_some, Option.some.injEq] at h
    obtain ⟨-, rfl⟩ := h
    constructor <;> simp
  case h_5 | h_6 | h_9 => cases h

theorem signalled_eq_shutdown {point : MainPoint} :
    point.signalled = .shutdown ↔ point = .shutdown := by
  cases point <;> simp [MainPoint.signalled]

theorem quit_of_shutdown {s : LoopState} (hs : loopMachine.Reachable s) :
    s.main = .shutdown → s.quit = true := by
  refine hs.invariant (I := fun s => s.main = .shutdown → s.quit = true)
    (by decide) ?_
  intro s act t hquit hnext hmain
  cases act with
  | main nextEvent =>
      have hstepped := mainStep_stepped hnext
      rw [hstepped.quit]
      exact hstepped.shutdown hmain
  | timeout | enqueue | raise =>
      simp only [loopMachine, LoopState.next, Option.ite_none_right_eq_some,
        Option.some.injEq] at hnext
      obtain ⟨-, rfl⟩ := hnext
      simp_all
  | net =>
      rcases netStep_cases hnext with ⟨-, -, rfl⟩ | ⟨-, rfl⟩ | ⟨-, rfl⟩
      · exact hquit hmain
      · exact hquit (signalled_eq_shutdown.mp hmain)
      · exact hquit hmain
  | handler =>
      rcases handlerStep_cases hnext with ⟨-, -, rfl⟩ | ⟨-, rfl⟩ |
        ⟨-, rfl⟩ | ⟨-, rfl⟩
      · exact hquit hmain
      · exact hquit (signalled_eq_shutdown.mp hmain)
      · exact hquit hmain
      · rfl

theorem LoopState.Resting.settled {s : LoopState} (h : s.Resting)
    (hcovered : Covered s) (hquit : s.main = .shutdown → s.quit = true) :
    s.Settled := by
  unfold LoopState.Settled
  rcases h.main with hmain | hmain
  · have hidle : ¬ s.SignalPending := by
      simp [LoopState.SignalPending, LoopState.netPending,
        LoopState.handlerPending, h.net, h.handler]
    have hdone : ¬ s.HasWork := fun hwork =>
      hidle (hcovered (by simp [hmain, MainPoint.committed]) hwork)
    simp only [LoopState.HasWork, not_or, Nat.not_lt, Nat.le_zero,
      Bool.not_eq_true] at hdone
    simp [hmain, hdone]
  · simp [hmain, hquit hmain]

/--
With nothing more to come in, no order of the threads' steps is longer than 28;
it can go on until the others have returned and the loop is blocked or has
ended, and then, if every step was timely, nothing is left undone.
-/
theorem loop_settles {before acts : List LoopAct} {s t : LoopState}
    (hbefore : loopMachine.run before = some s)
    (hquiet : ∀ act ∈ acts, act.Quiet)
    (hrun : loopMachine.runFrom s acts = some t) :
    acts.length ≤ 28 ∧
      (loopMachine.AtRest LoopAct.Quiet t ↔ t.Resting) ∧
      (∃ more u, (∀ act ∈ more, act.Quiet) ∧
        loopMachine.runFrom t more = some u ∧ u.Resting) ∧
      (loopMachine.Throughout Timely loopMachine.start (before ++ acts) →
        t.Resting → t.Settled) := by
  have hlength :=
    Machine.length_le_of_drop (fun _ _ _ => quiet_left) hquiet hrun
  have hbound := left_le s
  refine ⟨by omega, atRest_iff t, ?_, fun htimely hresting => ?_⟩
  · obtain ⟨more, u, hmore, hlater, hrest⟩ :=
      Machine.exists_atRest (M := loopMachine) (fun _ _ _ => quiet_left) t
    exact ⟨more, u, hmore, hlater, (atRest_iff u).mp hrest⟩
  · have hwhole := Machine.run_append hbefore hrun
    exact hresting.settled (invariant_of_timely htimely hwhole).2
      (quit_of_shutdown ⟨_, hwhole⟩)

/-- The network thread announces its event, and the loop goes one round. -/
def servingRun : List LoopAct :=
  [.net, .net, .net, .main 0, .main 0, .main 0, .main 0, .main 0, .main 0]

theorem servingRun_settles :
    servingRun.length ≤ 28 ∧
      (⟨.blocked, none, .idle, 0, false⟩ : LoopState).Settled := by
  have hbefore : loopMachine.run
      [.main 0, .main 0, .main 0, .main 0, .enqueue] =
        some ⟨.blocked, some .lock, .idle, 1, false⟩ := rfl
  have hrun : loopMachine.runFrom ⟨.blocked, some .lock, .idle, 1, false⟩
      servingRun = some ⟨.blocked, none, .idle, 0, false⟩ := rfl
  obtain ⟨hlength, -, -, hsettled⟩ := loop_settles hbefore (by decide) hrun
  exact ⟨hlength, hsettled (by decide) ⟨rfl, rfl, .inl rfl⟩⟩

/-! ## The next event -/

/-- While the one event of the network thread is announced and handled. -/
structure Serving (quit : Bool) (s : LoopState) : Prop where
  handler : s.handler = .idle
  signal : s.netPending = true → s.main = .blocked
  poll : s.main = .poll → quit = false
  quit : s.quit = quit

theorem Serving.timely {quit : Bool} {s : LoopState} {act : LoopAct}
    (h : Serving quit s) (hquiet : act.Quiet) : Timely s act := by
  cases act with
  | main nextEvent =>
      intro hpoll _ hquit
      rw [h.quit, h.poll hpoll] at hquit
      cases hquit
  | net =>
      intro hnet hlock
      have hblocked := h.signal (by
        simp [LoopState.netPending, hnet, SignalPoint.pending])
      rw [hlock] at hblocked
      cases hblocked
  | handler => simp [Timely, h.handler]
  | timeout => trivial
  | enqueue | raise => cases hquiet

theorem Serving.next {quit : Bool} {s t : LoopState} {act : LoopAct}
    (h : Serving quit s) (hquiet : act.Quiet)
    (hnext : loopMachine.next s act = some t) : Serving quit t := by
  cases act with
  | main nextEvent =>
      have hstepped := mainStep_stepped hnext
      constructor
      case handler => rw [hstepped.handler, h.handler]
      case signal =>
        intro hpending
        have hblocked := h.signal (by
          simpa [LoopState.netPending, hstepped.net] using hpending)
        simp [loopMachine, LoopState.next, mainStep, hblocked] at hnext
      case poll => exact fun hpoll => h.quit ▸ hstepped.poll hpoll
      case quit => rw [hstepped.quit, h.quit]
  | timeout =>
      simp only [loopMachine, LoopState.next, Option.ite_none_right_eq_some,
        Option.some.injEq] at hnext
      obtain ⟨hmain, rfl⟩ := hnext
      constructor
      case handler => exact h.handler
      case signal =>
        intro hpending
        have hblocked := h.signal hpending
        simp [hmain] at hblocked
      case poll => simp
      case quit => exact h.quit
  | net =>
      rcases netStep_cases hnext with
        ⟨hnet, -, rfl⟩ | ⟨hnet, rfl⟩ | ⟨hnet, rfl⟩
      · have hblocked := h.signal (by
          simp [LoopState.netPending, hnet, SignalPoint.pending])
        exact ⟨h.handler, fun _ => hblocked, h.poll, h.quit⟩
      · have hblocked := h.signal (by
          simp [LoopState.netPending, hnet, SignalPoint.pending])
        refine ⟨h.handler, ?_, ?_, h.quit⟩
        · simp [LoopState.netPending, SignalPoint.pending]
        · simp [hblocked, MainPoint.signalled]
      · refine ⟨h.handler, ?_, h.poll, h.quit⟩
        simp [LoopState.netPending]
  | handler =>
      simp [loopMachine, LoopState.next, handlerStep, h.handler] at hnext
  | enqueue | raise => cases hquiet

/-- A blocked loop, whatever it has missed, once the next event is queued. -/
theorem serving_enqueue {s t : LoopState} (hresting : s.Resting)
    (hblocked : s.main = .blocked)
    (hnext : loopMachine.next s .enqueue = some t) :
    Serving s.quit t ∧ Covered t := by
  simp only [loopMachine, LoopState.next, Option.ite_none_right_eq_some,
    Option.some.injEq] at hnext
  obtain ⟨-, rfl⟩ := hnext
  constructor
  · exact ⟨hresting.handler, fun _ => hblocked, by simp [hblocked], rfl⟩
  · exact fun _ _ => .inl rfl

/--
A loop that rests in its untimed wait, be it after a lost wakeup, handles what
it has missed with the next event, or ends if it has missed `quit`.
-/
theorem next_event_settles {s t : LoopState} {acts : List LoopAct}
    (hs : loopMachine.Reachable s) (hresting : s.Resting)
    (hblocked : s.main = .blocked) (hquiet : ∀ act ∈ acts, act.Quiet)
    (hrun : loopMachine.runFrom s (.enqueue :: acts) = some t)
    (hend : t.Resting) : t.quit = s.quit ∧ t.Settled := by
  obtain ⟨u, hnext, hrest⟩ := Option.bind_eq_some_iff.mp hrun
  have hfirst : s.next .enqueue = some u := hnext
  have hexclusive := exclusive_next (exclusive_of_reachable hs) hfirst
  obtain ⟨hserving, hcovered⟩ := serving_enqueue hresting hblocked hnext
  have hkept : Exclusive t ∧ Serving s.quit t ∧ Covered t := by
    apply Machine.Throughout.invariant (M := loopMachine)
      (P := fun _ act => act.Quiet)
      (I := fun u => Exclusive u ∧ Serving s.quit u ∧ Covered u) ?_
      ⟨hexclusive, hserving, hcovered⟩
      (Machine.throughout_of_mem (fun act hact _ => hquiet act hact) u) hrest
    intro v act w ⟨hexclusive, hserving, hcovered⟩ hact hstep
    exact ⟨exclusive_next hexclusive hstep, hserving.next hact hstep,
      covered_next hexclusive hcovered (hserving.timely hact) hstep⟩
  obtain ⟨before, hbefore⟩ := hs
  have hreach : loopMachine.Reachable t :=
    ⟨_, Machine.run_append hbefore hrun⟩
  exact ⟨hkept.2.1.quit, hend.settled hkept.2.2 (quit_of_shutdown hreach)⟩

/-- The signal comes between the poll and the lock, and is lost. -/
theorem lostRun_settles :
    LostWakeup ⟨.blocked, none, .idle, 1, false⟩ ∧
      (⟨.blocked, none, .idle, 0, false⟩ : LoopState).Settled := by
  have hlost : loopMachine.run
      [.main 0, .main 0, .enqueue, .net, .net, .net, .main 0, .main 0] =
        some ⟨.blocked, none, .idle, 1, false⟩ := rfl
  have hrun : loopMachine.runFrom ⟨.blocked, none, .idle, 1, false⟩
      (.enqueue :: servingRun) = some ⟨.blocked, none, .idle, 0, false⟩ := rfl
  refine ⟨by decide, ?_⟩
  exact (next_event_settles ⟨_, hlost⟩ ⟨rfl, rfl, .inl rfl⟩ rfl (by decide) hrun
    ⟨rfl, rfl, .inl rfl⟩).2

end EspIotivity.EventLoop
