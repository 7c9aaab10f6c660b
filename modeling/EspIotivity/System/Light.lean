import EspIotivity.Lightbulb.DaemonTask
import EspIotivity.Server.Task

/-!
# The light: requests, bulb state and LEDs

The server task stores into `s_bulb_state` while the daemon task reads it, with
nothing to order the two.  Requests still take effect one by one, the LEDs never
show anything out of range, and once no request is under way they come to show
what the requests command.
-/

namespace EspIotivity.System

open EspIotivity.Foundation
open EspIotivity.Lightbulb
open EspIotivity.Server

/-- The steps of the server task, and `none` for one of the daemon task. -/
def lightSystem (rand : Nat → Nat) :
    Machine (ServerTask × DaemonTask) (Option ServerAct) :=
  (serverTask rand).observed .start fun s d => d.step s.server.bulb

/-- The daemon reads once before each step of a request for red. -/
def redRun : List (Option ServerAct) :=
  some (.request ⟨.post, [.integer 1, .boolean true]⟩) ::
    (List.replicate 8 [none, some .step]).flatten

theorem redRun_ends : ∃ s, (lightSystem fun _ => 0).run redRun = some s ∧
    s.1.Idle := by
  have hends : ((lightSystem fun _ => 0).run redRun).any
      (fun s => decide s.1.Idle) = true := by
    decide +kernel
  obtain ⟨s, hrun, hidle⟩ := (Option.any_eq_true _ _).mp hends
  exact ⟨s, hrun, of_decide_eq_true hidle⟩

/-! ## Requests one by one -/

/--
Whatever the daemon does in between: when the server task is idle, its state and
its answers are those of the requests handled one after the other; and from any
other moment its own next steps make it so.
-/
theorem requests_atomic {rand : Nat → Nat} {acts : List (Option ServerAct)}
    {s : ServerTask × DaemonTask}
    (hrun : (lightSystem rand).run acts = some s) :
    let done := requests acts.reduceOption
    (served rand done).responses = (done.map LightRequest.answer).reverse ∧
      (s.1.Idle → s.1.server = served rand done) ∧
      ∃ k ≤ s.1.remaining, ∀ later : List (Option ServerAct),
        later.reduceOption = List.replicate k .step →
        ∃ t, (lightSystem rand).runFrom s later = some t ∧ t.1.Idle ∧
          t.1.server = served rand done := by
  intro done
  have hserver := Machine.observed_run hrun
  refine ⟨served_responses rand done, fun hidle => run_idle hserver hidle, ?_⟩
  obtain ⟨k, hk, t, hsteps, hidle, hfinish⟩ := task_ends rand s.1
  refine ⟨k, hk, fun later hlater => ?_⟩
  rw [← hlater] at hsteps
  obtain ⟨d, hrest⟩ := Machine.exists_observed hsteps
  exact ⟨(t, d), hrest, hidle, hfinish.trans (run_finish hserver)⟩

theorem redRun_atomic : ∃ s, (lightSystem fun _ => 0).run redRun = some s ∧
    let done := requests redRun.reduceOption
    (served (fun _ => 0) done).responses =
        (done.map LightRequest.answer).reverse ∧
      (s.1.Idle → s.1.server = served (fun _ => 0) done) ∧
      ∃ k ≤ s.1.remaining, ∀ later : List (Option ServerAct),
        later.reduceOption = List.replicate k .step →
        ∃ t, (lightSystem fun _ => 0).runFrom s later = some t ∧ t.1.Idle ∧
          t.1.server = served (fun _ => 0) done := by
  obtain ⟨s, hrun, -⟩ := redRun_ends
  exact ⟨s, hrun, requests_atomic hrun⟩

/-! ## The LEDs at any moment -/

/--
The lamp is lit with the colour that the driver has stored or is black, no
channel was ever driven above 49 percent, and no blackout is commanded.
-/
structure LightSafe (s : ServerTask × DaemonTask) : Prop where
  bulb : s.1.server.bulb.InRange
  inStep : s.2.lamp.InStep
  duties : ∀ d ∈ s.2.lamp.duties, d.AtMost modestDuty
  flashInterval : s.1.server.bulb.flashInterval = 0

theorem light_keeps {rand : Nat → Nat} {s : ServerTask × DaemonTask}
    (hs : (lightSystem rand).Reachable s) :
    s.1.Serves ∧ s.2.lamp.Modest :=
  Machine.observed_invariant (I := ServerTask.Serves)
    (J := fun d : DaemonTask => d.lamp.Modest) (boot_serves rand)
    (fun _ _ _ hbefore hnext => next_serves hbefore hnext) init_modest
    (fun _ _ hserver hd => step_modest hserver.bulb hd) hs

/-- Torn reads included, in every interleaving of the two tasks. -/
theorem light_safe {rand : Nat → Nat} {s : ServerTask × DaemonTask}
    (hs : (lightSystem rand).Reachable s) : LightSafe s := by
  obtain ⟨hserves, hlamp⟩ := light_keeps hs
  exact ⟨hserves.bulb, hlamp.steady.inStep, hlamp.duties,
    hserves.flashInterval⟩

theorem redRun_safe : ∃ s, (lightSystem fun _ => 0).Reachable s ∧
    LightSafe s := by
  obtain ⟨s, hrun, -⟩ := redRun_ends
  exact ⟨s, ⟨redRun, hrun⟩, light_safe ⟨redRun, hrun⟩⟩

/-! ## The LEDs at rest -/

def BulbColour.duties (colour : BulbColour) : Option Duties :=
  Hsp.duties ⟨UInt16.ofInt (truncate colour.hueValue),
    UInt16.ofInt (truncate colour.saturationValue),
    UInt16.ofInt colour.brightnessValue⟩

/-- What the requests command in the end. -/
def commanded (calls : List Notification) : Option Duties :=
  if (lastSwitch calls).getD false then
    BulbColour.duties ((lastColour calls).getD BulbState.boot.colour)
  else some dark

theorem served_shown (rand : Nat → Nat) (done : List LightRequest) :
    (served rand done).bulb.shown = commanded (commands rand done) := by
  obtain ⟨hswitch, hcolour⟩ := served_bulb rand done
  rw [commanded, ← hswitch, ← hcolour]
  rfl

/-- Between requests the daemon alone is left to run. -/
theorem rest_settles {rand : Nat → Nat} {acts : List (Option ServerAct)}
    {s : ServerTask × DaemonTask}
    (hrun : (lightSystem rand).run acts = some s) (hidle : s.1.Idle)
    {steps : Nat} (hsteps : 8 ≤ steps) :
    ∃ lamp point,
      (lightSystem rand).runFrom s (List.replicate steps none) =
          some (s.1, ⟨point, lamp⟩) ∧
        Settled (served rand (requests acts.reduceOption)).bulb lamp := by
  obtain ⟨hserves, -⟩ := light_keeps ⟨acts, hrun⟩
  have hsettled :=
    steps_settled hserves.bulb hserves.flashInterval s.2 hsteps
  refine ⟨_, _, Machine.observed_rest s steps, ?_⟩
  rw [← run_idle (Machine.observed_run hrun) hidle]
  exact hsettled

/--
Once no request is under way, the daemon has the LEDs show the last switch
position and the last colour of all requests within two passes, and keeps them.
-/
theorem light_settles {rand : Nat → Nat} {acts : List (Option ServerAct)}
    {s : ServerTask × DaemonTask}
    (hrun : (lightSystem rand).run acts = some s) (hidle : s.1.Idle)
    {steps : Nat} (hsteps : 8 ≤ steps) :
    ∃ lamp point,
      (lightSystem rand).runFrom s (List.replicate steps none) =
          some (s.1, ⟨point, lamp⟩) ∧
        lamp.duties.head? =
          commanded (commands rand (requests acts.reduceOption)) := by
  obtain ⟨lamp, point, hrest, hsettled⟩ := rest_settles hrun hidle hsteps
  rw [← served_shown]
  exact ⟨lamp, point, hrest, hsettled.shows⟩

theorem redRun_settles : ∃ s, (lightSystem fun _ => 0).run redRun = some s ∧
    ∃ lamp point,
      (lightSystem fun _ => 0).runFrom s (List.replicate 8 none) =
          some (s.1, ⟨point, lamp⟩) ∧
        lamp.duties.head? = some ⟨1638, 0, 0⟩ := by
  obtain ⟨s, hrun, hidle⟩ := redRun_ends
  obtain ⟨lamp, point, hrest, hshows⟩ := light_settles hrun hidle le_rfl
  refine ⟨s, hrun, lamp, point, hrest, hshows.trans ?_⟩
  decide +kernel

end EspIotivity.System
