import EspIotivity.Adapter.Types
import EspIotivity.Foundation.LastWrite
import Mathlib.Data.List.Infix
import Mathlib.Tactic

/-!
# From the first Wi-Fi event to the main loop

The event task runs `event_handler`, which sets and clears the bits of the event
group; `server_main` and `client_main` wait for these bits, ask for the
addresses and call `oc_main_init`.  The two handlers do not clear the same bits,
and the bits can be cleared again before the main task goes on.
-/

namespace EspIotivity.System

open EspIotivity.Adapter
open EspIotivity.Foundation

inductive App where
  | server
  | client
  deriving DecidableEq, Repr

inductive SystemEvent where
  | staStart
  | staGotIp
  | staDisconnected
  | staConnected
  | apStaGotIp6
  | other
  deriving DecidableEq, Repr

/-- The two bits, and how often `event_handler` made its other calls. -/
structure WifiState where
  ipv4Connected : Bool
  ipv6Connected : Bool
  connects : Nat
  linklocals : Nat
  deriving DecidableEq, Repr

def WifiState.boot : WifiState := ⟨false, false, 0, 0⟩

def eventHandler (app : App) (cfg : BuildConfig) (w : WifiState) :
    SystemEvent → WifiState
  | .staStart => { w with connects := w.connects + 1 }
  | .staGotIp => { w with ipv4Connected := true }
  | .staDisconnected =>
      { w with
        connects := w.connects + 1
        ipv4Connected := false
        ipv6Connected :=
          match app with
          | .server => if cfg.ocIpv4 then w.ipv6Connected else false
          | .client => false }
  | .staConnected =>
      if cfg.ocIpv4 then w else { w with linklocals := w.linklocals + 1 }
  | .apStaGotIp6 => { w with ipv6Connected := true }
  | .other => w

/-- The bits that `xEventGroupWaitBits` is to find set. -/
def WifiState.awaited (cfg : BuildConfig) (w : WifiState) : Bool :=
  w.ipv4Connected && (cfg.ocIpv4 || w.ipv6Connected)

/-! ## The main task -/

inductive StartCall where
  | getIpInfo
  | getIp6Linklocal
  | storageConfig (store : String)
  | setConResAnnounced (announced : Bool)
  | mainInit
  deriving DecidableEq, Repr

def App.store : App → String
  | .server => "./server_creds"
  | .client => "./client_creds"

def startCalls (app : App) (cfg : BuildConfig) : List StartCall :=
  [.getIpInfo] ++ (if cfg.ocIpv4 then [] else [.getIp6Linklocal]) ++
    (if cfg.ocSecurity then [.storageConfig app.store] else []) ++
    (if app = .client then [.setConResAnnounced false] else []) ++ [.mainInit]

/-- With no call left to make the main loop has begun. -/
inductive StartPoint where
  | begin
  | waiting
  | calling (rest : List StartCall)
  | hung
  | returned (result : Int)
  deriving DecidableEq, Repr

/-- `print_error` loops for ever; `oc_main_init` can end the task. -/
def StartCall.after (rest : List StartCall) (result : Int) :
    StartCall → StartPoint
  | .getIpInfo | .getIp6Linklocal =>
      if result = 0 then .calling rest else .hung
  | .storageConfig _ | .setConResAnnounced _ => .calling rest
  | .mainInit => if result < 0 then .returned result else .calling rest

structure StartState where
  wifi : WifiState
  point : StartPoint
  calls : List StartCall
  deriving DecidableEq, Repr

/-- A step of the main task carries what the call at hand returns. -/
inductive StartAct where
  | event (event : SystemEvent)
  | main (result : Int)
  deriving DecidableEq, Repr

/-- Where the wait leaves the task, when it finds the bits like this. -/
def waitBits (app : App) (cfg : BuildConfig) (w : WifiState) : StartPoint :=
  if w.awaited cfg then .calling (startCalls app cfg) else .waiting

/-- Setting a bit releases the task at once, whatever becomes of it later. -/
def StartState.handle (app : App) (cfg : BuildConfig) (event : SystemEvent)
    (s : StartState) : StartState :=
  let wifi := eventHandler app cfg s.wifi event
  { s with
    wifi
    point :=
      match s.point with
      | .waiting => waitBits app cfg wifi
      | point => point }

def startStep (app : App) (cfg : BuildConfig) (s : StartState) :
    StartAct → Option StartState
  | .event event => some (s.handle app cfg event)
  | .main result =>
      match s.point with
      | .begin => some { s with point := waitBits app cfg s.wifi }
      | .calling (call :: rest) =>
          some { s with
            point := call.after rest result
            calls := s.calls ++ [call] }
      | _ => none

def startMachine (app : App) (cfg : BuildConfig) :
    Machine StartState StartAct :=
  ⟨⟨.boot, .begin, []⟩, startStep app cfg⟩

/-! ## When the wait is over -/

def ipv4Write : StartAct → Option Bool
  | .event .staGotIp => some true
  | .event .staDisconnected => some false
  | _ => none

def ipv6Write : StartAct → Option Bool
  | .event .apStaGotIp6 => some true
  | .event .staDisconnected => some false
  | _ => none

/-- The addresses came after the last disconnection. -/
def Up (cfg : BuildConfig) (acts : List StartAct) : Prop :=
  lastWrite ipv4Write acts = some true ∧
    (cfg.ocIpv4 = false → lastWrite ipv6Write acts = some true)

def StartAct.IsMain (act : StartAct) : Prop := ∃ result, act = .main result

/-- At some moment after the main task had begun, the station was up. -/
def Released (cfg : BuildConfig) (acts : List StartAct) : Prop :=
  ∃ before, before <+: acts ∧ (∃ act ∈ before, act.IsMain) ∧ Up cfg before

def StartPoint.Past (point : StartPoint) : Prop :=
  point ≠ .begin ∧ point ≠ .waiting

variable {app : App} {cfg : BuildConfig}

theorem released_concat (acts : List StartAct) (act : StartAct) :
    Released cfg (acts ++ [act]) ↔ Released cfg acts ∨
      (∃ other ∈ acts ++ [act], other.IsMain) ∧ Up cfg (acts ++ [act]) := by
  constructor
  · rintro ⟨before, hbegun, hmain, hup⟩
    rcases List.prefix_concat_iff.mp hbegun with rfl | hold
    · exact .inr ⟨hmain, hup⟩
    · exact .inl ⟨before, hold, hmain, hup⟩
  · rintro (⟨before, hbegun, hmain, hup⟩ | ⟨hmain, hup⟩)
    · exact ⟨before, hbegun.trans (List.prefix_append _ _), hmain, hup⟩
    · exact ⟨_, List.prefix_rfl, hmain, hup⟩

/-! ## One step -/

theorem startStep_cases {s t : StartState} {act : StartAct}
    (hstep : startStep app cfg s act = some t) :
    (∃ event, act = .event event ∧ t = s.handle app cfg event) ∨
      ∃ result, act = .main result ∧
        (s.point = .begin ∧ t = { s with point := waitBits app cfg s.wifi } ∨
          ∃ call rest, s.point = .calling (call :: rest) ∧
            t = { s with
              point := call.after rest result
              calls := s.calls ++ [call] }) := by
  cases act with
  | event event =>
      cases hstep
      exact .inl ⟨event, rfl, rfl⟩
  | main result =>
      refine .inr ⟨result, rfl, ?_⟩
      simp only [startStep] at hstep
      split at hstep
      case h_1 hpoint =>
        cases hstep
        exact .inl ⟨hpoint, rfl⟩
      case h_2 call rest hpoint =>
        cases hstep
        exact .inr ⟨call, rest, hpoint, rfl⟩
      case h_3 => cases hstep

theorem after_past (call : StartCall) (rest : List StartCall) (result : Int) :
    (call.after rest result).Past := by
  cases call with
  | storageConfig | setConResAnnounced =>
      simp [StartCall.after, StartPoint.Past]
  | getIpInfo | getIp6Linklocal | mainInit =>
      simp only [StartCall.after]
      split <;> simp [StartPoint.Past]

theorem after_calling {call : StartCall} {rest left : List StartCall}
    {result : Int} (h : call.after rest result = .calling left) :
    left = rest := by
  cases call with
  | storageConfig | setConResAnnounced =>
      cases h
      rfl
  | getIpInfo | getIp6Linklocal | mainInit =>
      simp only [StartCall.after] at h
      split at h <;> cases h
      rfl

/-! ## The bits -/

theorem run_bits {acts : List StartAct} {s : StartState}
    (hrun : (startMachine app cfg).run acts = some s) :
    s.wifi.ipv4Connected = (lastWrite ipv4Write acts).getD false ∧
      (cfg.ocIpv4 = false →
        s.wifi.ipv6Connected = (lastWrite ipv6Write acts).getD false) := by
  refine Machine.run_induction (M := startMachine app cfg)
    (R := fun acts s =>
      s.wifi.ipv4Connected = (lastWrite ipv4Write acts).getD false ∧
        (cfg.ocIpv4 = false →
          s.wifi.ipv6Connected = (lastWrite ipv6Write acts).getD false))
    ⟨rfl, fun _ => rfl⟩ ?_ hrun
  rintro acts before act after - ⟨hipv4, hipv6⟩ hnext
  rw [lastWrite_concat, lastWrite_concat]
  rcases startStep_cases hnext with
    ⟨event, rfl, rfl⟩ | ⟨result, rfl, ⟨-, rfl⟩ | ⟨call, rest, -, rfl⟩⟩
  · cases event with
    | staGotIp => exact ⟨rfl, hipv6⟩
    | apStaGotIp6 => exact ⟨hipv4, fun _ => rfl⟩
    | staDisconnected =>
        refine ⟨rfl, fun h4 => ?_⟩
        cases app <;> simp [StartState.handle, eventHandler, ipv6Write, h4]
    | staConnected =>
        cases h4 : cfg.ocIpv4 <;>
          simp_all [StartState.handle, eventHandler, ipv4Write, ipv6Write]
    | staStart | other => exact ⟨hipv4, hipv6⟩
  · exact ⟨hipv4, hipv6⟩
  · exact ⟨hipv4, hipv6⟩

/-- In an IPv4 build the bit that the handlers treat differently is not read. -/
theorem awaited_iff {acts : List StartAct} {s : StartState}
    (hrun : (startMachine app cfg).run acts = some s) :
    s.wifi.awaited cfg = true ↔ Up cfg acts := by
  obtain ⟨hipv4, hipv6⟩ := run_bits hrun
  have hset : ∀ o : Option Bool, o.getD false = true ↔ o = some true := by
    intro o
    cases o <;> simp
  rw [WifiState.awaited, Up, hipv4, Bool.and_eq_true, hset]
  refine and_congr_right fun _ => ?_
  cases h4 : cfg.ocIpv4 with
  | true => simp
  | false => simp [hipv6 h4, hset]

/-! ## The main task -/

/-- Where the main task stands after the steps that were taken. -/
structure Started (app : App) (cfg : BuildConfig) (acts : List StartAct)
    (s : StartState) : Prop where
  begin : s.point = .begin ↔ ¬ ∃ act ∈ acts, act.IsMain
  past : s.point.Past ↔ Released cfg acts
  calls : s.calls <+: startCalls app cfg
  left : ∀ rest, s.point = .calling rest →
    s.calls ++ rest = startCalls app cfg
  unreleased : ¬ s.point.Past → s.calls = []

theorem not_isMain_event {event : SystemEvent} :
    ¬ (StartAct.event event).IsMain := by
  rintro ⟨result, h⟩
  cases h

theorem waitBits_past (w : WifiState) :
    (waitBits app cfg w).Past ↔ w.awaited cfg = true := by
  unfold waitBits
  split
  case isTrue h => simp [StartPoint.Past, h]
  case isFalse h => simp [StartPoint.Past, h]

section Step

variable {acts : List StartAct} {act : StartAct} {before after : StartState}

/-- A step that finds the task in the wait, or takes it there. -/
theorem Started.wait (h : Started app cfg acts before)
    (hbefore : ¬ before.point.Past)
    (hmain : ∃ other ∈ acts ++ [act], other.IsMain)
    (hup : after.wifi.awaited cfg = true ↔ Up cfg (acts ++ [act]))
    (hpoint : after.point = waitBits app cfg after.wifi)
    (hcalls : after.calls = before.calls) :
    Started app cfg (acts ++ [act]) after := by
  have hnone := h.unreleased hbefore
  have hnot := mt h.past.mpr hbefore
  constructor
  case begin =>
    refine iff_of_false ?_ (not_not_intro hmain)
    rw [hpoint, waitBits]
    split <;> exact nofun
  case past =>
    rw [released_concat, or_iff_right hnot, and_iff_right hmain, hpoint,
      waitBits_past, hup]
  case calls =>
    rw [hcalls, hnone]
    exact List.nil_prefix
  case left =>
    intro rest hrest
    rw [hpoint, waitBits] at hrest
    split at hrest
    case isTrue =>
      cases hrest
      rw [hcalls, hnone, List.nil_append]
    case isFalse => cases hrest
  case unreleased => exact fun _ => hcalls.trans hnone

/-- A step of a task that is past the wait, or not yet there. -/
theorem Started.stay (h : Started app cfg acts before)
    (hmain : (∃ other ∈ acts ++ [act], other.IsMain) ↔
      ∃ other ∈ acts, other.IsMain)
    (hpoint : after.point = before.point) (hcalls : after.calls = before.calls)
    (hplace : before.point ≠ .waiting) :
    Started app cfg (acts ++ [act]) after := by
  constructor
  case begin => rw [hpoint, hmain, h.begin]
  case past =>
    rw [hpoint, h.past, released_concat]
    refine (or_iff_left_of_imp fun hnow => ?_).symm
    rw [← h.past]
    exact ⟨fun hbegin => h.begin.mp hbegin (hmain.mp hnow.1), hplace⟩
  case calls => exact hcalls ▸ h.calls
  case left =>
    rw [hpoint, hcalls]
    exact h.left
  case unreleased =>
    rw [hpoint, hcalls]
    exact h.unreleased

/-- The task makes the next call. -/
theorem Started.call (h : Started app cfg acts before) {call : StartCall}
    {rest : List StartCall} {result : Int}
    (hbefore : before.point = .calling (call :: rest))
    (hpoint : after.point = call.after rest result)
    (hcalls : after.calls = before.calls ++ [call]) :
    Started app cfg (acts ++ [act]) after := by
  have hleft := h.left _ hbefore
  have hpast : before.point.Past := by
    rw [hbefore]
    exact ⟨nofun, nofun⟩
  have hafter : after.point.Past := hpoint ▸ after_past call rest result
  have hreleased := h.past.mp hpast
  constructor
  case begin =>
    refine iff_of_false hafter.1 (not_not_intro ?_)
    obtain ⟨first, hbegun, ⟨other, hother, hmain⟩, -⟩ := hreleased
    exact ⟨other, List.mem_append_left _ (hbegun.subset hother), hmain⟩
  case past =>
    exact iff_of_true hafter (released_concat _ _ |>.mpr (.inl hreleased))
  case calls =>
    rw [hcalls, ← hleft]
    exact ⟨rest, by simp⟩
  case left =>
    intro left hnext
    rw [hpoint] at hnext
    rw [after_calling hnext, hcalls, ← hleft, List.append_assoc]
    rfl
  case unreleased => exact fun hnot => absurd hafter hnot

end Step

theorem run_started {acts : List StartAct} {s : StartState}
    (hrun : (startMachine app cfg).run acts = some s) :
    Started app cfg acts s := by
  refine Machine.run_induction (M := startMachine app cfg)
    (R := Started app cfg) ?_ ?_ hrun
  · constructor
    case begin => simp [startMachine]
    case past =>
      refine iff_of_false (fun h => h.1 rfl) ?_
      rintro ⟨before, hbegun, ⟨other, hother, -⟩, -⟩
      rw [List.prefix_nil.mp hbegun] at hother
      cases hother
    case calls => exact List.nil_prefix
    case left => exact nofun
    case unreleased => exact fun _ => rfl
  intro acts before act after hbefore h hnext
  have hup := awaited_iff ((Machine.runFrom_concat _ act hbefore).trans hnext)
  rcases startStep_cases hnext with
    ⟨event, rfl, rfl⟩ | ⟨result, rfl, ⟨hpoint, rfl⟩ | ⟨call, rest, hpoint, rfl⟩⟩
  · have hmain : (∃ other ∈ acts ++ [.event event], other.IsMain) ↔
        ∃ other ∈ acts, other.IsMain := by
      simp [or_and_right, exists_or, not_isMain_event]
    by_cases hwaiting : before.point = .waiting
    · refine h.wait (fun hpast => hpast.2 hwaiting) ?_ hup ?_ rfl
      · rw [hmain]
        by_contra hnone
        exact absurd (h.begin.mpr hnone) (by simp [hwaiting])
      · simp only [StartState.handle, hwaiting]
    · refine h.stay hmain ?_ rfl hwaiting
      simp only [StartState.handle]
  · exact h.wait (fun hpast => hpast.1 hpoint)
      ⟨_, List.mem_append_right _ (List.mem_singleton_self _), result, rfl⟩
      hup rfl rfl
  · exact h.call hpoint rfl rfl

/--
The main task goes past the wait exactly if, at some moment after it had begun,
all awaited addresses had come since the last disconnection, however the bits
change afterwards and whichever handler runs; and then it makes its calls in
order, each once, the main loop beginning after the last.
-/
theorem startup_released {acts : List StartAct} {s : StartState}
    (hrun : (startMachine app cfg).run acts = some s) :
    (s.point.Past ↔ Released cfg acts) ∧
      s.calls <+: startCalls app cfg ∧ (s.calls ≠ [] → Released cfg acts) ∧
      (s.point = .calling [] → s.calls = startCalls app cfg) := by
  have h := run_started hrun
  refine ⟨h.past, h.calls, fun hcalls => ?_, fun hloop => ?_⟩
  · rw [← h.past]
    by_contra hnot
    exact hcalls (h.unreleased hnot)
  · rw [← h.left [] hloop, List.append_nil]

/-- The station is up for a moment, and gone again before the next call. -/
def briefly : List StartAct :=
  [.event .staStart, .main 0, .event .staConnected, .event .staGotIp,
    .event .staDisconnected, .event .staGotIp, .event .apStaGotIp6,
    .event .staDisconnected, .main 0]

theorem briefly_released : ∃ s,
    (startMachine .server ⟨false, false, false, false⟩).run briefly = some s ∧
      (s.point.Past ↔ Released ⟨false, false, false, false⟩ briefly) ∧
      s.calls <+: startCalls .server ⟨false, false, false, false⟩ ∧
      (s.calls ≠ [] → Released ⟨false, false, false, false⟩ briefly) ∧
      (s.point = .calling [] →
        s.calls = startCalls .server ⟨false, false, false, false⟩) := by
  have hsome : ((startMachine .server ⟨false, false, false, false⟩).run
      briefly).isSome := by decide
  obtain ⟨s, hrun⟩ := Option.isSome_iff_exists.mp hsome
  exact ⟨s, hrun, startup_released hrun⟩

end EspIotivity.System
