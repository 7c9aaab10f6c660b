import EspIotivity.Foundation.LastWrite
import EspIotivity.Lightbulb.Bulb

/-!
# The light resource of the server

`post_light` walks the request payload and acts on each entry as it meets it:
a boolean goes into the local `state`, committed to `light_state` after the
walk, an integer is passed to `notify_lightbulb_state` at once, and any other
type ends the walk with a refusal.  Entry names are only printed and are left
out, as is the delay after a notification.
-/

namespace EspIotivity.Server

open EspIotivity.Foundation
open EspIotivity.Lightbulb

inductive RepValue where
  | boolean (value : Bool)
  | integer (value : Int)
  | other
  deriving DecidableEq, Repr

inductive OcStatus where
  | changed
  | badRequest
  deriving DecidableEq, Repr

/-- `rand` are the values the next calls of `rand()` return. -/
structure ServerState where
  lightState : Bool
  bulb : BulbState
  rand : Nat → Nat
  responses : List OcStatus

def ocSendResponse (status : OcStatus) (s : ServerState) : ServerState :=
  { s with responses := status :: s.responses }

def ServerState.notify (code : UInt32) (flashInterval : Int)
    (s : ServerState) : ServerState :=
  { s with
    bulb := notifyLightbulbState code flashInterval s.rand s.bulb
    rand := fun i => s.rand (i + randCalls code) }

/-- The `while (rep != NULL)` loop, with the local `state`. -/
def postLightLoop : List RepValue → Bool → ServerState → ServerState
  | [], state, s => { ocSendResponse .changed s with lightState := state }
  | .boolean value :: rest, _, s => postLightLoop rest value s
  | .integer value :: rest, state, s =>
      postLightLoop rest state (s.notify (UInt32.ofInt value) 0)
  | .other :: _, _, s => ocSendResponse .badRequest s

def postLight (payload : List RepValue) (s : ServerState) : ServerState :=
  postLightLoop payload false s

def putLight (payload : List RepValue) (s : ServerState) : ServerState :=
  postLight payload s

inductive LightMethod where
  | post
  | put
  deriving DecidableEq, Repr

def LightMethod.handle : LightMethod → List RepValue → ServerState → ServerState
  | .post => postLight
  | .put => putLight

theorem handle_eq (method : LightMethod) (payload : List RepValue)
    (s : ServerState) :
    method.handle payload s = postLightLoop payload false s := by
  cases method <;> rfl

def RefusesCleanly (method : LightMethod) (payload : List RepValue)
    (s : ServerState) : Prop :=
  (method.handle payload s).responses = .badRequest :: s.responses →
    (method.handle payload s).lightState = s.lightState ∧
      (method.handle payload s).bulb = s.bulb

/-! ## The notifications a walk makes -/

structure Notification where
  code : UInt32
  rand : Nat → Nat

def notifications : List RepValue → (Nat → Nat) → List Notification
  | [], _ => []
  | .boolean _ :: rest, rand => notifications rest rand
  | .integer value :: rest, rand =>
      let code := UInt32.ofInt value
      ⟨code, rand⟩ :: notifications rest fun i => rand (i + randCalls code)
  | .other :: _, _ => []

def notifyAll (calls : List Notification) (s : BulbState) : BulbState :=
  calls.foldl (fun s call => notifyLightbulbState call.code 0 call.rand s) s

theorem postLightLoop_bulb (payload : List RepValue) (state : Bool)
    (s : ServerState) :
    (postLightLoop payload state s).bulb =
      notifyAll (notifications payload s.rand) s.bulb := by
  induction payload generalizing state s with
  | nil => rfl
  | cons entry rest ih =>
      cases entry with
      | boolean value => exact ih value s
      | integer value => exact ih state (s.notify (UInt32.ofInt value) 0)
      | other => rfl

theorem postLightLoop_responses (payload : List RepValue) (state : Bool)
    (s : ServerState) :
    (postLightLoop payload state s).responses =
      (if .other ∈ payload then .badRequest else .changed) ::
        s.responses := by
  induction payload generalizing state s with
  | nil => rfl
  | cons entry rest ih =>
      cases entry with
      | boolean value => simpa [postLightLoop] using ih value s
      | integer value =>
          simpa [postLightLoop, ServerState.notify] using
            ih state (s.notify (UInt32.ofInt value) 0)
      | other => simp [postLightLoop, ocSendResponse]

theorem postLightLoop_lightState {payload : List RepValue}
    (hrefused : .other ∈ payload) (state : Bool) (s : ServerState) :
    (postLightLoop payload state s).lightState = s.lightState := by
  induction payload generalizing state s with
  | nil => simp at hrefused
  | cons entry rest ih =>
      cases entry with
      | boolean value => exact ih (by simpa using hrefused) value s
      | integer value =>
          exact ih (by simpa using hrefused) state
            (s.notify (UInt32.ofInt value) 0)
      | other => rfl

/-! ## What a sequence of notifications leaves -/

def lastSwitch (calls : List Notification) : Option Bool :=
  lastWrite (fun call => switchOf call.code) calls

def lastColour (calls : List Notification) : Option BulbColour :=
  lastWrite (fun call => colourOf call.code call.rand) calls

theorem notifyAll_setOn (calls : List Notification) (s : BulbState) :
    (notifyAll calls s).setOn = (lastSwitch calls).getD s.setOn :=
  foldl_lastWrite (fun s call => notify_setOn call.code 0 call.rand s) calls s

theorem notifyAll_colour (calls : List Notification) (s : BulbState) :
    (notifyAll calls s).colour = (lastColour calls).getD s.colour :=
  foldl_lastWrite (fun s call => notify_colour call.code 0 call.rand s) calls s

theorem notifyAll_flashInterval {calls : List Notification}
    (hcalls : calls ≠ []) (s : BulbState) :
    (notifyAll calls s).flashInterval = 0 := by
  induction calls generalizing s with
  | nil => exact absurd rfl hcalls
  | cons call calls ih =>
      cases calls with
      | nil => exact notify_flashInterval _ _ _ _
      | cons next calls => exact ih (by simp) _

/--
The notifications command what the bulb state already holds: no flashing, the
switch position of the last known code and the colour of the last colour code.
-/
def CommandsPresent (calls : List Notification) (s : BulbState) : Prop :=
  s.flashInterval = 0 ∧ (∀ on ∈ lastSwitch calls, on = s.setOn) ∧
    ∀ colour ∈ lastColour calls, colour = s.colour

theorem notifyAll_eq_iff (calls : List Notification) (s : BulbState) :
    notifyAll calls s = s ↔ calls = [] ∨ CommandsPresent calls s := by
  by_cases hcalls : calls = []
  · simp [hcalls, notifyAll]
  rw [bulbState_eq_iff, notifyAll_setOn, notifyAll_colour,
    notifyAll_flashInterval hcalls]
  have hlast : ∀ {β : Type} (last : Option β) (b : β),
      last.getD b = b ↔ ∀ x ∈ last, x = b := by
    intro β last b
    cases last <;> simp
  rw [hlast, hlast]
  simp only [hcalls, false_or, CommandsPresent]
  constructor
  · rintro ⟨hon, hcolour, hflash⟩
    exact ⟨hflash.symm, hon, hcolour⟩
  · rintro ⟨hflash, hon, hcolour⟩
    exact ⟨hon, hcolour, hflash.symm⟩

/--
A refusal is clean exactly when no integer entry stands before the first
unsupported entry, or when those that do command what is already there.
-/
theorem refusesCleanly_iff (method : LightMethod) (payload : List RepValue)
    (s : ServerState) :
    RefusesCleanly method payload s ↔
      (.other ∈ payload → notifications payload s.rand = [] ∨
        CommandsPresent (notifications payload s.rand) s.bulb) := by
  rw [RefusesCleanly, handle_eq, postLightLoop_responses, postLightLoop_bulb,
    notifyAll_eq_iff]
  by_cases hrefused : .other ∈ payload
  · simp [hrefused, postLightLoop_lightState hrefused]
  · simp [hrefused]

theorem refusesCleanly_fails :
    ¬ RefusesCleanly .post [.integer 1, .other]
      ⟨false, .boot, fun _ => 0, []⟩ := by
  intro h
  have hbulb := (h rfl).2
  revert hbulb
  decide +kernel

/-! ## What an accepted request does -/

inductive OcInterfaceMask where
  | baseline
  | rw
  | other
  deriving DecidableEq, Repr

/-- What `get_light` puts into the root object of its `OC_STATUS_OK`. -/
inductive RootEntry where
  | baselineInterface
  | state (value : Bool)
  deriving DecidableEq, Repr

def getLight (interface : OcInterfaceMask) (s : ServerState) :
    List RootEntry :=
  match interface with
  | .baseline => [.baselineInterface, .state s.lightState]
  | .rw => [.state s.lightState]
  | .other => []

def asBoolean : RepValue → Option Bool
  | .boolean value => some value
  | _ => none

def asInteger : RepValue → Option Int
  | .integer value => some value
  | _ => none

def lastBoolean (payload : List RepValue) : Option Bool :=
  lastWrite asBoolean payload

/-- `notify_lightbulb_state(value, 0)`, with the values left for `rand()`. -/
def notifyInteger (v : BulbState × (Nat → Nat)) (value : Int) :
    BulbState × (Nat → Nat) :=
  let code := UInt32.ofInt value
  (notifyLightbulbState code 0 v.2 v.1, fun i => v.2 (i + randCalls code))

structure AppliesPayload (method : LightMethod) (payload : List RepValue)
    (s : ServerState) : Prop where
  response : (method.handle payload s).responses = .changed :: s.responses
  bulb : ((method.handle payload s).bulb, (method.handle payload s).rand) =
    (payload.filterMap asInteger).foldl notifyInteger (s.bulb, s.rand)
  unknown : ∀ value ∈ payload.filterMap asInteger,
    BulbColor.ofCode (UInt32.ofInt value) = none → ∀ v,
      (notifyInteger v value).1 = { v.1 with flashInterval := 0 }
  lightState : (method.handle payload s).lightState =
    (lastBoolean payload).getD s.lightState
  report : ∀ interface, getLight interface (method.handle payload s) =
    getLight interface
      { s with lightState := (lastBoolean payload).getD s.lightState }

/-- The whole walk, when no entry ends it. -/
theorem postLightLoop_accepted {payload : List RepValue}
    (haccepted : .other ∉ payload) (state : Bool) (s : ServerState) :
    postLightLoop payload state s =
      let v := (payload.filterMap asInteger).foldl notifyInteger (s.bulb, s.rand)
      { lightState := (lastBoolean payload).getD state
        bulb := v.1
        rand := v.2
        responses := .changed :: s.responses } := by
  induction payload generalizing state s with
  | nil => rfl
  | cons entry rest ih =>
      rw [lastBoolean, lastWrite_cons]
      cases entry with
      | boolean value => exact ih (by simpa using haccepted) value s
      | integer value =>
          exact ih (by simpa using haccepted) state
            (s.notify (UInt32.ofInt value) 0)
      | other => exact absurd List.mem_cons_self haccepted

theorem lastBoolean_eq_none {payload : List RepValue} :
    lastBoolean payload = none ↔ ∀ value, .boolean value ∉ payload := by
  rw [lastBoolean, lastWrite, List.getLast?_eq_none_iff,
    List.filterMap_eq_nil_iff]
  constructor
  · intro h value hmem
    cases h _ hmem
  · intro h entry hmem
    cases entry with
    | boolean value => exact absurd hmem (h value)
    | integer value => rfl
    | other => rfl

theorem lastBoolean_getD_iff {payload : List RepValue} {old : Bool} :
    (lastBoolean payload).getD false = (lastBoolean payload).getD old ↔
      (∃ value, .boolean value ∈ payload) ∨ old = false := by
  cases hlast : lastBoolean payload with
  | none =>
      have hnone := lastBoolean_eq_none.mp hlast
      simp only [Option.getD_none, hnone, exists_false, false_or]
      exact eq_comm
  | some value =>
      have hsome : ∃ value, .boolean value ∈ payload := by
        by_contra h
        rw [lastBoolean_eq_none.mpr (not_exists.mp h)] at hlast
        cases hlast
      simp [hsome]

/--
Without a boolean entry the initial `state` is committed in place of what
`light_state` held.
-/
theorem appliesPayload_iff (method : LightMethod) {payload : List RepValue}
    (haccepted : .other ∉ payload) (s : ServerState) :
    AppliesPayload method payload s ↔
      (∃ value, .boolean value ∈ payload) ∨ s.lightState = false := by
  have hwalk := postLightLoop_accepted haccepted false s
  rw [← handle_eq method] at hwalk
  have hlight : (method.handle payload s).lightState =
      (lastBoolean payload).getD false := by
    rw [hwalk]
  rw [← lastBoolean_getD_iff]
  constructor
  · intro h
    rw [← hlight, h.lightState]
  · intro h
    have hstate := hlight.trans h
    constructor
    case response => rw [hwalk]
    case bulb => rw [hwalk]
    case unknown => exact fun value _ hnone v => notify_unknown hnone 0 v.2 v.1
    case lightState => exact hstate
    case report =>
      intro interface
      cases interface <;> simp [getLight, hstate]

theorem redRequest_applies :
    RepValue.other ∉ [RepValue.integer 1, .boolean true] ∧
      AppliesPayload .put [.integer 1, .boolean true]
        ⟨true, .boot, fun _ => 0, []⟩ := by
  refine ⟨by decide, ?_⟩
  exact (appliesPayload_iff .put (by decide) _).mpr (.inl ⟨true, by decide⟩)

theorem appliesPayload_fails :
    ¬ ∀ method payload s, .other ∉ payload →
      AppliesPayload method payload s := by
  intro h
  have hlight := (h .post [.integer 1] ⟨true, .boot, fun _ => 0, []⟩
    (by decide)).lightState
  revert hlight
  decide +kernel

end EspIotivity.Server
