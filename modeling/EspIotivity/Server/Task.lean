import EspIotivity.Server.LightResource

/-!
# The server task, step by step

The task that runs `post_light` can be preempted anywhere.  Here its request
handler advances by one entry of the payload or by one store of the
`notify_lightbulb_state` call under way, so that another task may run in
between.  `ServerTask.finish` reads back what the rest of the walk will make of
the state; every step keeps it, and between two requests it is the state itself.
-/

namespace EspIotivity.Server

open EspIotivity.Foundation
open EspIotivity.Lightbulb

structure LightRequest where
  method : LightMethod
  payload : List RepValue
  deriving DecidableEq, Repr

def LightRequest.handle (s : ServerState) (request : LightRequest) :
    ServerState :=
  request.method.handle request.payload s

/-- The entries `rep` has not passed, and the local `state`. -/
structure Walk where
  rest : List RepValue
  state : Bool
  deriving DecidableEq, Repr

/-- `pending` are the stores of the notification under way. -/
structure ServerTask where
  server : ServerState
  walk : Option Walk
  pending : List BulbWrite

inductive ServerAct where
  | request (request : LightRequest)
  | step
  deriving DecidableEq, Repr

def ServerState.boot (rand : Nat → Nat) : ServerState :=
  ⟨false, .boot, rand, []⟩

def ServerTask.boot (rand : Nat → Nat) : ServerTask := ⟨.boot rand, none, []⟩

def ServerState.store (write : BulbWrite) (s : ServerState) : ServerState :=
  { s with bulb := write.store s.bulb }

/-- The call of `notify_lightbulb_state` for an integer entry. -/
def ServerTask.call (code : UInt32) (walk : Walk) (s : ServerState) :
    ServerTask where
  server := { s with rand := fun i => s.rand (i + randCalls code) }
  walk := some walk
  pending := notifyWrites code 0 s.rand

/-- What is done with the entry at hand; the walk ends with a response. -/
def ServerTask.advance (s : ServerState) : Walk → ServerTask
  | ⟨[], state⟩ =>
      ⟨{ ocSendResponse .changed s with lightState := state }, none, []⟩
  | ⟨.boolean value :: rest, _⟩ => ⟨s, some ⟨rest, value⟩, []⟩
  | ⟨.integer value :: rest, state⟩ =>
      .call (UInt32.ofInt value) ⟨rest, state⟩ s
  | ⟨.other :: _, _⟩ => ⟨ocSendResponse .badRequest s, none, []⟩

def ServerTask.step (s : ServerTask) : Option ServerTask :=
  match s.pending with
  | write :: pending =>
      some { s with server := s.server.store write, pending }
  | [] => s.walk.map (.advance s.server)

def ServerTask.begin (s : ServerTask) (request : LightRequest) :
    Option ServerTask :=
  match s.walk with
  | none => some { s with walk := some ⟨request.payload, false⟩ }
  | some _ => none

def ServerTask.next (s : ServerTask) : ServerAct → Option ServerTask
  | .request request => s.begin request
  | .step => s.step

def serverTask (rand : Nat → Nat) : Machine ServerTask ServerAct :=
  ⟨.boot rand, ServerTask.next⟩

def ServerAct.received : ServerAct → Option LightRequest
  | .request received => some received
  | .step => none

def requests (acts : List ServerAct) : List LightRequest :=
  acts.filterMap ServerAct.received

@[simp] theorem requests_request (acts : List ServerAct)
    (request : LightRequest) :
    requests (acts ++ [.request request]) = requests acts ++ [request] := by
  simp [requests, ServerAct.received]

@[simp] theorem requests_step (acts : List ServerAct) :
    requests (acts ++ [.step]) = requests acts := by
  simp [requests, ServerAct.received]

def served (rand : Nat → Nat) (requests : List LightRequest) : ServerState :=
  requests.foldl LightRequest.handle (.boot rand)

def LightRequest.answer (request : LightRequest) : OcStatus :=
  if .other ∈ request.payload then .badRequest else .changed

theorem served_concat (rand : Nat → Nat) (done : List LightRequest)
    (request : LightRequest) :
    served rand (done ++ [request]) = request.handle (served rand done) := by
  simp [served, List.foldl_append, LightRequest.handle]

/-! ## What one step does -/

theorem begin_eq {s t : ServerTask} {request : LightRequest}
    (hnext : s.begin request = some t) :
    s.walk = none ∧ t = { s with walk := some ⟨request.payload, false⟩ } := by
  cases hwalk : s.walk with
  | none =>
      simp only [ServerTask.begin, hwalk, Option.some.injEq] at hnext
      exact ⟨rfl, hnext.symm⟩
  | some walk => simp [ServerTask.begin, hwalk] at hnext

/-- A step makes the next store, or goes on to the next entry. -/
theorem step_cases {s t : ServerTask} (hnext : s.step = some t) :
    (∃ write pending, s.pending = write :: pending ∧
        t = { s with server := s.server.store write, pending }) ∨
      ∃ walk, s.pending = [] ∧ s.walk = some walk ∧
        t = .advance s.server walk := by
  cases hpending : s.pending with
  | cons write pending =>
      simp only [ServerTask.step, hpending, Option.some.injEq] at hnext
      exact .inl ⟨write, pending, rfl, hnext.symm⟩
  | nil =>
      simp only [ServerTask.step, hpending] at hnext
      obtain ⟨walk, hwalk, rfl⟩ := Option.map_eq_some_iff.mp hnext
      exact .inr ⟨walk, rfl, hwalk, rfl⟩

/-! ## Reading back the rest of a walk -/

def ServerState.storeAll (pending : List BulbWrite) (s : ServerState) :
    ServerState :=
  { s with bulb := Lightbulb.storeAll pending s.bulb }

def ServerTask.finish (s : ServerTask) : ServerState :=
  let server := s.server.storeAll s.pending
  match s.walk with
  | none => server
  | some walk => postLightLoop walk.rest walk.state server

theorem advance_finish (s : ServerState) (walk : Walk) :
    (ServerTask.advance s walk).finish =
      postLightLoop walk.rest walk.state s := by
  rcases walk with ⟨_ | ⟨entry, rest⟩, state⟩
  · rfl
  · cases entry with
    | boolean value => rfl
    | integer value => rfl
    | other => rfl

theorem step_finish {s t : ServerTask} (hnext : s.step = some t) :
    t.finish = s.finish := by
  rcases step_cases hnext with
    ⟨write, pending, hpending, rfl⟩ | ⟨walk, hpending, hwalk, rfl⟩
  · simp only [ServerTask.finish, hpending]
    rfl
  · rw [advance_finish]
    simp only [ServerTask.finish, hpending, hwalk]
    rfl

/-- Between requests no store is left to make. -/
structure ServerTask.Idle (s : ServerTask) : Prop where
  walk : s.walk = none
  pending : s.pending = []

instance (s : ServerTask) : Decidable s.Idle :=
  decidable_of_iff (s.walk.isNone ∧ s.pending = [])
    ⟨fun ⟨hwalk, hpending⟩ => ⟨Option.isNone_iff_eq_none.mp hwalk, hpending⟩,
      fun ⟨hwalk, hpending⟩ => ⟨Option.isNone_iff_eq_none.mpr hwalk, hpending⟩⟩

theorem Idle.finish {s : ServerTask} (hs : s.Idle) : s.finish = s.server := by
  simp only [ServerTask.finish, hs.walk, hs.pending]
  rfl

/-! ## Every run -/

/-- A call is made by a walk only. -/
def ServerTask.Walks (s : ServerTask) : Prop :=
  s.walk = none → s.pending = []

theorem next_walks {s t : ServerTask} {act : ServerAct} (hs : s.Walks)
    (hnext : s.next act = some t) : t.Walks := by
  cases act with
  | request request =>
      obtain ⟨-, rfl⟩ := begin_eq hnext
      exact fun hnone => nomatch hnone
  | step =>
      rcases step_cases hnext with
        ⟨write, pending, hpending, rfl⟩ | ⟨walk, hpending, hwalk, rfl⟩
      · intro hnone
        rw [hs hnone] at hpending
        cases hpending
      · rcases walk with ⟨_ | ⟨entry, rest⟩, state⟩
        · exact fun _ => rfl
        · cases entry with
          | integer value => exact fun hnone => nomatch hnone
          | boolean value | other => exact fun _ => rfl

theorem reachable_walks {rand : Nat → Nat} {s : ServerTask}
    (hs : (serverTask rand).Reachable s) : s.Walks :=
  hs.invariant (I := ServerTask.Walks) (fun _ => rfl)
    fun _ _ _ hbefore hnext => next_walks hbefore hnext

theorem begin_finish {s t : ServerTask} {request : LightRequest}
    (hs : s.Walks) (hnext : s.begin request = some t) :
    t.finish = request.handle s.finish := by
  obtain ⟨hwalk, rfl⟩ := begin_eq hnext
  have hpending := hs hwalk
  rw [LightRequest.handle, handle_eq, Idle.finish ⟨hwalk, hpending⟩]
  simp only [ServerTask.finish, hpending]
  rfl

theorem run_finish {rand : Nat → Nat} {acts : List ServerAct} {s : ServerTask}
    (hrun : (serverTask rand).run acts = some s) :
    s.finish = served rand (requests acts) := by
  refine Machine.run_induction (M := serverTask rand)
    (R := fun acts s =>
      s.finish = served rand (requests acts))
    rfl ?_ hrun
  intro acts before act after hbefore hfinish hnext
  cases act with
  | request request =>
      have hwalks := reachable_walks ⟨acts, hbefore⟩
      rw [requests_request, served_concat, ← hfinish]
      exact begin_finish hwalks hnext
  | step =>
      rw [requests_step, ← hfinish]
      exact step_finish hnext

/-- Between requests the state is what the handlers make of it one by one. -/
theorem run_idle {rand : Nat → Nat} {acts : List ServerAct} {s : ServerTask}
    (hrun : (serverTask rand).run acts = some s) (hidle : s.Idle) :
    s.server = served rand (requests acts) := by
  rw [← Idle.finish hidle]
  exact run_finish hrun

/-! ## A request is answered -/

/-- The steps a walk takes at most: a notification makes up to five stores. -/
def ServerTask.remaining (s : ServerTask) : Nat :=
  s.pending.length + (s.walk.map fun walk => 6 * walk.rest.length + 1).getD 0

theorem notifyWrites_length (code : UInt32) (flashInterval : Int)
    (rand : Nat → Nat) :
    (notifyWrites code flashInterval rand).length ≤ 5 := by
  unfold notifyWrites colorWrites
  split <;> simp

theorem advance_remaining (s : ServerState) (walk : Walk) :
    (ServerTask.advance s walk).remaining < 6 * walk.rest.length + 1 := by
  rcases walk with ⟨_ | ⟨entry, rest⟩, state⟩
  · exact Nat.zero_lt_one
  · cases entry with
    | boolean value => simp [ServerTask.advance, ServerTask.remaining]
    | integer value =>
        have hwrites := notifyWrites_length (UInt32.ofInt value) 0 s.rand
        simp [ServerTask.advance, ServerTask.call, ServerTask.remaining]
        omega
    | other => exact Nat.zero_lt_succ _

theorem step_remaining {s t : ServerTask} (hnext : s.step = some t) :
    t.remaining < s.remaining := by
  rcases step_cases hnext with
    ⟨write, pending, hpending, rfl⟩ | ⟨walk, hpending, hwalk, rfl⟩
  · simp [ServerTask.remaining, hpending]
  · have hadvance := advance_remaining s.server walk
    simpa [ServerTask.remaining, hpending, hwalk] using hadvance

/-- A task that is not idle can go on by itself. -/
theorem step_isSome {s : ServerTask} (hs : ¬ s.Idle) : s.step.isSome := by
  cases hpending : s.pending with
  | cons write pending => simp [ServerTask.step, hpending]
  | nil =>
      cases hwalk : s.walk with
      | none => exact absurd ⟨hwalk, hpending⟩ hs
      | some walk => simp [ServerTask.step, hpending, hwalk]

/-- By itself the server task comes to the end of what it is doing. -/
theorem task_ends (rand : Nat → Nat) (s : ServerTask) :
    ∃ k ≤ s.remaining, ∃ t,
      (serverTask rand).runFrom s (List.replicate k .step) = some t ∧
        t.Idle ∧ t.server = s.finish := by
  induction hn : s.remaining using Nat.strongRecOn generalizing s with
  | ind n ih =>
      by_cases hidle : s.Idle
      · exact ⟨0, Nat.zero_le _, s, rfl, hidle, (Idle.finish hidle).symm⟩
      obtain ⟨u, hstep⟩ := Option.isSome_iff_exists.mp (step_isSome hidle)
      have hless := step_remaining hstep
      obtain ⟨k, hk, t, hrun, hend, hserver⟩ :=
        ih u.remaining (hn ▸ hless) u rfl
      refine ⟨k + 1, by omega, t, ?_, hend, ?_⟩
      · rw [List.replicate_succ, Machine.runFrom_cons]
        change s.step.bind _ = _
        rw [hstep]
        exact hrun
      · rw [hserver, step_finish hstep]

theorem served_responses (rand : Nat → Nat) (done : List LightRequest) :
    (served rand done).responses =
      (done.map LightRequest.answer).reverse := by
  induction done using List.reverseRecOn with
  | nil => rfl
  | append_singleton done request ih =>
      rw [served_concat, LightRequest.handle, handle_eq,
        postLightLoop_responses, ih]
      simp [LightRequest.answer]

/-! ## The commands of the requests -/

/-- What the integer entries of all requests command, in order. -/
def commands (rand : Nat → Nat) (done : List LightRequest) :
    List Notification :=
  go done (.boot rand)
where
  go : List LightRequest → ServerState → List Notification
    | [], _ => []
    | request :: rest, s =>
        notifications request.payload s.rand ++ go rest (request.handle s)

theorem foldl_bulb (done : List LightRequest) (s : ServerState) :
    (done.foldl LightRequest.handle s).bulb =
      notifyAll (commands.go done s) s.bulb := by
  induction done generalizing s with
  | nil => rfl
  | cons request rest ih =>
      have hfirst : (request.handle s).bulb =
          notifyAll (notifications request.payload s.rand) s.bulb := by
        rw [LightRequest.handle, handle_eq, postLightLoop_bulb]
      rw [List.foldl_cons, ih, hfirst, commands.go, notifyAll, notifyAll,
        notifyAll, List.foldl_append]

/-- The last switch position and the last colour that are commanded remain. -/
theorem served_bulb (rand : Nat → Nat) (done : List LightRequest) :
    (served rand done).bulb.setOn =
        (lastSwitch (commands rand done)).getD false ∧
      (served rand done).bulb.colour =
        (lastColour (commands rand done)).getD BulbState.boot.colour := by
  rw [served, foldl_bulb]
  exact ⟨notifyAll_setOn _ _, notifyAll_colour _ _⟩

/-! ## What can be stored -/

/-- `post_light` commands colours in range, and no flashing. -/
def ServesWrite : BulbWrite → Prop
  | .flashInterval value => value = 0
  | write => write.InRange

structure ServerTask.Serves (s : ServerTask) : Prop where
  bulb : s.server.bulb.InRange
  flashInterval : s.server.bulb.flashInterval = 0
  pending : ∀ write ∈ s.pending, ServesWrite write

theorem notifyWrites_serves (code : UInt32) (rand : Nat → Nat) :
    ∀ write ∈ notifyWrites code 0 rand, ServesWrite write := by
  have hcolor := colorWrites_inRange code rand
  intro write hwrite
  rcases List.mem_append.mp hwrite with hmem | hflash
  · have hwrite := hcolor write hmem
    cases write with
    | flashInterval value =>
        unfold colorWrites at hmem
        split at hmem <;> simp at hmem
    | _ => exact hwrite
  · rw [List.mem_singleton.mp hflash]
    rfl

theorem store_serves {write : BulbWrite} {bulb : BulbState}
    (hwrite : ServesWrite write) (hbulb : bulb.InRange)
    (hflash : bulb.flashInterval = 0) :
    (write.store bulb).InRange ∧ (write.store bulb).flashInterval = 0 := by
  cases write with
  | flashInterval value => exact ⟨store_inRange trivial hbulb, hwrite⟩
  | _ => exact ⟨store_inRange hwrite hbulb, hflash⟩

theorem next_serves {s t : ServerTask} {act : ServerAct} (hs : s.Serves)
    (hnext : s.next act = some t) : t.Serves := by
  obtain ⟨hbulb, hflash, hpending⟩ := hs
  cases act with
  | request request =>
      obtain ⟨-, rfl⟩ := begin_eq hnext
      exact ⟨hbulb, hflash, hpending⟩
  | step =>
      rcases step_cases hnext with
        ⟨write, pending, hwrites, rfl⟩ | ⟨walk, -, -, rfl⟩
      · rw [hwrites, List.forall_mem_cons] at hpending
        obtain ⟨hstored, hzero⟩ := store_serves hpending.1 hbulb hflash
        exact ⟨hstored, hzero, hpending.2⟩
      · have hnone : ∀ write ∈ ([] : List BulbWrite), ServesWrite write := by
          simp
        rcases walk with ⟨_ | ⟨entry, rest⟩, state⟩
        · exact ⟨hbulb, hflash, hnone⟩
        · cases entry with
          | boolean value | other => exact ⟨hbulb, hflash, hnone⟩
          | integer value =>
              exact ⟨hbulb, hflash, notifyWrites_serves _ _⟩

theorem boot_serves (rand : Nat → Nat) : (ServerTask.boot rand).Serves :=
  ⟨boot_inRange, rfl, by simp [ServerTask.boot]⟩

end EspIotivity.Server
