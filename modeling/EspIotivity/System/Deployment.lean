import EspIotivity.Foundation.Refinement
import EspIotivity.System.Exchange

/-!
# The light as it is deployed

The client, the network, the server task that can be preempted within a request
and the daemon task, all together.  It refines the exchange in which a request
is handled in one step, so that what was proved there holds here, and it comes
to rest with the LEDs showing what the client asked for.
-/

namespace EspIotivity.System

open EspIotivity.Client
open EspIotivity.Foundation
open EspIotivity.Lightbulb
open EspIotivity.Server

/-- `accept` starts the handler of a POST that has arrived. -/
inductive TaskMove where
  | report (interface : OcInterfaceMask)
  | accept (packet : Nat)
  | step
  | daemon
  deriving DecidableEq, Repr

/-- The server task reports between two requests. -/
def taskMove (rand : Nat → Nat) : TaskMove → List LightPacket →
    ServerTask × DaemonTask →
      Option ((ServerTask × DaemonTask) × List LightPacket)
  | .report interface, _, s =>
      if s.1.Idle then
        some (s, [.notification
          ((getLight interface s.1.server).map RootEntry.value)])
      else none
  | .accept packet, sent, s =>
      match sent[packet]? with
      | some (.post root) =>
          ((lightSystem rand).next s
            (some (.request ⟨.post, root.map Prod.snd⟩))).map (·, [])
      | _ => none
  | .step, _, s => ((lightSystem rand).next s (some .step)).map (·, [])
  | .daemon, _, s => ((lightSystem rand).next s none).map (·, [])

abbrev DeployedState (Endpoints : Type) : Party → Type
  | .server => ServerTask × DaemonTask
  | .client => ClientState Endpoints

abbrev DeployedMove (Endpoints : Type) : Party → Type
  | .server => TaskMove
  | .client => ClientMove Endpoints

def deployed (Endpoints : Type) (enableLight : Bool) (rand : Nat → Nat) :
    Network (DeployedState Endpoints) LightPacket
      (DeployedMove Endpoints) where
  start
    | .server => (lightSystem rand).start
    | .client => .boot
  step
    | .server => taskMove rand
    | .client => clientMove enableLight

/-! ## Refinement -/

/-- What the rest of a request will make of the server's state. -/
def atomicView (Endpoints : Type) : ∀ n, DeployedState Endpoints n →
    PartyState Endpoints n
  | .server, s => s.1.finish
  | .client, s => s

def atomicMove (Endpoints : Type) : ∀ n, DeployedMove Endpoints n →
    Option (PartyMove Endpoints n)
  | .server, .report interface => some (.report interface)
  | .server, .accept packet => some (.handle packet)
  | .server, .step | .server, .daemon => none
  | .client, move => some move

def atomicLabel (Endpoints : Type) (label : Σ n, DeployedMove Endpoints n) :
    Option (Σ n, PartyMove Endpoints n) :=
  (atomicMove Endpoints label.1 label.2).map (Sigma.mk label.1)

def TaskWalks (Endpoints : Type) : ∀ n, DeployedState Endpoints n → Prop
  | .server, s => s.1.Walks
  | .client, _ => True

variable {Endpoints : Type} {enableLight : Bool} {rand : Nat → Nat}

theorem task_next {s t : ServerTask × DaemonTask} {act : ServerAct}
    (hnext : (lightSystem rand).next s (some act) = some t) :
    s.1.next act = some t.1 :=
  (Machine.observed_step hnext).1

theorem taskMove_cases {move : TaskMove} {sent out : List LightPacket}
    {s t : ServerTask × DaemonTask}
    (hmove : taskMove rand move sent s = some (t, out)) :
    (∃ interface, move = .report interface ∧ s.1.Idle ∧ t = s ∧
        out = [.notification
          ((getLight interface s.1.server).map RootEntry.value)]) ∨
      (∃ packet root, move = .accept packet ∧
        sent[packet]? = some (.post root) ∧ out = [] ∧
        (lightSystem rand).next s
          (some (.request ⟨.post, root.map Prod.snd⟩)) = some t) ∨
      (move = .step ∧ out = [] ∧
        (lightSystem rand).next s (some .step) = some t) ∨
      (move = .daemon ∧ out = [] ∧
        (lightSystem rand).next s none = some t) := by
  cases move with
  | report interface =>
      simp only [taskMove] at hmove
      split at hmove
      case isTrue hidle =>
        cases hmove
        exact .inl ⟨interface, rfl, hidle, rfl, rfl⟩
      case isFalse => cases hmove
  | accept packet =>
      simp only [taskMove] at hmove
      split at hmove
      case h_1 root hpacket =>
        obtain ⟨u, hnext, hresult⟩ := Option.map_eq_some_iff.mp hmove
        cases hresult
        exact .inr (.inl ⟨packet, root, rfl, hpacket, rfl, hnext⟩)
      case h_2 => cases hmove
  | step =>
      obtain ⟨u, hnext, hresult⟩ := Option.map_eq_some_iff.mp hmove
      cases hresult
      exact .inr (.inr (.inl ⟨rfl, rfl, hnext⟩))
  | daemon =>
      cases hmove
      exact .inr (.inr (.inr ⟨rfl, rfl, rfl⟩))

theorem deployed_refines :
    Network.PartyRefines (deployed Endpoints enableLight rand)
      (exchange Endpoints enableLight rand) (atomicView Endpoints)
      (atomicMove Endpoints) (TaskWalks Endpoints) := by
  constructor
  case start =>
    intro n
    cases n <;> rfl
  case first =>
    intro n
    cases n with
    | server => exact fun _ => rfl
    | client => trivial
  case keeps =>
    intro n move sent s t out hs hstep
    cases n with
    | client => trivial
    | server =>
        rcases taskMove_cases hstep with
          ⟨-, -, -, rfl, -⟩ | ⟨packet, root, -, -, -, hnext⟩ |
          ⟨-, -, hnext⟩ | ⟨-, -, hnext⟩
        · exact hs
        · exact next_walks hs (task_next hnext)
        · exact next_walks hs (task_next hnext)
        · cases hnext
          exact hs
  case stutters =>
    intro n move sent s t out hs hstep hact
    cases n with
    | client => cases hact
    | server =>
        rcases taskMove_cases hstep with
          ⟨interface, rfl, -, -, -⟩ | ⟨packet, root, rfl, -, -, -⟩ |
          ⟨rfl, rfl, hnext⟩ | ⟨rfl, rfl, hnext⟩
        · cases hact
        · cases hact
        · exact ⟨step_finish (task_next hnext), rfl⟩
        · cases hnext
          exact ⟨rfl, rfl⟩
  case steps =>
    intro n move sent s t out b hs hstep hact
    cases n with
    | client =>
        cases hact
        exact hstep
    | server =>
        rcases taskMove_cases hstep with
          ⟨interface, rfl, hidle, rfl, rfl⟩ |
          ⟨packet, root, rfl, hpacket, rfl, hnext⟩ | ⟨rfl, -, -⟩ | ⟨rfl, -, -⟩
        · cases hact
          change serverMove (.report interface) sent t.1.finish =
            some (t.1.finish, _)
          rw [Idle.finish hidle]
          rfl
        · cases hact
          change serverMove (.handle packet) sent s.1.finish =
            some (t.1.finish, [])
          rw [begin_finish hs (task_next hnext)]
          simp only [serverMove, hpacket]
          rfl
        · cases hact
        · cases hact

theorem deployed_machine :
    (deployed Endpoints enableLight rand).machine.Refines
      (exchange Endpoints enableLight rand).machine
      (World.view (atomicView Endpoints)) (atomicLabel Endpoints)
      (fun world => ∀ n, TaskWalks Endpoints n (world.parties n)) :=
  deployed_refines.machine

@[simp] theorem view_server
    (world : World (DeployedState Endpoints) LightPacket) :
    (world.view (atomicView Endpoints)).parties .server =
      (world.parties .server).1.finish := rfl

/-- The server by itself: the client stays as it is, and nothing is sent. -/
theorem deployed_alone {move : TaskMove} {act : Option ServerAct}
    (hmove : ∀ sent s, taskMove rand move sent s =
      ((lightSystem rand).next s act).map (·, []))
    {world : World (DeployedState Endpoints) LightPacket} {k : Nat}
    {t : ServerTask × DaemonTask}
    (hrun : (lightSystem rand).runFrom (world.parties .server)
      (List.replicate k act) = some t) :
    (deployed Endpoints enableLight rand).machine.runFrom world
        (List.replicate k ⟨.server, move⟩) =
      some { world with
        parties := Function.update world.parties .server t } := by
  induction k generalizing world with
  | zero =>
      cases hrun
      rw [Function.update_eq_self]
      rfl
  | succ k ih =>
      obtain ⟨u, hnext, hrest⟩ := Option.bind_eq_some_iff.mp hrun
      have hstep : (deployed Endpoints enableLight rand).machine.next world
          ⟨.server, move⟩ = some { world with
            parties := Function.update world.parties .server u } := by
        change (taskMove rand move world.sent (world.parties .server)).map _ = _
        rw [hmove, hnext]
        simp
      rw [List.replicate_succ, Machine.runFrom_cons, hstep, Option.bind_some]
      have hlast := @ih { world with
        parties := Function.update world.parties .server u }
        (by simpa using hrest)
      simpa using hlast

/--
Every run is a run of the exchange in which requests are handled in one step:
the client and what was sent are the same, and so is the server's state between
two requests, to which the server task comes by itself from anywhere else.
-/
theorem deployed_atomic {labels : List (Σ n, DeployedMove Endpoints n)}
    {world : World (DeployedState Endpoints) LightPacket}
    (hrun : (deployed Endpoints enableLight rand).machine.run labels =
      some world) :
    ∃ atomic, (exchange Endpoints enableLight rand).machine.run
          (labels.filterMap (atomicLabel Endpoints)) = some atomic ∧
      atomic.sent = world.sent ∧
      atomic.parties .client = world.parties .client ∧
      ((world.parties .server).1.Idle →
        (world.parties .server).1.server = atomic.parties .server) ∧
      ∃ k ≤ (world.parties .server).1.remaining, ∃ after,
        (deployed Endpoints enableLight rand).machine.runFrom world
            (List.replicate k ⟨.server, .step⟩) = some after ∧
          (after.parties .server).1.Idle ∧
          (after.parties .server).1.server = atomic.parties .server := by
  obtain ⟨-, hatomic⟩ := deployed_machine.run hrun
  refine ⟨_, hatomic, rfl, rfl, fun hidle => (Idle.finish hidle).symm, ?_⟩
  obtain ⟨k, hk, t, hsteps, hidle, hserver⟩ :=
    task_ends rand (world.parties .server).1
  have hreduce : (List.replicate k (some ServerAct.step)).reduceOption =
      List.replicate k .step := by
    simp [List.reduceOption]
  rw [← hreduce] at hsteps
  obtain ⟨d, hlight⟩ := Machine.exists_observed hsteps
  refine ⟨k, hk, _, deployed_alone (fun _ _ => rfl) hlight, ?_⟩
  simpa using And.intro hidle hserver

/-- A POST and the steps of its handler, with the daemon in between. -/
def handling (packet : Nat) : List (Σ n, DeployedMove Unit n) :=
  ⟨.server, .accept packet⟩ ::
    (List.replicate 26 [⟨.server, .daemon⟩, ⟨.server, .step⟩]).flatten

/-- A report that is answered twice, and both POSTs. -/
def deployedRun : List (Σ n, DeployedMove Unit n) :=
  [⟨.server, .report .rw⟩, ⟨.client, .notified 0 true⟩,
    ⟨.client, .notified 0 true⟩] ++ handling 1 ++ handling 2

theorem deployedRun_ends : ∃ world,
    (deployed Unit true fun _ => 7).machine.run deployedRun = some world ∧
      (world.parties .server).1.Idle := by
  have hends : ((deployed Unit true fun _ => 7).machine.run deployedRun).any
      (fun world => decide (world.parties .server).1.Idle) = true := by
    decide +kernel
  obtain ⟨world, hrun, hidle⟩ := (Option.any_eq_true _ _).mp hends
  exact ⟨world, hrun, of_decide_eq_true hidle⟩

theorem deployedRun_atomic : ∃ world,
    (deployed Unit true fun _ => 7).machine.run deployedRun = some world ∧
    ∃ atomic, (exchange Unit true fun _ => 7).machine.run
          (deployedRun.filterMap (atomicLabel Unit)) = some atomic ∧
      atomic.sent = world.sent ∧
      atomic.parties .client = world.parties .client ∧
      ((world.parties .server).1.Idle →
        (world.parties .server).1.server = atomic.parties .server) ∧
      ∃ k ≤ (world.parties .server).1.remaining, ∃ after,
        (deployed Unit true fun _ => 7).machine.runFrom world
            (List.replicate k ⟨.server, .step⟩) = some after ∧
          (after.parties .server).1.Idle ∧
          (after.parties .server).1.server = atomic.parties .server := by
  obtain ⟨world, hrun, -⟩ := deployedRun_ends
  exact ⟨world, hrun, deployed_atomic hrun⟩

/-! ## Rounds -/

/--
Apart from the steps of the two tasks it is a round of the exchange, and at its
end no request is under way.
-/
def IsDeployedRound (enableLight : Bool) (rand : Nat → Nat)
    (before after : World (DeployedState Endpoints) LightPacket) : Prop :=
  ∃ interface labels moves, interface ≠ .other ∧
    (∀ move ∈ moves, Fresh before.sent.length move) ∧
    (∃ move ∈ moves, Handles move) ∧
    labels.filterMap (atomicLabel Endpoints) =
      ⟨.server, .report interface⟩ :: moves ∧
    (deployed Endpoints enableLight rand).machine.runFrom before labels =
      some after ∧
    (after.parties .server).1.Idle

inductive DeployedRounds (enableLight : Bool) (rand : Nat → Nat) : Nat →
    World (DeployedState Endpoints) LightPacket →
    World (DeployedState Endpoints) LightPacket → Prop where
  | none (world) : DeployedRounds enableLight rand 0 world world
  | next {n before between after} :
      DeployedRounds enableLight rand n before between →
      IsDeployedRound enableLight rand between after →
      DeployedRounds enableLight rand (n + 1) before after

theorem deployedRound_view
    {before after : World (DeployedState Endpoints) LightPacket}
    (hbefore : (before.parties .server).1.Idle)
    (h : IsDeployedRound enableLight rand before after) :
    IsRound enableLight rand (before.view (atomicView Endpoints))
      (after.view (atomicView Endpoints)) := by
  obtain ⟨interface, labels, moves, hinterface, hfresh, hhandled, hlabels,
    hrun, -⟩ := h
  have hwalks : ∀ n, TaskWalks Endpoints n (before.parties n) := by
    intro n
    cases n with
    | client => trivial
    | server => exact fun _ => hbefore.pending
  obtain ⟨-, hatomic⟩ := deployed_machine.runFrom hwalks hrun
  rw [hlabels] at hatomic
  exact ⟨interface, moves, hinterface, hfresh, hhandled, hatomic⟩

theorem deployedRounds_view {n : Nat}
    {before after : World (DeployedState Endpoints) LightPacket}
    (hbefore : (before.parties .server).1.Idle)
    (h : DeployedRounds enableLight rand n before after) :
    (after.parties .server).1.Idle ∧
      Rounds enableLight rand n (before.view (atomicView Endpoints))
        (after.view (atomicView Endpoints)) := by
  induction h with
  | none => exact ⟨hbefore, .none _⟩
  | next hrounds hround ih =>
      obtain ⟨hbetween, hviews⟩ := ih hbefore
      obtain ⟨-, -, -, -, -, -, -, -, hidle⟩ := id hround
      exact ⟨hidle, .next hviews (deployedRound_view hbetween hround)⟩

/-- However the daemon runs in between, each round switches the light once. -/
theorem deployed_alternates {n : Nat}
    {before after : World (DeployedState Endpoints) LightPacket}
    (hbefore : (before.parties .server).1.Idle)
    (h : DeployedRounds enableLight rand n before after) :
    (after.parties .server).1.server.lightState =
      ((before.parties .server).1.server.lightState ^^ n.bodd) := by
  obtain ⟨hafter, hviews⟩ := deployedRounds_view hbefore h
  have halternate := rounds_alternate hviews
  rwa [view_server, view_server, Idle.finish hbefore,
    Idle.finish hafter] at halternate

theorem deployedRun_alternates : ∃ after,
    DeployedRounds true (fun _ => 7) 1
        ⟨(deployed Unit true fun _ => 7).start, []⟩ after ∧
      (after.parties .server).1.server.lightState =
        (false ^^ Nat.bodd 1) := by
  obtain ⟨after, hrun, hidle⟩ := deployedRun_ends
  have hround : IsDeployedRound true (fun _ => 7)
      ⟨(deployed Unit true fun _ => 7).start, []⟩ after :=
    ⟨.rw, deployedRun,
      [⟨.client, .notified 0 true⟩, ⟨.client, .notified 0 true⟩,
        ⟨.server, .handle 1⟩, ⟨.server, .handle 2⟩],
      by decide, by simp [Fresh], ⟨_, by simp, 1, rfl⟩, rfl, hrun, hidle⟩
  have hrounds := DeployedRounds.next (.none _) hround
  exact ⟨after, hrounds, deployed_alternates ⟨rfl, rfl⟩ hrounds⟩

/-! ## The LEDs in the end -/

/-- The server task has been given the client's POSTs and nothing else. -/
def TaskPosted (Endpoints : Type) (enableLight : Bool) (rand : Nat → Nat) :
    ∀ n, DeployedState Endpoints n → Prop
  | .server, s => ∃ acts, (lightSystem rand).run acts = some s ∧
      ∀ request ∈ requests acts.reduceOption, IsPosted enableLight request
  | .client, _ => True

theorem run_next {acts : List (Option ServerAct)} {act : Option ServerAct}
    {s t : ServerTask × DaemonTask}
    (hrun : (lightSystem rand).run acts = some s)
    (hnext : (lightSystem rand).next s act = some t) :
    (lightSystem rand).run (acts ++ [act]) = some t :=
  (Machine.runFrom_concat _ act hrun).trans hnext

theorem deployed_posts : (deployed Endpoints enableLight rand).StepKeeps
    (TaskPosted Endpoints enableLight rand) (PacketOrderly enableLight) := by
  intro n move sent s t out hs hsent hstep
  cases n with
  | client =>
      refine ⟨trivial, fun p hp => ?_⟩
      rcases clientMove_cases hstep with
        ⟨rfl, -⟩ | ⟨packet, initPost, payload, -, -, -, hout⟩
      · exact absurd hp List.not_mem_nil
      · rw [hout p hp]
        exact ⟨t.lightState, rfl⟩
  | server =>
      obtain ⟨acts, hrun, hposted⟩ := hs
      rcases taskMove_cases hstep with
        ⟨interface, -, -, rfl, rfl⟩ |
        ⟨packet, root, -, hpacket, rfl, hnext⟩ |
        ⟨-, rfl, hnext⟩ | ⟨-, rfl, hnext⟩
      · exact ⟨⟨acts, hrun, hposted⟩, by simp [PacketOrderly]⟩
      · obtain ⟨reported, rfl⟩ := hsent _ (List.mem_of_getElem? hpacket)
        refine ⟨⟨_, run_next hrun hnext, ?_⟩, by simp⟩
        rw [List.reduceOption_append, List.reduceOption_singleton,
          Option.toList_some, requests_request, List.forall_mem_append]
        exact ⟨hposted, List.forall_mem_singleton.mpr ⟨reported, rfl⟩⟩
      · refine ⟨⟨_, run_next hrun hnext, ?_⟩, by simp⟩
        simpa [List.reduceOption_append] using hposted
      · refine ⟨⟨_, run_next hrun hnext, ?_⟩, by simp⟩
        simpa [List.reduceOption_append] using hposted

/--
In every run, once no request is under way, the LEDs come to rest within two
passes of the daemon: black without `ENABLE_LIGHT` or before the first POST, and
otherwise in one of the pale colours, whatever `light_state` says.
-/
theorem deployed_settles {world : World (DeployedState Endpoints) LightPacket}
    (hworld : (deployed Endpoints enableLight rand).machine.Reachable world)
    (hidle : (world.parties .server).1.Idle) {steps : Nat}
    (hsteps : 8 ≤ steps) :
    ∃ lamp point,
      (deployed Endpoints enableLight rand).machine.runFrom world
          (List.replicate steps ⟨.server, .daemon⟩) =
        some { world with
          parties := Function.update world.parties .server
            ((world.parties .server).1, ⟨point, lamp⟩) } ∧
      if enableLight ∧ (world.parties .server).1.server.responses ≠ [] then
        ∃ hue saturation brightness : Nat, hue < 360 ∧ saturation < 50 ∧
          brightness < 50 ∧ lamp.duties.head? = Hsp.duties ⟨UInt16.ofNat hue,
            UInt16.ofNat saturation, UInt16.ofNat brightness⟩
      else lamp.Shows dark := by
  have hstart : ∀ n, TaskPosted Endpoints enableLight rand n
      ((deployed Endpoints enableLight rand).start n) := by
    intro n
    cases n with
    | client => trivial
    | server => exact ⟨[], rfl, fun _ hnone => absurd hnone List.not_mem_nil⟩
  obtain ⟨acts, hrun, hposted⟩ :=
    (Network.reachable_keeps hstart deployed_posts hworld).parties .server
  obtain ⟨lamp, point, hrest, hlamp⟩ :=
    posted_lamp hrun hidle hposted hsteps
  refine ⟨lamp, point, deployed_alone (fun _ _ => rfl) hrest, ?_⟩
  have hserved := run_idle (Machine.observed_run hrun) hidle
  rw [hserved, served_responses]
  simpa using hlamp

theorem deployedRun_settles : ∃ world,
    (deployed Unit true fun _ => 7).machine.Reachable world ∧
    ∃ lamp point,
      (deployed Unit true fun _ => 7).machine.runFrom world
          (List.replicate 8 ⟨.server, .daemon⟩) =
        some { world with
          parties := Function.update world.parties .server
            ((world.parties .server).1, ⟨point, lamp⟩) } ∧
      if true ∧ (world.parties .server).1.server.responses ≠ [] then
        ∃ hue saturation brightness : Nat, hue < 360 ∧ saturation < 50 ∧
          brightness < 50 ∧ lamp.duties.head? = Hsp.duties ⟨UInt16.ofNat hue,
            UInt16.ofNat saturation, UInt16.ofNat brightness⟩
      else lamp.Shows dark := by
  obtain ⟨world, hrun, hidle⟩ := deployedRun_ends
  exact ⟨world, ⟨_, hrun⟩, deployed_settles ⟨_, hrun⟩ hidle le_rfl⟩

end EspIotivity.System
