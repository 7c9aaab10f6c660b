import EspIotivity.Client.Discovery
import EspIotivity.Foundation.Network
import EspIotivity.System.Light
import Mathlib.Data.Nat.Bits

/-!
# Client and server of the light

The server reports `light_state` to its observer, and to every report the client
answers with a POST of the negated state.  Reports and POSTs may be lost,
repeated and overtaken on the way.
-/

namespace EspIotivity.System

open EspIotivity.Adapter (CString)
open EspIotivity.Client
open EspIotivity.Foundation
open EspIotivity.Lightbulb
open EspIotivity.Server

inductive Party where
  | server
  | client
  deriving DecidableEq, Repr

inductive LightPacket where
  | notification (payload : List RepValue)
  | post (root : List (String × RepValue))
  deriving DecidableEq, Repr

/-- A packet is named by its place among those that were sent. -/
inductive ServerMove where
  | report (interface : OcInterfaceMask)
  | handle (packet : Nat)
  deriving DecidableEq, Repr

inductive ClientMove (Endpoints : Type) where
  | discovered (uri : CString) (types : OcStringArray) (endpoint : Endpoints)
  | notified (packet : Nat) (initPost : Bool)
  | stopObserve

/-- What `oc_process_baseline_interface` adds is no boolean. -/
def RootEntry.value : RootEntry → RepValue
  | .baselineInterface => .other
  | .state value => .boolean value

def serverMove : ServerMove → List LightPacket → ServerState →
    Option (ServerState × List LightPacket)
  | .report interface, _, s =>
      some (s, [.notification ((getLight interface s).map RootEntry.value)])
  | .handle packet, sent, s =>
      match sent[packet]? with
      | some (.post root) => some (postLight (root.map Prod.snd) s, [])
      | _ => none

section Client

variable {Endpoints : Type}

/-- Of the calls into the stack only a POST reaches the server's handler. -/
def packetOf : ClientCall Endpoints → Option LightPacket
  | .doPost root => some (.post root)
  | _ => none

/-- What the callback that took `s` to `t` has sent. -/
def packetsSince (s t : ClientState Endpoints) : List LightPacket :=
  (t.calls.drop s.calls.length).filterMap packetOf

def clientMove (enableLight : Bool) : ClientMove Endpoints →
    List LightPacket → ClientState Endpoints →
      Option (ClientState Endpoints × List LightPacket)
  | .discovered uri types endpoint, _, s =>
      (discovery uri types endpoint s).map fun (_, t) =>
        (t, packetsSince s t)
  | .notified packet initPost, sent, s =>
      match sent[packet]? with
      | some (.notification payload) =>
          let t := observeLight ⟨enableLight, initPost⟩ payload s
          some (t, packetsSince s t)
      | _ => none
  | .stopObserve, _, s =>
      let t := stopObserve s
      some (t, packetsSince s t)

end Client

abbrev PartyState (Endpoints : Type) : Party → Type
  | .server => ServerState
  | .client => ClientState Endpoints

abbrev PartyMove (Endpoints : Type) : Party → Type
  | .server => ServerMove
  | .client => ClientMove Endpoints

def exchange (Endpoints : Type) (enableLight : Bool) (rand : Nat → Nat) :
    Network (PartyState Endpoints) LightPacket (PartyMove Endpoints) where
  start
    | .server => .boot rand
    | .client => .boot
  step
    | .server => serverMove
    | .client => clientMove enableLight

/-! ## What a POST does -/

theorem postLight_posted (enableLight reported : Bool) (s : ServerState) :
    postLight ((postedRoot enableLight reported).map Prod.snd) s =
      { lightState := !reported
        bulb :=
          if enableLight then
            ⟨true, (s.rand 0 % 360 : Nat), (s.rand 1 % 50 : Nat),
              (s.rand 2 % 50 : Nat), 0⟩
          else s.bulb
        rand := if enableLight then fun i => s.rand (i + 3) else s.rand
        responses := .changed :: s.responses } := by
  cases enableLight with
  | false => rfl
  | true => rfl

section Moves

variable {Endpoints : Type} {s t : ClientState Endpoints}

theorem packetsSince_append {later : List (ClientCall Endpoints)}
    (hcalls : t.calls = s.calls ++ later) :
    packetsSince s t = later.filterMap packetOf := by
  rw [packetsSince, hcalls, List.drop_left]

theorem observeLight_packets (env : PostEnv) (payload : List RepValue)
    (s : ClientState Endpoints) :
    packetsSince s (observeLight env payload s) =
      if env.initPost then
        [.post (postedRoot env.enableLight (observeLoop payload s.lightState))]
      else [] := by
  rcases env with ⟨enableLight, initPost⟩
  let read := { s with lightState := observeLoop payload s.lightState }
  cases initPost with
  | false =>
      have hcalls : (observeLight ⟨enableLight, false⟩ payload s).calls =
          s.calls ++ [.initPost read.uri read.lightServer] := rfl
      rw [packetsSince_append hcalls]
      rfl
  | true =>
      have hcalls : (observeLight ⟨enableLight, true⟩ payload s).calls =
          s.calls ++ [.initPost read.uri read.lightServer,
            .doPost (postedRoot enableLight read.lightState)] :=
        List.append_assoc _ _ _
      rw [packetsSince_append hcalls]
      rfl

theorem observeLight_lightState (env : PostEnv) (payload : List RepValue)
    (s : ClientState Endpoints) :
    (observeLight env payload s).lightState =
      observeLoop payload s.lightState := by
  unfold observeLight
  split <;> rfl

theorem stopObserve_packets (s : ClientState Endpoints) :
    packetsSince s (stopObserve s) = [] := by
  have hcalls : (stopObserve s).calls =
      s.calls ++ [.stopObserve s.uri s.lightServer] := rfl
  rw [packetsSince_append hcalls]
  rfl

/-- A discovery observes or frees, and posts nothing. -/
theorem discovery_packets {uri : CString} {types : OcStringArray}
    {endpoint : Endpoints} {flag : DiscoveryFlag}
    (hcall : discovery uri types endpoint s = some (flag, t)) :
    packetsSince s t = [] ∧ t.lightState = s.lightState := by
  rw [discovery, discoveryLoop_eq] at hcall
  split at hcall
  case isTrue =>
    obtain ⟨first, -, hlast⟩ := Option.bind_eq_some_iff.mp hcall
    obtain ⟨light1, -, hfound⟩ := Option.map_eq_some_iff.mp hlast
    cases hfound
    refine ⟨?_, rfl⟩
    simp [packetsSince, ClientState.call, packetOf, List.filterMap_cons]
  case isFalse =>
    cases hcall
    refine ⟨?_, rfl⟩
    simp [packetsSince, ClientState.call, packetOf, List.filterMap_cons]

/-- Every move of the client answers a notification or sends nothing. -/
theorem clientMove_cases {enableLight : Bool} {move : ClientMove Endpoints}
    {sent out : List LightPacket}
    (hmove : clientMove enableLight move sent s = some (t, out)) :
    (out = [] ∧ t.lightState = s.lightState) ∨
      ∃ packet initPost payload, move = .notified packet initPost ∧
        sent[packet]? = some (.notification payload) ∧
        t.lightState = observeLoop payload s.lightState ∧
        ∀ p ∈ out, p = .post (postedRoot enableLight t.lightState) := by
  cases move with
  | discovered uri types endpoint =>
      rw [clientMove] at hmove
      obtain ⟨⟨flag, u⟩, hcall, hresult⟩ := Option.map_eq_some_iff.mp hmove
      cases hresult
      exact .inl (discovery_packets hcall)
  | stopObserve =>
      cases hmove
      exact .inl ⟨stopObserve_packets s, rfl⟩
  | notified packet initPost =>
      right
      simp only [clientMove] at hmove
      split at hmove
      case h_1 payload hpacket =>
        cases hmove
        refine ⟨packet, initPost, payload, rfl, hpacket,
          observeLight_lightState _ _ _, ?_⟩
        rw [observeLight_packets, observeLight_lightState]
        cases initPost <;> simp
      case h_2 => cases hmove

theorem serverMove_cases {move : ServerMove} {sent out : List LightPacket}
    {s t : ServerState} (hmove : serverMove move sent s = some (t, out)) :
    (∃ interface, move = .report interface ∧ t = s ∧
        out = [.notification ((getLight interface s).map RootEntry.value)]) ∨
      ∃ packet root, move = .handle packet ∧
        sent[packet]? = some (.post root) ∧
        t = postLight (root.map Prod.snd) s ∧ out = [] := by
  cases move with
  | report interface =>
      cases hmove
      exact .inl ⟨interface, rfl, rfl, rfl⟩
  | handle packet =>
      simp only [serverMove] at hmove
      split at hmove
      case h_1 root hpacket =>
        cases hmove
        exact .inr ⟨packet, root, rfl, hpacket, rfl, rfl⟩
      case h_2 => cases hmove

end Moves

/-! ## Whatever the network does -/

/-- The colour of a bulb that is lit is one of code 4. -/
structure LitOthers (bulb : BulbState) : Prop where
  setOn : bulb.setOn = true
  colour : ∃ rand, colourOf 4 rand = some bulb.colour
  flashInterval : bulb.flashInterval = 0

/--
No POST is refused.  With `ENABLE_LIGHT` the first one lights the bulb for good,
whatever `light_state` says; without it the bulb stays as it was at the start.
-/
structure ServerOrderly (enableLight : Bool) (s : ServerState) : Prop where
  accepts : ∀ status ∈ s.responses, status = .changed
  unlit : enableLight = false ∨ s.responses = [] → s.bulb = .boot
  lit : enableLight = true → s.responses ≠ [] → LitOthers s.bulb

def PacketOrderly (enableLight : Bool) : LightPacket → Prop
  | .notification _ => True
  | .post root => ∃ reported, root = postedRoot enableLight reported

def PartyOrderly {Endpoints : Type} (enableLight : Bool) :
    ∀ n, PartyState Endpoints n → Prop
  | .server, s => ServerOrderly enableLight s
  | .client, _ => True

theorem posted_orderly {enableLight : Bool} (reported : Bool) {s : ServerState}
    (hs : ServerOrderly enableLight s) :
    ServerOrderly enableLight
      (postLight ((postedRoot enableLight reported).map Prod.snd) s) := by
  rw [postLight_posted]
  constructor
  case accepts => simpa using hs.accepts
  case unlit =>
    rintro (rfl | hnone)
    · exact hs.unlit (.inl rfl)
    · cases hnone
  case lit =>
    rintro rfl -
    exact ⟨rfl, ⟨s.rand, rfl⟩, rfl⟩

section Runs

variable {Endpoints : Type} {enableLight : Bool} {rand : Nat → Nat}

theorem exchange_stepKeeps : (exchange Endpoints enableLight rand).StepKeeps
    (PartyOrderly enableLight) (PacketOrderly enableLight) := by
  intro n move sent s t out hs hsent hstep
  cases n with
  | server =>
      rcases serverMove_cases hstep with
        ⟨interface, rfl, rfl, rfl⟩ | ⟨packet, root, rfl, hpacket, rfl, rfl⟩
      · exact ⟨hs, by simp [PacketOrderly]⟩
      · obtain ⟨reported, rfl⟩ := hsent _ (List.mem_of_getElem? hpacket)
        exact ⟨posted_orderly reported hs, by simp⟩
  | client =>
      refine ⟨trivial, fun p hp => ?_⟩
      rcases clientMove_cases hstep with
        ⟨rfl, -⟩ | ⟨packet, initPost, payload, -, -, -, hout⟩
      · exact absurd hp List.not_mem_nil
      · rw [hout p hp]
        exact ⟨t.lightState, rfl⟩

/-- In every run, whatever is lost, repeated or overtaken. -/
theorem exchange_orderly {world : World (PartyState Endpoints) LightPacket}
    (hworld : (exchange Endpoints enableLight rand).machine.Reachable world) :
    ServerOrderly enableLight (world.parties .server) ∧
      ∀ root, .post root ∈ world.sent →
        ∃ reported, root = postedRoot enableLight reported := by
  have hstart : ∀ n, PartyOrderly enableLight n
      ((exchange Endpoints enableLight rand).start n) := by
    intro n
    cases n with
    | client => trivial
    | server =>
        constructor
        case accepts => exact fun _ hnone => absurd hnone List.not_mem_nil
        case unlit => exact fun _ => rfl
        case lit => exact fun _ hnone => absurd rfl hnone
  have hkeeps := Network.reachable_keeps hstart exchange_stepKeeps hworld
  exact ⟨hkeeps.parties .server, fun root hroot => hkeeps.sent _ hroot⟩

/-- A report is lost, another answered twice over, and one POST handled twice. -/
def unreliableMoves : List (Σ n, PartyMove Unit n) :=
  [⟨.server, .report .rw⟩, ⟨.server, .report .rw⟩,
    ⟨.client, .notified 1 true⟩, ⟨.client, .notified 1 true⟩,
    ⟨.server, .handle 3⟩, ⟨.server, .handle 3⟩]

theorem unreliableMoves_orderly : ∃ world,
    (exchange Unit true fun _ => 0).machine.Reachable world ∧
      ServerOrderly true (world.parties .server) ∧
      ∀ root, .post root ∈ world.sent →
        ∃ reported, root = postedRoot true reported := by
  have hworld : (exchange Unit true fun _ => 0).machine.Reachable _ :=
    ⟨unreliableMoves, rfl⟩
  exact ⟨_, hworld, exchange_orderly hworld⟩

/-! ## Rounds -/

/-- No report, and nothing that was sent before `start` arrives. -/
def Fresh (start : Nat) : (Σ n, PartyMove Endpoints n) → Prop
  | ⟨.server, .report _⟩ => False
  | ⟨.server, .handle packet⟩ => start ≤ packet
  | ⟨.client, .notified packet _⟩ => start ≤ packet
  | ⟨.client, .discovered _ _ _⟩ | ⟨.client, .stopObserve⟩ => True

def Handles (move : Σ n, PartyMove Endpoints n) : Prop :=
  ∃ packet, move = ⟨.server, .handle packet⟩

/--
One report and what follows from it, of which at least one POST arrives, and
nothing from before.
-/
def IsRound (enableLight : Bool) (rand : Nat → Nat)
    (before after : World (PartyState Endpoints) LightPacket) : Prop :=
  ∃ interface moves, interface ≠ .other ∧
    (∀ move ∈ moves, Fresh before.sent.length move) ∧
    (∃ move ∈ moves, Handles move) ∧
    (exchange Endpoints enableLight rand).machine.runFrom before
      (⟨.server, .report interface⟩ :: moves) = some after

/-- The packets of a round that began with a report of `reported`. -/
def RoundPacket (enableLight reported : Bool) : LightPacket → Prop
  | .notification payload => ∀ old, observeLoop payload old = reported
  | .post root => root = postedRoot enableLight reported

def RoundPackets (enableLight reported : Bool) (start : Nat)
    (sent : List LightPacket) : Prop :=
  ∀ k p, start ≤ k → sent[k]? = some p → RoundPacket enableLight reported p

theorem roundPackets_append {reported : Bool} {start : Nat}
    {sent out : List LightPacket}
    (hsent : RoundPackets enableLight reported start sent)
    (hout : ∀ p ∈ out, RoundPacket enableLight reported p) :
    RoundPackets enableLight reported start (sent ++ out) := by
  intro k p hk hp
  rw [List.getElem?_append] at hp
  split at hp
  · exact hsent k p hk hp
  · exact hout p (List.mem_of_getElem? hp)

theorem report_round {interface : OcInterfaceMask}
    (hinterface : interface ≠ .other) (s : ServerState) :
    RoundPacket enableLight s.lightState
      (.notification ((getLight interface s).map RootEntry.value)) := by
  intro old
  cases interface with
  | baseline | rw => rfl
  | other => exact absurd rfl hinterface

variable {before after : World (PartyState Endpoints) LightPacket}
  {reported : Bool} {start : Nat}

/-- Within a round a POST that is handled negates what was reported. -/
theorem round_step {move : Σ n, PartyMove Endpoints n}
    (hsent : RoundPackets enableLight reported start before.sent)
    (hfresh : Fresh start move)
    (hnext : (exchange Endpoints enableLight rand).machine.next before move =
      some after) :
    RoundPackets enableLight reported start after.sent ∧
      (Handles move → (after.parties .server).lightState = !reported) ∧
      ((after.parties .server).lightState =
          (before.parties .server).lightState ∨
        (after.parties .server).lightState = !reported) := by
  obtain ⟨n, move⟩ := move
  obtain ⟨state, out, hstep, hparties, hafter⟩ := Network.next_eq hnext
  rw [hafter, hparties]
  cases n with
  | server =>
      rw [Function.update_self]
      rcases serverMove_cases hstep with
        ⟨interface, rfl, -, -⟩ | ⟨packet, root, rfl, hpacket, rfl, rfl⟩
      · exact hfresh.elim
      · have hroot := hsent packet _ hfresh hpacket
        have hlight := congrArg ServerState.lightState
          (postLight_posted enableLight reported (before.parties .server))
        rw [← show root = postedRoot enableLight reported from hroot] at hlight
        rw [List.append_nil]
        exact ⟨hsent, fun _ => hlight, .inr hlight⟩
  | client =>
      have hother : Party.server ≠ .client := by decide
      rw [Function.update_of_ne hother]
      refine ⟨roundPackets_append hsent ?_, ?_, .inl rfl⟩
      · rcases clientMove_cases hstep with
          ⟨rfl, -⟩ | ⟨packet, initPost, payload, rfl, hpacket, hlight, hout⟩
        · simp
        · have hpayload := hsent packet _ hfresh hpacket
          intro p hp
          rw [hout p hp, hlight, hpayload]
          rfl
      · rintro ⟨packet, hmove⟩
        cases hmove

theorem round_run {moves : List (Σ n, PartyMove Endpoints n)}
    (hsent : RoundPackets enableLight reported start before.sent)
    (hfresh : ∀ move ∈ moves, Fresh start move)
    (hrun : (exchange Endpoints enableLight rand).machine.runFrom before
      moves = some after)
    (hlight : (∃ move ∈ moves, Handles move) ∨
      (before.parties .server).lightState = !reported) :
    (after.parties .server).lightState = !reported := by
  induction moves generalizing before with
  | nil =>
      cases hrun
      simpa using hlight
  | cons move moves ih =>
      obtain ⟨next, hnext, hrest⟩ := Option.bind_eq_some_iff.mp hrun
      rw [List.forall_mem_cons] at hfresh
      obtain ⟨hpackets, hhandled, hkept⟩ := round_step hsent hfresh.1 hnext
      refine ih hpackets hfresh.2 hrest ?_
      rcases hlight with ⟨handling, hmem, hhandles⟩ | hlight
      · rcases List.mem_cons.mp hmem with rfl | hlater
        · exact .inr (hhandled hhandles)
        · exact .inl ⟨handling, hlater, hhandles⟩
      · rcases hkept with hsame | hnegated
        · exact .inr (hsame.trans hlight)
        · exact .inr hnegated

/-- However often its packets arrive, a round switches the light once. -/
theorem round_switches (h : IsRound enableLight rand before after) :
    (after.parties .server).lightState =
      !(before.parties .server).lightState := by
  obtain ⟨interface, moves, hinterface, hfresh, hhandled, hrun⟩ := h
  obtain ⟨next, hnext, hrest⟩ := Option.bind_eq_some_iff.mp hrun
  obtain ⟨state, out, hstep, hparties, hsent⟩ := Network.next_eq hnext
  cases hstep
  have hreport : RoundPacket enableLight _ _ :=
    report_round hinterface (before.parties .server)
  refine round_run ?_ hfresh hrest (.inl hhandled)
  rw [hsent]
  apply roundPackets_append
  · intro k p hk hp
    rw [List.getElem?_eq_none hk] at hp
    cases hp
  · simpa using hreport

inductive Rounds (enableLight : Bool) (rand : Nat → Nat) : Nat →
    World (PartyState Endpoints) LightPacket →
    World (PartyState Endpoints) LightPacket → Prop where
  | none (world) : Rounds enableLight rand 0 world world
  | next {n before between after} :
      Rounds enableLight rand n before between →
      IsRound enableLight rand between after →
      Rounds enableLight rand (n + 1) before after

theorem rounds_alternate {n : Nat}
    (h : Rounds enableLight rand n before after) :
    (after.parties .server).lightState =
      ((before.parties .server).lightState ^^ n.bodd) := by
  induction h with
  | none => simp
  | next hrounds hround ih =>
      rw [round_switches hround, ih, Nat.bodd_succ, Bool.xor_not]

end Runs

/-! ## What the client makes of the lamp -/

def IsPosted (enableLight : Bool) (request : LightRequest) : Prop :=
  ∃ reported, request = ⟨.post,
    (postedRoot enableLight reported).map Prod.snd⟩

theorem served_posted {enableLight : Bool} (rand : Nat → Nat)
    {done : List LightRequest}
    (hdone : ∀ request ∈ done, IsPosted enableLight request) :
    ServerOrderly enableLight (served rand done) := by
  induction done using List.reverseRecOn with
  | nil => exact ⟨by simp [served, ServerState.boot], fun _ => rfl,
      fun _ hnone => absurd rfl hnone⟩
  | append_singleton done request ih =>
      rw [List.forall_mem_append] at hdone
      obtain ⟨reported, rfl⟩ := hdone.2 request (List.mem_singleton_self _)
      rw [served_concat]
      exact posted_orderly reported (ih hdone.1)

theorem ofInt_natCast (n : Nat) :
    UInt16.ofInt (n : Int) = UInt16.ofNat n := by
  rw [← UInt16.toNat_inj, UInt16.toNat_ofNat']
  have hnarrowed := uint16_ofInt_toNat n
  omega

theorem litOthers_shown {bulb : BulbState} (h : LitOthers bulb) :
    ∃ hue saturation brightness : Nat, hue < 360 ∧ saturation < 50 ∧
      brightness < 50 ∧ bulb.shown = Hsp.duties ⟨UInt16.ofNat hue,
        UInt16.ofNat saturation, UInt16.ofNat brightness⟩ := by
  obtain ⟨rand, hcolour⟩ := h.colour
  refine ⟨_, _, _, Nat.mod_lt (rand 0) (by decide),
    Nat.mod_lt (rand 1) (by decide), Nat.mod_lt (rand 2) (by decide), ?_⟩
  have hcommand : bulb.colour = ⟨(rand 0 % 360 : Nat), (rand 1 % 50 : Nat),
      (rand 2 % 50 : Nat)⟩ := (Option.some.inj hcolour).symm
  have hlit : bulb.shown = BulbColour.duties bulb.colour := by
    simp [BulbState.shown, h.setOn, BulbColour.duties, BulbState.hsb,
      BulbState.colour]
  rw [hlit, hcommand, BulbColour.duties]
  simp only [truncate_natCast, ofInt_natCast]

/--
Served by the client alone, the lamp comes to rest black without `ENABLE_LIGHT`,
and with it lit in one of the pale colours, whatever `light_state` says.
-/
theorem posted_lamp {enableLight : Bool} {rand : Nat → Nat}
    {acts : List (Option ServerAct)} {s : ServerTask × DaemonTask}
    (hrun : (lightSystem rand).run acts = some s) (hidle : s.1.Idle)
    (hposted : ∀ request ∈ requests acts.reduceOption,
      IsPosted enableLight request) {steps : Nat} (hsteps : 8 ≤ steps) :
    ∃ lamp point,
      (lightSystem rand).runFrom s (List.replicate steps none) =
          some (s.1, ⟨point, lamp⟩) ∧
        if enableLight ∧ requests acts.reduceOption ≠ [] then
          ∃ hue saturation brightness : Nat, hue < 360 ∧ saturation < 50 ∧
            brightness < 50 ∧ lamp.duties.head? = Hsp.duties ⟨UInt16.ofNat hue,
              UInt16.ofNat saturation, UInt16.ofNat brightness⟩
        else lamp.Shows dark := by
  obtain ⟨lamp, point, hrest, hsettled⟩ := rest_settles hrun hidle hsteps
  have horderly := served_posted rand hposted
  have hnone : (served rand (requests acts.reduceOption)).responses = [] ↔
      requests acts.reduceOption = [] := by
    simp [served_responses]
  refine ⟨lamp, point, hrest, ?_⟩
  split
  case isTrue h =>
    rw [hsettled.shows]
    exact litOthers_shown (horderly.lit h.1 (mt hnone.mp h.2))
  case isFalse h =>
    rw [not_and_or, Bool.not_eq_true, not_not, ← hnone] at h
    rw [Lamp.Shows, hsettled.shows, horderly.unlit h]
    rfl

end EspIotivity.System
