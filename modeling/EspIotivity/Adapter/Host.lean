import EspIotivity.Adapter.Advertise

/-!
# One host's datagrams

A host with one network context sends messages, multicasts discovery requests
and receives, pass after pass of its event thread.
-/

namespace EspIotivity.Adapter

open EspIotivity.Foundation

/-! ## `oc_send_discovery_request` -/

inductive SourceInterface where
  | inet (address : BitVec 32)
  | inet6 (address : BitVec 128)
  deriving DecidableEq, Repr

structure DiscoveryEnv where
  addresses : AddressEnv
  setsockopt : Bool

/-- The socket whose multicast source interface is set, and to what. -/
def multicastIf (cfg : BuildConfig) (dev : IpContext)
    (addresses : AddressEnv) : Option (Int × SourceInterface) :=
  if cfg.ocIpv4 then
    addresses.ipInfo.map fun address => (dev.server4Sock, .inet address)
  else
    addresses.ip6Linklocal.map fun address => (dev.serverSock, .inet6 address)

/-- `none` when it loops in `print_error` or there is no context. -/
def ocSendDiscoveryRequest (cfg : BuildConfig) (union : AddrUnion)
    (env : DiscoveryEnv) (s : AdapterState) (message : OcMessage)
    (results : List Int) :
    Option ((Int × SourceInterface) × List SendCall) := do
  let ref ← getIpContextForDevice cfg message.endpoint.device s
  let interface ← multicastIf cfg (s.memory ref) env.addresses
  if env.setsockopt then
    let calls ← ocSendBuffer cfg union s message results
    some (interface, calls)
  else none

theorem ocSendDiscoveryRequest_calls {cfg : BuildConfig} {union : AddrUnion}
    {env : DiscoveryEnv} {s : AdapterState} {message : OcMessage}
    {results : List Int} {interface : Int × SourceInterface}
    {calls : List SendCall}
    (h : ocSendDiscoveryRequest cfg union env s message results =
      some (interface, calls)) :
    ocSendBuffer cfg union s message results = some calls := by
  obtain ⟨ref, -, hcontext⟩ := Option.bind_eq_some_iff.mp h
  obtain ⟨set, -, hinterface⟩ := Option.bind_eq_some_iff.mp hcontext
  split at hinterface
  case isFalse => cases hinterface
  case isTrue =>
    obtain ⟨sent, hsent, hresult⟩ := Option.bind_eq_some_iff.mp hinterface
    cases hresult
    exact hsent

/-! ## What is sent -/

/-- The role whose socket `oc_send_buffer` chooses. -/
def sendRole (cfg : BuildConfig) (flags : TransportFlags) : SocketRole :=
  if cfg.ocSecurity && flags.secured then
    if cfg.ocIpv4 && flags.ipv4 then .secure4 else .secure
  else if cfg.ocIpv4 && flags.ipv4 then .server4
  else .server

theorem sendSock_eq (cfg : BuildConfig) (dev : IpContext)
    (flags : TransportFlags) :
    sendSock cfg dev flags = dev.sock (sendRole cfg flags) := by
  unfold sendSock sendRole
  split_ifs <;> rfl

theorem receiverOf_family (cfg : BuildConfig) (union : AddrUnion)
    (endpoint : OcEndpoint) :
    (receiverOf cfg union endpoint).family =
      (sendRole cfg endpoint.flags).family := by
  unfold receiverOf sendRole
  split_ifs <;> rfl

/--
A discovery request leaves from the socket whose interface was set, unless it
is to go to a secure port or, in an IPv4 build, to an IPv6 address.
-/
theorem sendRole_multicastIf (cfg : BuildConfig) (flags : TransportFlags) :
    sendRole cfg flags = unicastRole cfg ↔
      ¬ (cfg.ocSecurity = true ∧ flags.secured = true) ∧
        (cfg.ocIpv4 = true → flags.ipv4 = true) := by
  unfold sendRole unicastRole
  cases cfg.ocSecurity <;> cases cfg.ocIpv4 <;> cases flags.secured <;>
    cases flags.ipv4 <;> simp

/-- The build opens the role's socket. -/
def SocketRole.OpenedBy (role : SocketRole) (cfg : BuildConfig) : Prop :=
  role.flags.ipv4 = cfg.ocIpv4 ∧
    (role.flags.secured = true → cfg.ocSecurity = true)

theorem sendRole_replyRole (cfg : BuildConfig) (flags : TransportFlags) :
    (sendRole cfg flags).replyRole = sendRole cfg flags := by
  unfold sendRole
  split_ifs <;> rfl

theorem ipv4_iff_inet {role : SocketRole} :
    role.flags.ipv4 = true ↔ role.family = .inet := by
  cases role <;> simp [SocketRole.flags, SocketRole.family]

theorem sendRole_opened {cfg : BuildConfig} {flags : TransportFlags}
    {role : SocketRole} (hrole : role.OpenedBy cfg)
    (hfamily : (sendRole cfg flags).family = role.family) :
    (sendRole cfg flags).OpenedBy cfg := by
  have hinet : (sendRole cfg flags).flags.ipv4 = role.flags.ipv4 := by
    rw [Bool.eq_iff_iff, ipv4_iff_inet, ipv4_iff_inet, hfamily]
  refine ⟨hinet.trans hrole.1, fun hsecured => ?_⟩
  unfold sendRole at hsecured
  split_ifs at hsecured
  all_goals simp_all [SocketRole.flags]

theorem sendRole_multicast (cfg : BuildConfig) (flags : TransportFlags) :
    (sendRole cfg flags).flags.multicast = false := by
  unfold sendRole
  split_ifs <;> rfl

/-- A message with the flags of a role is sent from where the role replies. -/
theorem sendRole_role {cfg : BuildConfig} {role : SocketRole}
    (hipv4 : role.flags.ipv4 = true → cfg.ocIpv4 = true)
    (hsecured : role.flags.secured = true → cfg.ocSecurity = true) :
    sendRole cfg role.flags = role.replyRole := by
  cases role
  all_goals simp_all [sendRole, SocketRole.flags, SocketRole.replyRole]

def OcMessage.bytes (message : OcMessage) : List UInt8 :=
  message.data.take message.length

/-- A datagram socket sends what it is given whole, or fails. -/
def SendCall.whole (call : SendCall) (result : Int) : Bool :=
  result < 0 || result = call.bytes.length

/-- The calls that have succeeded. -/
def succeeded (calls : List SendCall) (results : List Int) : List SendCall :=
  ((calls.zip results).filter fun pair => 0 ≤ pair.2).map Prod.fst

theorem sendLoop_end {sock : Int} {receiver : SockaddrStorage}
    {message : OcMessage} {bytesSent : Nat}
    (hend : ¬ (bytesSent : Int) < toInt32 message.length)
    (results : List Int) :
    sendLoop sock receiver message results bytesSent = [] := by
  cases results <;> simp [sendLoop, hend]

theorem toInt32_natCast_le (n : Nat) : toInt32 n ≤ n := by
  by_cases hn : n < 2147483648
  · exact (toInt32_of_lt (by omega) (by omega)).le
  · have hle := toInt32_of_le (x := n) (by omega)
    omega

/-- The loop succeeds once at most, with the whole message. -/
theorem sendLoop_whole {sock : Int} {receiver : SockaddrStorage}
    {message : OcMessage} {results : List Int}
    (hdata : message.length ≤ message.data.length)
    (hwhole : ∀ pair ∈ (sendLoop sock receiver message results 0).zip results,
      pair.1.whole pair.2 = true) :
    ∀ call ∈ succeeded (sendLoop sock receiver message results 0) results,
      call = ⟨sock, message.bytes, receiver⟩ := by
  have hfirst : sendCall sock receiver message 0 =
      ⟨sock, message.bytes, receiver⟩ := rfl
  cases results with
  | nil => simp [succeeded]
  | cons x results =>
      rw [sendLoop] at hwhole ⊢
      split
      case isFalse => simp [succeeded]
      case isTrue hlength =>
        rw [if_pos hlength, List.zip_cons_cons, List.forall_mem_cons] at hwhole
        by_cases hfailed : x < 0
        · simp [succeeded, hfailed]
        · have hall : x = message.length := by
            have hx := hwhole.1
            simp only [SendCall.whole, hfailed, hfirst, decide_false,
              Bool.false_or, decide_eq_true_eq, OcMessage.bytes,
              List.length_take] at hx
            omega
          have hle := toInt32_natCast_le message.length
          have hrest : sendLoop sock receiver message results
              (0 + x.toNat) = [] := sendLoop_end (by omega) results
          rw [if_neg hfailed, hrest, hfirst]
          simp [succeeded, hall]

/-! ## What is handed on -/

section Pass

variable {cfg : BuildConfig} {dev : IpContext} {env : ReceiveEnv}
  {client : SockaddrStorage}

/-- Every message of the pass was received in it. -/
theorem pass_handsOn {ready : Ready cfg dev}
    (hboth : ¬ BothSecure cfg dev ready.setfds) {object : Nat}
    {message : OcMessage}
    (hdeliver : .deliver message ∈
      history object (receivePass cfg dev env ready client).trace) :
    ∃ branch ∈ branches cfg dev, ∃ datagram,
      .attempt branch.role (some datagram) ∈
          history object (receivePass cfg dev env ready client).trace ∧
        FilledBy dev branch.role datagram message := by
  have hpass := (receivePass_suitably_iff env (fun _ _ => True) ready
    client).mpr ⟨fun h => hboth h.1, eachInTurn_true⟩
  have hreceived := (hpass object).filled
  rcases receivePass_history dev env ready client object with
    hnone | ⟨v, old, hv, hevents⟩
  · rw [hnone] at hdeliver
    exact absurd hdeliver List.not_mem_nil
  change deliveries (history object
    (receivePass cfg dev env ready client).trace) ≠ [] →
      fills (history object
        (receivePass cfg dev env ready client).trace) ≠ [] at hreceived
  rw [hevents] at hdeliver hreceived ⊢
  have hiteration :=
    loopBody_iteration env old (hv.sub.trans ready.watched)
  generalize loopBody cfg dev env old v = w at hdeliver hreceived hiteration ⊢
  cases hiteration with
  | idle => simp [deliveries, fills] at hreceived
  | failed => simp at hdeliver
  | lost _ _ hnow | overwritten _ _ _ hnow =>
      exact absurd (bothSecure_mono hv.sub hnow) hboth
  | received received branch datagram hbranch _ _ _ _ hfilled =>
      obtain rfl : message = received := by simpa using hdeliver
      exact ⟨branch, hbranch, datagram, by simp, hfilled⟩

end Pass

/-! ## Hosts -/

/-- A node that runs one device, with the only context registered for it. -/
structure Host (cfg : BuildConfig) where
  adapter : AdapterState
  ref : ContextRef
  only : OnlyContext cfg adapter ref

def Host.dev {cfg : BuildConfig} (host : Host cfg) : IpContext :=
  host.adapter.memory host.ref

/-- `client` is the event thread's; the other fields are what was done. -/
structure HostState where
  client : SockaddrStorage
  interfaces : List (Int × SourceInterface)
  sent : List OcMessage
  handed : List OcMessage

def HostState.boot : HostState := ⟨.zero, [], [], []⟩

inductive HostAct (cfg : BuildConfig) (dev : IpContext) where
  | send (message : OcMessage) (results : List Int)
  | discover (env : DiscoveryEnv) (message : OcMessage) (results : List Int)
  | pass (env : ReceiveEnv) (ready : Ready cfg dev)

def HostAct.message? {cfg : BuildConfig} {dev : IpContext} :
    HostAct cfg dev → Option OcMessage
  | .send message _ | .discover _ message _ => some message
  | .pass _ _ => none

end EspIotivity.Adapter
