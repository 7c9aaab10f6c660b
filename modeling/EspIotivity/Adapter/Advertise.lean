import EspIotivity.Adapter.BoundPort
import EspIotivity.Adapter.Send
import EspIotivity.Adapter.Watched

/-!
# The advertised endpoint

`oc_connectivity_get_endpoints` gives device 0 and the well-known port.  An init
records the port that the stack assigned to the device's own unicast socket,
and nothing reads it.
-/

namespace EspIotivity.Adapter

open EspIotivity.Foundation

/-! ## `oc_connectivity_get_endpoints` -/

/-- The addresses as `tcpip_adapter` reports them, `none` with an error. -/
structure AddressEnv where
  ip6Linklocal : Option (BitVec 128)
  ipInfo : Option (BitVec 32)

/-- The endpoint that it adds; `none` when it loops in `print_error`. -/
def ocConnectivityGetEndpoints (cfg : BuildConfig) (env : AddressEnv)
    (_device : Int) : Option OcEndpoint :=
  if cfg.ocIpv4 then
    env.ipInfo.map fun address =>
      ⟨0, { ipv4 := true }, .ipv4 address ocfPortUnsecured⟩
  else
    env.ip6Linklocal.map fun address =>
      ⟨0, { ipv6 := true }, .ipv6 address ocfPortUnsecured 0⟩

def DevAddr.port : DevAddr → BitVec 16
  | .ipv4 _ port => port
  | .ipv6 _ port _ => port

theorem getEndpoints_eq {cfg : BuildConfig} {env : AddressEnv} {device : Int}
    {ep : OcEndpoint}
    (h : ocConnectivityGetEndpoints cfg env device = some ep) :
    ep.device = 0 ∧ ep.addr.port = ocfPortUnsecured := by
  unfold ocConnectivityGetEndpoints at h
  split at h
  all_goals
    obtain ⟨address, -, rfl⟩ := Option.map_eq_some_iff.mp h
    exact ⟨rfl, rfl⟩

/-! ## What arrives at the unicast socket -/

/--
What the event thread receives from `fd` it hands on for `device`, without the
MULTICAST flag.
-/
def DeliversUnicast (cfg : BuildConfig) (dev : IpContext) (device fd : Int) :
    Prop :=
  ∀ (env : ReceiveEnv) (ready : Ready cfg dev) (client : SockaddrStorage)
    (object : Nat) (role : SocketRole) (datagram : Datagram),
    .attempt role (some datagram) ∈
      history object (receivePass cfg dev env ready client).trace →
    dev.sock role = fd →
    ∃ message, .deliver message ∈
        history object (receivePass cfg dev env ready client).trace ∧
      message.data.take message.length = datagram.bytes ∧
      message.endpoint.device = device ∧
      message.endpoint.flags.multicast = false

section Deliver

variable {cfg : BuildConfig} {dev : IpContext} {env : ReceiveEnv}
  {message : OcMessage} {v : PassVars} {role : SocketRole}
  {result : Option Datagram}

/-- An iteration tries the first ready socket and no other. -/
theorem loopBody_first {before after : List ReceiveBranch}
    {branch : ReceiveBranch}
    (hsplit : branches cfg dev = before ++ branch :: after)
    (hbefore : ∀ other ∈ before, other.sock ∉ v.setfds)
    (hready : branch.sock ∈ v.setfds) (hcommon : branch.after = .common)
    (hattempt : .attempt role result ∈
      (loopBody cfg dev env message v).events) :
    role = branch.role := by
  let start : BodyVars :=
    ⟨message, v.setfds, v.client, v.recvCalls, [.acquire]⟩
  have hskip : runBranches env dev (branches cfg dev) start =
      runBranches env dev (branch :: after) start := by
    rw [hsplit]
    exact runBranches_skip hbefore _
  rw [loopBody, hskip, runBranches] at hattempt
  cases hrecv : env.recvfrom start.recvCalls with
  | none =>
      rw [run_failed (v := start) hready hrecv] at hattempt
      have hpair : role = branch.role ∧ result = none := by
        simpa [start, ReceiveBranch.failed] using hattempt
      exact hpair.1
  | some datagram =>
      rw [run_received (v := start) hready hrecv, hcommon] at hattempt
      have hpair : role = branch.role ∧ result = some datagram := by
        simpa [start, ReceiveBranch.received, deliverCommon] using hattempt
      exact hpair.1

/-- While the unicast socket is ready, no multicast socket is tried. -/
theorem attempt_unicast (hdev : Undisturbed cfg dev)
    (hready : dev.sock (unicastRole cfg) ∈ v.setfds)
    (hattempt : .attempt role result ∈
      (loopBody cfg dev env message v).events) :
    role = .server ∨ role = unicastRole cfg := by
  by_cases hserver : dev.serverSock ∈ v.setfds
  · left
    have hsplit : branches cfg dev =
        [] ++ serverBranch dev :: (branches cfg dev).tail := rfl
    exact loopBody_first hsplit (by simp) hserver rfl hattempt
  · right
    cases h4 : cfg.ocIpv4 with
    | false =>
        simp only [unicastRole, h4, Bool.false_eq_true, if_false] at hready
        exact absurd hready hserver
    | true =>
        have hmcast : dev.mcastSock ∉ v.setfds := by
          rwa [← hdev.unopened h4]
        have hsplit : branches cfg dev =
            [serverBranch dev, mcastBranch dev] ++ server4Branch dev ::
              mcast4Branch dev :: secureBranches cfg dev := by
          simp [branches, openBranches, h4]
        simp only [unicastRole, h4, if_true] at hready ⊢
        apply loopBody_first hsplit ?_ hready rfl hattempt
        simpa [serverBranch, mcastBranch] using ⟨hserver, hmcast⟩

theorem unicast_flags (hrole : role = .server ∨ role = unicastRole cfg) :
    role.flags.multicast = false ∧ role.flags.secured = false := by
  unfold unicastRole at hrole
  rcases hrole with rfl | rfl
  · exact ⟨rfl, rfl⟩
  · split <;> exact ⟨rfl, rfl⟩

theorem iteration_open {datagram : Datagram} {w : BodyVars}
    (hiteration : Iteration cfg dev env v w)
    (hattempt : .attempt role (some datagram) ∈ w.events)
    (hopen : role.flags.secured = false) :
    ∃ message, .deliver message ∈ w.events ∧
      FilledBy dev role datagram message := by
  cases hiteration with
  | idle | failed => simp at hattempt
  | lost | overwritten =>
      simp only [List.mem_cons, reduceCtorEq, List.not_mem_nil, or_false,
        false_or, HandoffEvent.attempt.injEq] at hattempt
      rcases hattempt with ⟨rfl, -⟩ | ⟨rfl, -⟩
      all_goals cases hopen
  | received message branch _ _ _ _ _ _ hfilled =>
      simp only [List.mem_cons, reduceCtorEq, List.not_mem_nil, or_false,
        false_or, HandoffEvent.attempt.injEq, Option.some.injEq] at hattempt
      obtain ⟨rfl, rfl⟩ := hattempt
      exact ⟨message, by simp, hfilled⟩

/-- What a socket that is not a secure one receives is handed on. -/
theorem open_delivered {ready : Ready cfg dev} {client : SockaddrStorage}
    {object : Nat} {datagram : Datagram} (hopen : role.flags.secured = false)
    (hattempt : .attempt role (some datagram) ∈
      history object (receivePass cfg dev env ready client).trace) :
    ∃ message, .deliver message ∈
        history object (receivePass cfg dev env ready client).trace ∧
      FilledBy dev role datagram message := by
  rcases receivePass_history dev env ready client object with
    hnone | ⟨v, message, hv, hevents⟩
  · rw [hnone] at hattempt
    exact absurd hattempt List.not_mem_nil
  · rw [hevents] at hattempt ⊢
    exact iteration_open
      (loopBody_iteration env message (hv.sub.trans ready.watched)) hattempt
      hopen

theorem attempt_role (hdev : Undisturbed cfg dev) {ready : Ready cfg dev}
    {client : SockaddrStorage} {object : Nat}
    (hattempt : .attempt role result ∈
      history object (receivePass cfg dev env ready client).trace)
    (hsock : dev.sock role = dev.sock (unicastRole cfg)) :
    role = .server ∨ role = unicastRole cfg := by
  rcases receivePass_history dev env ready client object with
    hnone | ⟨v, message, hv, hevents⟩
  · rw [hnone] at hattempt
    exact absurd hattempt List.not_mem_nil
  · rw [hevents] at hattempt
    have hready := iteration_ready
      (loopBody_iteration env message (hv.sub.trans ready.watched)) hattempt
    rw [hsock] at hready
    exact attempt_unicast hdev hready hattempt

theorem deliversUnicast (hdev : Undisturbed cfg dev) :
    DeliversUnicast cfg dev dev.device (dev.sock (unicastRole cfg)) := by
  intro env ready client object role datagram hattempt hsock
  obtain ⟨hunicast, hopen⟩ := unicast_flags (attempt_role hdev hattempt hsock)
  obtain ⟨message, hdeliver, hfilled⟩ := open_delivered hopen hattempt
  refine ⟨message, hdeliver, hfilled.data, hfilled.device, ?_⟩
  rw [hfilled.flags, hunicast]

/-- The sockets bound to the well-known port give every message the flag. -/
theorem multicast_delivered {ready : Ready cfg dev} {client : SockaddrStorage}
    {object : Nat} {datagram : Datagram} (hrole : role.flags.multicast = true)
    (hattempt : .attempt role (some datagram) ∈
      history object (receivePass cfg dev env ready client).trace) :
    ∃ message, .deliver message ∈
        history object (receivePass cfg dev env ready client).trace ∧
      message.endpoint.flags.multicast = true := by
  have hopen : role.flags.secured = false := by
    cases role <;> first | rfl | cases hrole
  obtain ⟨message, hdeliver, hfilled⟩ := open_delivered hopen hattempt
  refine ⟨message, hdeliver, ?_⟩
  rw [hfilled.flags, hrole]

end Deliver

variable (cfg : BuildConfig) in
theorem unicast_selectable (dev : IpContext) :
    dev.sock (unicastRole cfg) ∈ selectable cfg dev := by
  unfold selectable maxfd unicastRole
  rw [Finset.mem_filter, mem_rfds]
  cases h4 : cfg.ocIpv4 with
  | false =>
      refine ⟨⟨serverBranch dev, by simp [branches, openBranches], rfl⟩, ?_⟩
      simp only [IpContext.sock, Bool.false_eq_true, if_false]
      split <;> omega
  | true =>
      refine ⟨⟨server4Branch dev, ?_, rfl⟩, ?_⟩
      · simp [branches, openBranches, h4]
      simp only [IpContext.sock, if_true]
      split <;> omega

/-! ## Where a device listens -/

/--
The socket that receives what is sent to a port of this node.  What is sent to
the port to which the unicast socket is bound is received from that socket.
-/
structure UdpStack (cfg : BuildConfig) (env : InitEnv) where
  socketFor : BitVec 16 → Option Int
  unicast : ∀ port ∈ env.boundPort cfg,
    socketFor port = some (env.socket (unicastRole cfg))

/-- The endpoint is where `device`, whose context is `dev`, listens. -/
structure ListensAt (cfg : BuildConfig) (env : InitEnv)
    (stack : UdpStack cfg env) (device : Int) (dev : IpContext)
    (ep : OcEndpoint) : Prop where
  owner : ep.device = device
  bound : env.boundPort cfg = some ep.addr.port
  recorded : unicastPort cfg dev = ep.addr.port
  running : dev.terminate ≠ 1
  delivered : ∃ fd, stack.socketFor ep.addr.port = some fd ∧
    fd ∈ selectable cfg dev ∧ DeliversUnicast cfg dev device fd

theorem InitedBy.listensAt {cfg : BuildConfig} {env : InitEnv} {device : Int}
    {dev : IpContext} (hdev : InitedBy cfg env device dev)
    (stack : UdpStack cfg env) {ep : OcEndpoint} (hdevice : ep.device = device)
    (hbound : env.boundPort cfg = some ep.addr.port) :
    ListensAt cfg env stack device dev ep := by
  have hdelivers := deliversUnicast hdev.toUndisturbed
  have hfd := hdev.sock _ hbound
  constructor
  case owner => exact hdevice
  case bound => exact hbound
  case recorded => exact hdev.port _ hbound
  case running => simp [hdev.running]
  case delivered =>
    refine ⟨_, stack.unicast _ hbound, ?_, ?_⟩
    · rw [← hfd]
      exact unicast_selectable cfg dev
    · rwa [hdev.device, hfd] at hdelivers

/--
After any successful inits, a device listens where it is said to exactly if it
is device 0 and the stack assigned the well-known port.
-/
theorem listensAt_iff {cfg : BuildConfig} {calls : List LifecycleCall}
    {t : AdapterState × LifecycleLog}
    (hcalls : (lifecycleMachine cfg).Throughout (Succeeding cfg)
      (bootAdapter, []) calls)
    (hrun : (lifecycleMachine cfg).run calls = some t) {device : Int}
    {env : InitEnv} (hinit : servingInit cfg device calls = some env)
    (stack : UdpStack cfg env) {addresses : AddressEnv} {ep : OcEndpoint}
    (hep : ocConnectivityGetEndpoints cfg addresses device = some ep) :
    ∃ ref, getIpContextForDevice cfg device t.1 = some ref ∧
      (ListensAt cfg env stack device (t.1.memory ref) ep ↔
        device = 0 ∧ env.boundPort cfg = some ocfPortUnsecured) := by
  obtain ⟨ref, href, hdev⟩ :=
    (run_broughtUp hcalls hrun).served device env hinit
  obtain ⟨hdevice, hport⟩ := getEndpoints_eq hep
  refine ⟨ref, href, ?_⟩
  constructor
  · intro h
    rw [← h.owner, hdevice, h.bound, hport]
    exact ⟨rfl, rfl⟩
  · rintro ⟨rfl, hbound⟩
    exact hdev.listensAt stack hdevice (hport ▸ hbound)

/-- Every call succeeds, and the stack assigns `port` to each socket. -/
def assignedEnv (port : BitVec 16) : InitEnv :=
  { workingEnv inTurn with
    getsockname := fun _ => some { SockaddrStorage.zero with
      family := .inet6, port := htons port } }

def ipv6Build : BuildConfig := ⟨false, false, false, false⟩

def oneSocket (port : BitVec 16) (hport : ntohs (htons port) = port) :
    UdpStack ipv6Build (assignedEnv port) where
  socketFor p := if p = port then some 3 else none
  unicast := by
    rintro _ h
    cases h
    simp [hport, assignedEnv, workingEnv, unicastRole, ipv6Build, inTurn]

theorem wellKnown_listensAt :
    ∃ t ref, (lifecycleMachine ipv6Build).run [.init 0 (assignedEnv 5683)] =
        some t ∧
      getIpContextForDevice ipv6Build 0 t.1 = some ref ∧
      (ListensAt ipv6Build (assignedEnv 5683) (oneSocket 5683 (by decide)) 0
          (t.1.memory ref) ⟨0, { ipv6 := true }, .ipv6 1 5683 0⟩ ↔
        (0 : Int) = 0 ∧
          (assignedEnv 5683).boundPort ipv6Build = some ocfPortUnsecured) := by
  have hsome : ((lifecycleMachine ipv6Build).run
      [.init 0 (assignedEnv 5683)]).isSome := by decide +kernel
  obtain ⟨t, hrun⟩ := Option.isSome_iff_exists.mp hsome
  have hinit : servingInit ipv6Build 0 [.init 0 (assignedEnv 5683)] =
      some (assignedEnv 5683) := rfl
  have hep : ocConnectivityGetEndpoints ipv6Build ⟨some 1, none⟩ 0 =
      some ⟨0, { ipv6 := true }, .ipv6 1 5683 0⟩ := rfl
  obtain ⟨ref, href, hiff⟩ := listensAt_iff (by decide +kernel) hrun hinit
    (oneSocket 5683 (by decide)) hep
  exact ⟨t, ref, hrun, href, hiff⟩

/-- Whatever is initialised, and whatever the stack assigns. -/
def AlwaysListens (cfg : BuildConfig) : Prop :=
  ∀ calls t,
    (lifecycleMachine cfg).Throughout (Succeeding cfg) (bootAdapter, [])
      calls →
    (lifecycleMachine cfg).run calls = some t →
    ∀ device env, servingInit cfg device calls = some env →
    ∀ (stack : UdpStack cfg env) addresses ep,
      ocConnectivityGetEndpoints cfg addresses device = some ep →
      ∃ ref, getIpContextForDevice cfg device t.1 = some ref ∧
        ListensAt cfg env stack device (t.1.memory ref) ep

/-- Device 0 is bound to port 49152 and said to be at 5683. -/
theorem listens_fails : ¬ ∀ cfg, AlwaysListens cfg := by
  intro h
  have hsome : ((lifecycleMachine ipv6Build).run
      [.init 0 (assignedEnv 49152)]).isSome := by decide +kernel
  obtain ⟨t, hrun⟩ := Option.isSome_iff_exists.mp hsome
  obtain ⟨ref, -, hlistens⟩ := h ipv6Build _ t (by decide +kernel) hrun 0
    (assignedEnv 49152) (by rfl) (oneSocket 49152 (by decide)) ⟨some 1, none⟩ _
    (by rfl)
  exact absurd hlistens.bound (by decide)

end EspIotivity.Adapter
