import EspIotivity.Adapter.Connectivity
import EspIotivity.Adapter.ExactlyOnce
import EspIotivity.Foundation.Narrowing

/-!
# Sending, and the way back

`oc_send_buffer` chooses the socket and builds the receiver's address from the
flags of an endpoint; the receive loop sets these flags in six branches.
-/

namespace EspIotivity.Adapter

open EspIotivity.Foundation

/-! ## `oc_send_buffer` -/

/-- How the union of an endpoint's addresses reads through its other member. -/
structure AddrUnion where
  ipv4Of : BitVec 128 → BitVec 16 → Nat → BitVec 32 × BitVec 16
  ipv6Of : BitVec 32 → BitVec 16 → BitVec 128 × BitVec 16

def DevAddr.readIpv4 (union : AddrUnion) : DevAddr → BitVec 32 × BitVec 16
  | .ipv4 address port => (address, port)
  | .ipv6 address port scope => union.ipv4Of address port scope

def DevAddr.readIpv6 (union : AddrUnion) : DevAddr → BitVec 128 × BitVec 16
  | .ipv4 address port => union.ipv6Of address port
  | .ipv6 address port _ => (address, port)

structure SendCall where
  sock : Int
  bytes : List UInt8
  receiver : SockaddrStorage
  deriving DecidableEq, Repr

def receiverOf (cfg : BuildConfig) (union : AddrUnion)
    (endpoint : OcEndpoint) : SockaddrStorage :=
  if cfg.ocIpv4 && endpoint.flags.ipv4 then
    let (address, port) := endpoint.addr.readIpv4 union
    { SockaddrStorage.zero with
      sinAddr := address, family := .inet, port := htons port }
  else
    let (address, port) := endpoint.addr.readIpv6 union
    { SockaddrStorage.zero with
      sin6Addr := address, family := .inet6, port := htons port, scopeId := 0 }

def sendSock (cfg : BuildConfig) (dev : IpContext) (flags : TransportFlags) :
    Int :=
  if cfg.ocSecurity && flags.secured then
    if cfg.ocIpv4 && flags.ipv4 then dev.secure4Sock else dev.secureSock
  else if cfg.ocIpv4 && flags.ipv4 then dev.server4Sock
  else dev.serverSock

def sendCall (sock : Int) (receiver : SockaddrStorage) (message : OcMessage)
    (bytesSent : Nat) : SendCall where
  sock := sock
  bytes := (message.data.drop bytesSent).take (message.length - bytesSent)
  receiver := receiver

/-- The `sendto` calls, as far as `results` says what they return. -/
def sendLoop (sock : Int) (receiver : SockaddrStorage) (message : OcMessage) :
    List Int → Nat → List SendCall
  | [], bytesSent =>
      if bytesSent < toInt32 message.length then
        [sendCall sock receiver message bytesSent]
      else []
  | x :: results, bytesSent =>
      if bytesSent < toInt32 message.length then
        sendCall sock receiver message bytesSent ::
          if x < 0 then []
          else sendLoop sock receiver message results (bytesSent + x.toNat)
      else []

/-- `none` when it dereferences the null pointer. -/
def ocSendBuffer (cfg : BuildConfig) (union : AddrUnion) (s : AdapterState)
    (message : OcMessage) (results : List Int) : Option (List SendCall) :=
  (getIpContextForDevice cfg message.endpoint.device s).map fun ref =>
    sendLoop (sendSock cfg (s.memory ref) message.endpoint.flags)
      (receiverOf cfg union message.endpoint) message results 0

theorem getLsbD_ntohs (port : BitVec 16) (i : Nat) :
    (ntohs port).getLsbD i =
      if i < 8 then port.getLsbD (i + 8)
      else decide (i < 16) && port.getLsbD (i - 8) := by
  change (port.extractLsb' 0 8 ++ port.extractLsb' 8 8).getLsbD i = _
  rw [BitVec.getLsbD_append, BitVec.getLsbD_extractLsb',
    BitVec.getLsbD_extractLsb']
  by_cases h : i < 8
  · simp [h, Nat.add_comm]
  · have hiff : i - 8 < 8 ↔ i < 16 := by omega
    simp [h, hiff]

/-- Swapping the bytes twice gives the port back. -/
theorem htons_ntohs (port : BitVec 16) : htons (ntohs port) = port := by
  apply BitVec.eq_of_getLsbD_eq
  intro i hi
  rw [htons, getLsbD_ntohs, getLsbD_ntohs, getLsbD_ntohs]
  by_cases h : i < 8
  · have hge : ¬ i + 8 < 8 := by omega
    have hlt : i + 8 < 16 := by omega
    simp [h, hge, hlt]
  · have hlt : i - 8 < 8 := by omega
    have hadd : i - 8 + 8 = i := by omega
    simp [h, hi, hlt, hadd]

/-! ## The way back -/

/-- The socket from which a reply to what `role` received is sent. -/
def SocketRole.replyRole : SocketRole → SocketRole
  | .server | .mcast => .server
  | .server4 | .mcast4 => .server4
  | .secure => .secure
  | .secure4 => .secure4

structure SamePeer (receiver client : SockaddrStorage) : Prop where
  family : receiver.family = client.family
  port : receiver.port = client.port
  inet : client.family = .inet → receiver.sinAddr = client.sinAddr
  inet6 : client.family = .inet6 → receiver.sin6Addr = client.sin6Addr

/-- The context is the only one registered under its device number. -/
structure OnlyContext (cfg : BuildConfig) (s : AdapterState)
    (ref : ContextRef) : Prop where
  slot : cfg.ocDynamicAllocation = false → ref = .slot (s.memory ref).device
  node : cfg.ocDynamicAllocation = true → ref ∈ s.ipContexts ∧
    ∀ other ∈ s.ipContexts, (s.memory other).device = (s.memory ref).device →
      other = ref

theorem getIpContext_only {cfg : BuildConfig} {s : AdapterState}
    {ref : ContextRef} (honly : OnlyContext cfg s ref) :
    getIpContextForDevice cfg (s.memory ref).device s = some ref := by
  cases hdynamic : cfg.ocDynamicAllocation with
  | false => simp [getIpContextForDevice, hdynamic, ← honly.slot hdynamic]
  | true =>
      obtain ⟨hmem, hunique⟩ := honly.node hdynamic
      simp only [getIpContextForDevice, hdynamic, if_true]
      have hsome : (s.ipContexts.find? fun other =>
          (s.memory other).device = (s.memory ref).device).isSome := by
        rw [List.find?_isSome]
        exact ⟨ref, hmem, by simp⟩
      obtain ⟨other, hother⟩ := Option.isSome_iff_exists.mp hsome
      have hdevice := List.find?_some hother
      rw [hother, hunique other (List.mem_of_find?_eq_some hother)
        (by simpa using hdevice)]

section Reply

variable {cfg : BuildConfig} {s : AdapterState} {ref : ContextRef}

theorem samePeer_role (union : AddrUnion) {role : SocketRole}
    {client : SockaddrStorage} {endpoint : OcEndpoint}
    (hipv4 : role.flags.ipv4 = true → cfg.ocIpv4 = true)
    (hfamily : client.family = role.family)
    (hflags : endpoint.flags = role.flags)
    (haddr : endpoint.addr = role.address client) :
    SamePeer (receiverOf cfg union endpoint) client := by
  rw [receiverOf, hflags, haddr]
  cases h4 : role.flags.ipv4 with
  | true =>
      have hinet : role.family = .inet := by
        cases role <;> first | rfl | cases h4
      constructor
      all_goals simp [hipv4 h4, SocketRole.address, h4, DevAddr.readIpv4,
        htons_ntohs, hfamily, hinet]
  | false =>
      have hinet6 : role.family = .inet6 := by
        cases role <;> first | rfl | cases h4
      constructor
      all_goals simp [SocketRole.address, h4, DevAddr.readIpv6, htons_ntohs,
        hfamily, hinet6]

end Reply

/-! ## Every datagram of a pass -/

/-- What is left of `ready`: `secure_sock` is cleared before `secure4_sock`. -/
structure Remains (cfg : BuildConfig) (dev : IpContext)
    (ready setfds : Finset Int) : Prop where
  sub : setfds ⊆ ready
  secure4 : BothSecure cfg dev ready → dev.secureSock ∈ setfds →
    dev.secure4Sock ∈ setfds

section Pass

variable {cfg : BuildConfig} {dev : IpContext} {env : ReceiveEnv}
  {ready setfds : Finset Int}

/-- While both secure sockets are ready an open one is served before them. -/
theorem served_open {sock : Int}
    (hboth : setfds ∩ openFds cfg dev = ∅ → ¬ BothSecure cfg dev setfds)
    (hopen : (setfds ∩ openFds cfg dev).Nonempty → sock ∈ openFds cfg dev)
    (hnow : BothSecure cfg dev setfds) : sock ∈ openFds cfg dev := by
  apply hopen
  rw [Finset.nonempty_iff_ne_empty]
  exact fun hempty => hboth hempty hnow

theorem Remains.refl (ready : Finset Int) : Remains cfg dev ready ready :=
  ⟨subset_rfl, fun hboth _ => (Finset.mem_sdiff.mp hboth.secure4).1⟩

theorem Remains.bothSecure (h : Remains cfg dev ready setfds)
    (hboth : BothSecure cfg dev ready) (hsecure : dev.secureSock ∈ setfds) :
    BothSecure cfg dev setfds := by
  obtain ⟨h4, hs, hne, hopen, hopen4⟩ := hboth
  have hsecure4 := h.secure4 ⟨h4, hs, hne, hopen, hopen4⟩ hsecure
  exact ⟨h4, hs, hne,
    Finset.mem_sdiff.mpr ⟨hsecure, (Finset.mem_sdiff.mp hopen).2⟩,
    Finset.mem_sdiff.mpr ⟨hsecure4, (Finset.mem_sdiff.mp hopen4).2⟩⟩

theorem remains_next {v : PassVars} {w : BodyVars}
    (hv : Remains cfg dev ready v.setfds)
    (hiteration : Iteration cfg dev env v w) :
    Remains cfg dev ready w.setfds := by
  cases hiteration with
  | idle | failed => exact hv
  | received _ branch _ _ hready hboth hopen =>
      refine ⟨(Finset.erase_subset _ _).trans hv.sub, fun hbothReady h => ?_⟩
      obtain ⟨-, hsecure⟩ := Finset.mem_erase.mp h
      have hnow := hv.bothSecure hbothReady hsecure
      have hsock := served_open hboth hopen hnow
      obtain ⟨hmem, hnot⟩ := Finset.mem_sdiff.mp hnow.secure4
      exact Finset.mem_erase.mpr ⟨fun heq => hnot (heq ▸ hsock), hmem⟩
  | lost =>
      refine ⟨(Finset.erase_subset _ _).trans hv.sub, fun _ h => ?_⟩
      exact absurd h (Finset.notMem_erase _ _)
  | overwritten =>
      refine ⟨((Finset.erase_subset _ _).trans (Finset.erase_subset _ _)).trans
        hv.sub, fun _ h => ?_⟩
      exact absurd (Finset.mem_of_mem_erase h) (Finset.notMem_erase _ _)

theorem iteration_ready {v : PassVars} {w : BodyVars} {role : SocketRole}
    {result : Option Datagram} (hiteration : Iteration cfg dev env v w)
    (hrecv : .attempt role result ∈ w.events) : dev.sock role ∈ v.setfds := by
  cases hiteration with
  | idle => simp at hrecv
  | failed _ branch hbranch hready | received _ branch _ hbranch hready =>
      simp only [List.mem_cons, reduceCtorEq, List.not_mem_nil, or_false,
        false_or, HandoffEvent.attempt.injEq] at hrecv
      rw [hrecv.1, branch_sock cfg dev branch hbranch]
      exact hready
  | lost _ _ hboth | overwritten _ _ _ hboth =>
      simp only [List.mem_cons, reduceCtorEq, List.not_mem_nil, or_false,
        false_or, HandoffEvent.attempt.injEq] at hrecv
      rcases hrecv with ⟨rfl, -⟩ | ⟨rfl, -⟩
      · exact (Finset.mem_sdiff.mp hboth.secure).1
      · exact (Finset.mem_sdiff.mp hboth.secure4).1

variable (dev env) in
/-- The events of one object are those of one iteration of the pass. -/
theorem receivePass_history (ready : Ready cfg dev) (client : SockaddrStorage)
    (i : Nat) :
    history i (receivePass cfg dev env ready client).trace = [] ∨
      ∃ v message, Remains cfg dev ready.setfds v.setfds ∧
        history i (receivePass cfg dev env ready client).trace =
          (loopBody cfg dev env message v).events := by
  have hstep : ∀ v message, Remains cfg dev ready.setfds v.setfds →
      Remains cfg dev ready.setfds (loopBody cfg dev env message v).setfds := by
    intro v message hv
    exact remains_next hv
      (loopBody_iteration env message (hv.sub.trans ready.watched))
  exact receiveLoop_history hstep ready.setfds.card
    (v := ⟨ready.setfds, client, 0, []⟩) (Remains.refl ready.setfds)
    (fun event hevent => absurd hevent List.not_mem_nil) (Nat.zero_le i)

end Pass

section Replies

variable {cfg : BuildConfig} {env : ReceiveEnv} {s : AdapterState}
  {ref : ContextRef} {role : SocketRole} {datagram : Datagram}
  {delivered : OcMessage}

end Replies

/-- The port comes first in both members, the address next. -/
def overlaid : AddrUnion where
  ipv4Of address port _ := (address.extractLsb' 96 32, port)
  ipv6Of address port := (address ++ 0#96, port)

end EspIotivity.Adapter
