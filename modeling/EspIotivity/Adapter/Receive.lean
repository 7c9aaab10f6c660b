import EspIotivity.Adapter.Types
import EspIotivity.Foundation.Handoff

/-!
# The receive loop

One pass of the for-loop in `network_event_thread`: after `select`, each
iteration allocates a message, receives into it from the first ready socket
and hands it to `oc_network_event`.
-/

namespace EspIotivity.Adapter

open EspIotivity.Foundation

inductive SocketRole where
  | server
  | mcast
  | server4
  | mcast4
  | secure
  | secure4
  deriving DecidableEq, Repr

def IpContext.sock (dev : IpContext) : SocketRole → Int
  | .server => dev.serverSock
  | .mcast => dev.mcastSock
  | .server4 => dev.server4Sock
  | .mcast4 => dev.mcast4Sock
  | .secure => dev.secureSock
  | .secure4 => dev.secure4Sock

def SocketRole.family : SocketRole → AddressFamily
  | .server | .mcast | .secure => .inet6
  | .server4 | .mcast4 | .secure4 => .inet

/-- What a successful `recvfrom` stored, and `client` as it left it. -/
structure Datagram where
  bytes : List UInt8
  client : SockaddrStorage
  deriving DecidableEq, Repr

/--
What the `i`th `oc_allocate_message` returns, with whatever the buffer held,
and the outcome of the `j`th `recvfrom`, `none` when it is negative.
-/
structure ReceiveEnv where
  allocate : Nat → Option OcMessage
  recvfrom : Nat → Option Datagram

abbrev ReceiveEvent := HandoffEvent SocketRole Datagram OcMessage

/-! ## The loop body -/

inductive Jump where
  | fallThrough
  | common
  | nextIteration
  deriving DecidableEq, Repr

structure BodyVars where
  message : OcMessage
  setfds : Finset Int
  client : SockaddrStorage
  recvCalls : Nat
  events : List ReceiveEvent

/-- One `if (FD_ISSET(sock, &setfds))` branch; `after` follows a success. -/
structure ReceiveBranch where
  role : SocketRole
  sock : Int
  flags : TransportFlags
  after : Jump
  deriving DecidableEq, Repr

def serverBranch (dev : IpContext) : ReceiveBranch :=
  ⟨.server, dev.serverSock, { ipv6 := true }, .common⟩

def mcastBranch (dev : IpContext) : ReceiveBranch :=
  ⟨.mcast, dev.mcastSock, { ipv6 := true, multicast := true }, .common⟩

def server4Branch (dev : IpContext) : ReceiveBranch :=
  ⟨.server4, dev.server4Sock, { ipv4 := true }, .common⟩

def mcast4Branch (dev : IpContext) : ReceiveBranch :=
  ⟨.mcast4, dev.mcast4Sock, { ipv4 := true, multicast := true }, .common⟩

/-- The two secure branches have no `goto common`. -/
def secureBranch (dev : IpContext) : ReceiveBranch :=
  ⟨.secure, dev.secureSock, { ipv6 := true, secured := true }, .fallThrough⟩

def secure4Branch (dev : IpContext) : ReceiveBranch :=
  ⟨.secure4, dev.secure4Sock, { ipv4 := true, secured := true }, .fallThrough⟩

def openBranches (cfg : BuildConfig) (dev : IpContext) : List ReceiveBranch :=
  [serverBranch dev, mcastBranch dev] ++
    if cfg.ocIpv4 then [server4Branch dev, mcast4Branch dev] else []

def secureBranches (cfg : BuildConfig) (dev : IpContext) :
    List ReceiveBranch :=
  if cfg.ocSecurity then
    secureBranch dev :: if cfg.ocIpv4 then [secure4Branch dev] else []
  else []

def branches (cfg : BuildConfig) (dev : IpContext) : List ReceiveBranch :=
  openBranches cfg dev ++ secureBranches cfg dev

/-- `recvfrom` writes `count` bytes to the front of `message->data`. -/
def OcMessage.receive (message : OcMessage) (flags : TransportFlags)
    (device : Int) (datagram : Datagram) : OcMessage :=
  { length := datagram.bytes.length
    data := datagram.bytes ++ message.data.drop datagram.bytes.length
    endpoint := { message.endpoint with flags, device } }

def ReceiveBranch.failed (branch : ReceiveBranch) (v : BodyVars) : BodyVars :=
  { v with
    recvCalls := v.recvCalls + 1
    events := v.events ++ [.attempt branch.role none, .release] }

def ReceiveBranch.received (dev : IpContext) (branch : ReceiveBranch)
    (datagram : Datagram) (v : BodyVars) : BodyVars where
  message := v.message.receive branch.flags dev.device datagram
  setfds := v.setfds.erase branch.sock
  client := datagram.client
  recvCalls := v.recvCalls + 1
  events := v.events ++ [.attempt branch.role (some datagram)]

def ReceiveBranch.run (env : ReceiveEnv) (dev : IpContext)
    (branch : ReceiveBranch) (v : BodyVars) : Jump × BodyVars :=
  if branch.sock ∈ v.setfds then
    match env.recvfrom v.recvCalls with
    | none => (.nextIteration, branch.failed v)
    | some datagram => (branch.after, branch.received dev datagram v)
  else (.fallThrough, v)

def runBranches (env : ReceiveEnv) (dev : IpContext) :
    List ReceiveBranch → BodyVars → Jump × BodyVars
  | [], v => (.common, v)
  | branch :: rest, v =>
      match branch.run env dev v with
      | (.fallThrough, w) => runBranches env dev rest w
      | stopped => stopped

/-- The statements after the label `common`, up to `oc_network_event`. -/
def endpointAddr (cfg : BuildConfig) (message : OcMessage)
    (client : SockaddrStorage) : DevAddr :=
  if cfg.ocIpv4 && message.endpoint.flags.ipv4 then
    .ipv4 client.sinAddr (ntohs client.port)
  else if message.endpoint.flags.ipv6 then
    .ipv6 client.sin6Addr (ntohs client.port) 0
  else message.endpoint.addr

def deliverCommon (cfg : BuildConfig) (v : BodyVars) : BodyVars :=
  let message := { v.message with
    endpoint := { v.message.endpoint with
      addr := endpointAddr cfg v.message v.client } }
  { v with message, events := v.events ++ [.deliver message] }

/-! ## The pass -/

structure PassVars where
  setfds : Finset Int
  client : SockaddrStorage
  recvCalls : Nat
  trace : HandoffTrace SocketRole Datagram OcMessage

def loopBody (cfg : BuildConfig) (dev : IpContext) (env : ReceiveEnv)
    (message : OcMessage) (v : PassVars) : BodyVars :=
  match runBranches env dev (branches cfg dev)
      ⟨message, v.setfds, v.client, v.recvCalls, [.acquire]⟩ with
  | (.nextIteration, w) => w
  | (_, w) => deliverCommon cfg w

def PassVars.advance (v : PassVars) (i : Nat) (w : BodyVars) : PassVars where
  setfds := w.setfds
  client := w.client
  recvCalls := w.recvCalls
  trace := v.trace ++ w.events.map fun event => (i, event)

/-- The iterations from `i` on, `remaining` of them before `i` reaches `n`. -/
def receiveLoop (cfg : BuildConfig) (dev : IpContext) (env : ReceiveEnv) :
    Nat → Nat → PassVars → PassVars
  | 0, _, v => v
  | remaining + 1, i, v =>
      match env.allocate i with
      | none => v
      | some message =>
          receiveLoop cfg dev env remaining (i + 1)
            (v.advance i (loopBody cfg dev env message v))

def rfds (cfg : BuildConfig) (dev : IpContext) : Finset Int :=
  {dev.serverSock, dev.mcastSock} ∪
    (if cfg.ocSecurity then {dev.secureSock} else ∅) ∪
    if cfg.ocIpv4 then
      {dev.server4Sock, dev.mcast4Sock} ∪
        if cfg.ocSecurity then {dev.secure4Sock} else ∅
    else ∅

/-- `setfds` as `select` leaves it. -/
structure Ready (cfg : BuildConfig) (dev : IpContext) where
  setfds : Finset Int
  watched : setfds ⊆ rfds cfg dev

def receivePass (cfg : BuildConfig) (dev : IpContext) (env : ReceiveEnv)
    (ready : Ready cfg dev) (client : SockaddrStorage) : PassVars :=
  receiveLoop cfg dev env ready.setfds.card 0 ⟨ready.setfds, client, 0, []⟩

end EspIotivity.Adapter
