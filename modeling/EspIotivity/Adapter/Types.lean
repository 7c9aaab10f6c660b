import Mathlib.Data.Finset.Basic

/-!
# Data of the IP adapter

Build options, socket addresses, endpoints, messages and the network context
that `ipadapter.c` keeps for each device.
-/

namespace EspIotivity.Adapter

structure BuildConfig where
  ocIpv4 : Bool
  ocSecurity : Bool
  ocDynamicAllocation : Bool
  ocLeaveGroup : Bool
  deriving DecidableEq, Repr

inductive AddressFamily where
  | unspec
  | inet
  | inet6
  deriving DecidableEq, Repr

/--
The fields that `sockaddr_in` and `sockaddr_in6` see in one storage.  The port
is in network order; `sinAddr` lies where `sin6_flowinfo` does.
-/
structure SockaddrStorage where
  family : AddressFamily
  port : BitVec 16
  sinAddr : BitVec 32
  sin6Addr : BitVec 128
  scopeId : BitVec 32
  deriving DecidableEq, Repr

def SockaddrStorage.zero : SockaddrStorage := ⟨.unspec, 0, 0, 0, 0⟩

/-- The target is little-endian: network order is the two bytes swapped. -/
def ntohs (port : BitVec 16) : BitVec 16 :=
  port.extractLsb' 0 8 ++ port.extractLsb' 8 8

def htons (port : BitVec 16) : BitVec 16 := ntohs port

structure TransportFlags where
  ipv4 : Bool := false
  ipv6 : Bool := false
  multicast : Bool := false
  secured : Bool := false
  deriving DecidableEq, Repr

inductive DevAddr where
  | ipv4 (address : BitVec 32) (port : BitVec 16)
  | ipv6 (address : BitVec 128) (port : BitVec 16) (scope : Nat)
  deriving DecidableEq, Repr

structure OcEndpoint where
  device : Int
  flags : TransportFlags
  addr : DevAddr
  deriving DecidableEq, Repr

structure OcMessage where
  length : Nat
  data : List UInt8
  endpoint : OcEndpoint
  deriving DecidableEq, Repr

/-- The fields that a build leaves out are there and unused. -/
structure IpContext where
  mcast : SockaddrStorage
  server : SockaddrStorage
  mcastSock : Int
  serverSock : Int
  port : BitVec 16
  secure : SockaddrStorage
  secureSock : Int
  dtlsPort : BitVec 16
  mcast4 : SockaddrStorage
  server4 : SockaddrStorage
  mcast4Sock : Int
  server4Sock : Int
  port4 : BitVec 16
  secure4 : SockaddrStorage
  secure4Sock : Int
  dtls4Port : BitVec 16
  eventThread : Nat
  terminate : Int
  device : Int
  deriving DecidableEq, Repr

def IpContext.zero : IpContext :=
  ⟨.zero, .zero, 0, 0, 0, .zero, 0, 0, .zero, .zero, 0, 0, 0, .zero, 0, 0, 0, 0,
    0⟩

end EspIotivity.Adapter
