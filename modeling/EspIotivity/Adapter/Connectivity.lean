import EspIotivity.Adapter.Receive
import EspIotivity.Foundation.Program
import Mathlib.Logic.Function.Basic

/-!
# Creating and destroying a device's network context

`oc_connectivity_init` and `oc_connectivity_shutdown`, with the results of the
socket calls, of `calloc` and of `pthread_create` given by an environment.
`print_error` loops for ever, so a call that reaches it does not return.
-/

namespace EspIotivity.Adapter

open EspIotivity.Foundation

inductive ContextRef where
  | slot (device : Int)
  | node (address : Nat)
  deriving DecidableEq, Repr

inductive NetCall where
  | socket (family : AddressFamily) (result : Int)
  | close (sock : Int)
  | pthreadCreate (thread : Nat)
  | pthreadCancel (thread : Nat)
  | pthreadJoin (thread : Nat)
  deriving DecidableEq, Repr

structure AdapterState where
  memory : ContextRef → IpContext
  ipContexts : List ContextRef
  calls : List NetCall

/-- The calls of `configure_mcast_socket`; the scopes are those it joins. -/
inductive McastStep where
  | getIp
  | multicastIf
  | leave (scope : Nat)
  | join (scope : Nat)
  deriving DecidableEq, Repr

structure InitEnv where
  calloc : Option Nat
  socket : SocketRole → Int
  v6only : Bool
  bind : SocketRole → Bool
  getsockname : SocketRole → Option SockaddrStorage
  reuse : SocketRole → Bool
  mcastStep : McastStep → Bool
  ip6Linklocal : Option (BitVec 128)
  ipInfo : Option (BitVec 32)
  pthreadCreate : Option Nat

/-! ## The body of `oc_connectivity_init` -/

/-- Returning -1, or looping in `print_error`. -/
inductive InitFailure where
  | returned
  | halted
  deriving DecidableEq, Repr

structure InitVars where
  dev : IpContext
  calls : List NetCall
  deriving DecidableEq, Repr

abbrev InitProgram := Program InitVars InitFailure

def ocfPortUnsecured : BitVec 16 := 5683

def setDev (f : IpContext → IpContext) : InitProgram PUnit :=
  Program.update fun v => { v with dev := f v.dev }

def recordCall (call : NetCall) : InitProgram PUnit :=
  Program.update fun v => { v with calls := v.calls ++ [call] }

def IpContext.setSock (dev : IpContext) (role : SocketRole) (sock : Int) :
    IpContext :=
  match role with
  | .server => { dev with serverSock := sock }
  | .mcast => { dev with mcastSock := sock }
  | .server4 => { dev with server4Sock := sock }
  | .mcast4 => { dev with mcast4Sock := sock }
  | .secure => { dev with secureSock := sock }
  | .secure4 => { dev with secure4Sock := sock }

def openSocket (env : InitEnv) (role : SocketRole) (family : AddressFamily) :
    InitProgram PUnit := do
  recordCall (.socket family (env.socket role))
  setDev fun dev => dev.setSock role (env.socket role)

def returnUnless (condition : Bool) : InitProgram PUnit :=
  Program.ensure .returned condition

/-- `add_mcast_sock_to_ipv6_mcast_group` or the IPv4 one. -/
def mcastSteps (cfg : BuildConfig) (family : AddressFamily) :
    List McastStep :=
  let group (scope : Nat) : List McastStep :=
    if cfg.ocLeaveGroup then [.leave scope, .join scope] else [.join scope]
  match family with
  | .inet6 => [.getIp, .multicastIf] ++ group 2 ++ group 3 ++ group 5
  | .inet => [.getIp, .multicastIf] ++ group 0
  | .unspec => []

/-- Each failure ends in `print_error`; otherwise 0 is returned. -/
def configureMcastSocket (cfg : BuildConfig) (env : InitEnv)
    (family : AddressFamily) : InitProgram PUnit :=
  Program.ensure .halted ((mcastSteps cfg family).all env.mcastStep)

def bindNamed (env : InitEnv) (role : SocketRole)
    (store : SockaddrStorage → IpContext → IpContext) : InitProgram PUnit := do
  returnUnless (env.bind role)
  let name ← Program.orFail .returned (env.getsockname role)
  setDev (store name)

def bindMcast (cfg : BuildConfig) (env : InitEnv) (role : SocketRole)
    (family : AddressFamily) : InitProgram PUnit := do
  configureMcastSocket cfg env family
  returnUnless (env.reuse role)
  returnUnless (env.bind role)

def bindSecure (env : InitEnv) (role : SocketRole)
    (store : SockaddrStorage → IpContext → IpContext) : InitProgram PUnit := do
  returnUnless (env.reuse role)
  bindNamed env role store

/-- The part of `oc_connectivity_init` that an IPv4 build leaves out. -/
def connectivityIpv6Init (cfg : BuildConfig) (env : InitEnv) :
    InitProgram PUnit := do
  setDev fun dev => { dev with
    mcast := { SockaddrStorage.zero with
      family := .inet6, port := htons ocfPortUnsecured }
    server := { SockaddrStorage.zero with family := .inet6 } }
  let address ← Program.orFail .halted env.ip6Linklocal
  setDev fun dev => { dev with
    server := { dev.server with sin6Addr := address, port := 0 } }
  Program.when cfg.ocSecurity <| setDev fun dev => { dev with
    secure := { SockaddrStorage.zero with family := .inet6 } }
  openSocket env .server .inet6
  openSocket env .mcast .inet6
  returnUnless (0 ≤ env.socket .server && 0 ≤ env.socket .mcast)
  Program.when cfg.ocSecurity do
    openSocket env .secure .inet6
    returnUnless (0 ≤ env.socket .secure)
  returnUnless env.v6only
  bindNamed env .server fun name dev =>
    { dev with server := name, port := ntohs name.port }
  bindMcast cfg env .mcast .inet6
  Program.when cfg.ocSecurity <| bindSecure env .secure fun name dev =>
    { dev with secure := name, dtlsPort := ntohs name.port }

def connectivityIpv4Init (cfg : BuildConfig) (env : InitEnv) :
    InitProgram PUnit := do
  setDev fun dev => { dev with
    mcast4 := { SockaddrStorage.zero with
      family := .inet, port := htons ocfPortUnsecured }
    server4 := { SockaddrStorage.zero with family := .inet } }
  let address ← Program.orFail .halted env.ipInfo
  setDev fun dev => { dev with
    server4 := { dev.server4 with sinAddr := address, port := 0 } }
  Program.when cfg.ocSecurity do
    setDev fun dev => { dev with
      secure4 := { SockaddrStorage.zero with family := .inet } }
    openSocket env .secure4 .inet
    returnUnless (0 ≤ env.socket .secure4)
  openSocket env .server4 .inet
  openSocket env .mcast4 .inet
  returnUnless (0 ≤ env.socket .server4 && 0 ≤ env.socket .mcast4)
  bindNamed env .server4 fun name dev =>
    { dev with server4 := name, port4 := ntohs name.port }
  bindMcast cfg env .mcast4 .inet
  Program.when cfg.ocSecurity <| bindSecure env .secure4 fun name dev =>
    { dev with secure4 := name, dtls4Port := ntohs name.port }

/-- From `dev->device = device` on; an IPv4 failure is only logged. -/
def initContext (cfg : BuildConfig) (env : InitEnv) (device : Int) :
    InitProgram PUnit := do
  setDev fun dev => { dev with device }
  Program.when (!cfg.ocIpv4) (connectivityIpv6Init cfg env)
  Program.when cfg.ocIpv4
    (Program.ignoring .returned (connectivityIpv4Init cfg env))
  let thread ← Program.orFail .returned env.pthreadCreate
  setDev fun dev => { dev with eventThread := thread }
  recordCall (.pthreadCreate thread)

/-! ## The entry points -/

def newContext (cfg : BuildConfig) (env : InitEnv) (device : Int) :
    Option ContextRef :=
  if cfg.ocDynamicAllocation then env.calloc.map .node
  else some (.slot device)

/-- A node is zeroed and added at the tail of the list. -/
def AdapterState.register (s : AdapterState) (cfg : BuildConfig)
    (ref : ContextRef) : AdapterState :=
  if cfg.ocDynamicAllocation then
    { s with
      memory := Function.update s.memory ref .zero
      ipContexts := s.ipContexts ++ [ref] }
  else s

def ocConnectivityInit (cfg : BuildConfig) (env : InitEnv) (device : Int)
    (s : AdapterState) : Option (AdapterState × Int) :=
  (newContext cfg env device).bind fun ref =>
    let s := s.register cfg ref
    let (result, v) := (initContext cfg env device).exec ⟨s.memory ref, s.calls⟩
    let t := { s with
      memory := Function.update s.memory ref v.dev, calls := v.calls }
    match result with
    | .ok _ => some (t, 0)
    | .error .returned => some (t, -1)
    | .error .halted => none

def getIpContextForDevice (cfg : BuildConfig) (device : Int)
    (s : AdapterState) : Option ContextRef :=
  if cfg.ocDynamicAllocation then
    s.ipContexts.find? fun ref => (s.memory ref).device = device
  else some (.slot device)

def closedSocks (cfg : BuildConfig) (dev : IpContext) : List Int :=
  [dev.serverSock, dev.mcastSock] ++
    (if cfg.ocIpv4 then [dev.server4Sock, dev.mcast4Sock] else []) ++
    if cfg.ocSecurity then
      dev.secureSock :: if cfg.ocIpv4 then [dev.secure4Sock] else []
    else []

/-- `none` when it dereferences the null pointer. -/
def ocConnectivityShutdown (cfg : BuildConfig) (device : Int)
    (s : AdapterState) : Option AdapterState :=
  (getIpContextForDevice cfg device s).map fun ref =>
    let dev := s.memory ref
    { memory := Function.update s.memory ref { dev with terminate := 1 }
      ipContexts :=
        if cfg.ocDynamicAllocation then s.ipContexts.erase ref
        else s.ipContexts
      calls := s.calls ++ (closedSocks cfg dev).map .close ++
        [.pthreadCancel dev.eventThread, .pthreadJoin dev.eventThread] }

def bootAdapter : AdapterState := ⟨fun _ => .zero, [], []⟩

/-! ## When an init returns 0, and what it leaves alone -/

def InitEnv.named (env : InitEnv) (role : SocketRole) : Bool :=
  env.bind role && (env.getsockname role).isSome

/-- The calls on whose failure the IPv6 part returns -1 succeed. -/
def InitEnv.ipv6Succeeds (env : InitEnv) (cfg : BuildConfig) : Bool :=
  (0 ≤ env.socket .server && 0 ≤ env.socket .mcast) &&
    ((!cfg.ocSecurity || 0 ≤ env.socket .secure) &&
      (env.v6only && (env.named .server &&
        ((env.reuse .mcast && env.bind .mcast) &&
          (!cfg.ocSecurity || env.reuse .secure && env.named .secure)))))

def InitEnv.ipv4Succeeds (env : InitEnv) (cfg : BuildConfig) : Bool :=
  (!cfg.ocSecurity || 0 ≤ env.socket .secure4) &&
    ((0 ≤ env.socket .server4 && 0 ≤ env.socket .mcast4) &&
      (env.named .server4 && ((env.reuse .mcast4 && env.bind .mcast4) &&
        (!cfg.ocSecurity || env.reuse .secure4 && env.named .secure4))))

/-- An IPv4 build returns -1 only when `pthread_create` fails. -/
def InitEnv.succeeds (env : InitEnv) (cfg : BuildConfig) : Bool :=
  (cfg.ocIpv4 || env.ipv6Succeeds cfg) && env.pthreadCreate.isSome

/-- The parts of a context that no statement after the first one writes. -/
def identity (v : InitVars) : Int × Int := (v.dev.device, v.dev.terminate)

def Spares (f : IpContext → IpContext) : Prop :=
  ∀ dev, (f dev).device = dev.device ∧ (f dev).terminate = dev.terminate

/-- Keeps `identity`, and returns -1 exactly when `condition` fails. -/
abbrev InitContract (condition : Bool) (p : InitProgram PUnit) : Prop :=
  Program.Contract identity .returned condition p

section Steps

variable {View : Type} {view : InitVars → View} (cfg : BuildConfig)
  (env : InitEnv) (role : SocketRole) (family : AddressFamily)

def Keeps (view : InitVars → View) (f : IpContext → IpContext) : Prop :=
  ∀ v, view { v with dev := f v.dev } = view v

theorem Spares.keeps {f : IpContext → IpContext} (hf : Spares f) :
    Keeps identity f :=
  fun v => Prod.ext (hf v.dev).1 (hf v.dev).2

theorem contract_setDev {f : IpContext → IpContext} (hf : Keeps view f) :
    Program.Contract view .returned true (setDev f) :=
  Program.contract_update hf

theorem contract_recordCall (call : NetCall) :
    InitContract true (recordCall call) :=
  Program.contract_update fun _ => rfl

theorem contract_returnUnless (condition : Bool) :
    Program.Contract view .returned condition (returnUnless condition) :=
  Program.contract_ensure condition

theorem contract_openSocket :
    InitContract true (openSocket env role family) := by
  apply Program.contract_bind_of_right (contract_recordCall _)
  intro _
  apply contract_setDev
  apply Spares.keeps
  intro dev
  cases role <;> exact ⟨rfl, rfl⟩

theorem contract_bindNamed {store : SockaddrStorage → IpContext → IpContext}
    (hstore : ∀ name, Keeps view (store name)) :
    Program.Contract view .returned (env.named role)
      (bindNamed env role store) := by
  apply Program.contract_bind (contract_returnUnless _)
  intro _
  apply Program.contract_bind_of_left (Program.contract_orFail _)
  intro name
  exact contract_setDev (hstore name)

theorem contract_bindMcast :
    Program.Contract view .returned (env.reuse role && env.bind role)
      (bindMcast cfg env role family) := by
  apply Program.contract_bind_of_right
  · exact Program.contract_ensure_other (by decide) _
  intro _
  apply Program.contract_bind (contract_returnUnless _)
  intro _
  exact contract_returnUnless _

theorem contract_bindSecure {store : SockaddrStorage → IpContext → IpContext}
    (hstore : ∀ name, Keeps view (store name)) :
    Program.Contract view .returned (env.reuse role && env.named role)
      (bindSecure env role store) :=
  Program.contract_bind (contract_returnUnless _) fun _ =>
    contract_bindNamed env role hstore

/-- The addresses are set up, up to the first call that can fail. -/
theorem contract_address {n : Nat} {f : IpContext → IpContext}
    {g : BitVec n → IpContext → IpContext} (hf : Spares f)
    (hg : ∀ address, Spares (g address)) (address : Option (BitVec n))
    {c : Bool} {rest : InitProgram PUnit} (hrest : InitContract c rest) :
    InitContract c (do
      setDev f
      let address ← Program.orFail .halted address
      setDev (g address)
      rest) := by
  refine Program.contract_bind_of_right (contract_setDev hf.keeps) fun _ => ?_
  refine Program.contract_bind_of_right
    (Program.contract_orFail_other (by decide) _) fun address => ?_
  exact Program.contract_bind_of_right (contract_setDev (hg address).keeps)
    fun _ => hrest

/-- The part of the IPv6 init after its sockets are open. -/
theorem contract_bindIpv6
    (hserver : ∀ name : SockaddrStorage, Keeps view fun dev =>
      { dev with server := name, port := ntohs name.port })
    (hsecure : ∀ name : SockaddrStorage, Keeps view fun dev =>
      { dev with secure := name, dtlsPort := ntohs name.port }) :
    Program.Contract view .returned
      (env.v6only && (env.named .server && ((env.reuse .mcast &&
        env.bind .mcast) &&
          (!cfg.ocSecurity || env.reuse .secure && env.named .secure)))) (do
      returnUnless env.v6only
      bindNamed env .server fun name dev =>
        { dev with server := name, port := ntohs name.port }
      bindMcast cfg env .mcast .inet6
      Program.when cfg.ocSecurity <| bindSecure env .secure fun name dev =>
        { dev with secure := name, dtlsPort := ntohs name.port }) := by
  refine Program.contract_bind (contract_returnUnless _) fun _ => ?_
  refine Program.contract_bind (contract_bindNamed _ _ hserver) fun _ => ?_
  refine Program.contract_bind (contract_bindMcast _ _ _ _) fun _ => ?_
  exact Program.contract_when _ (contract_bindSecure _ _ hsecure)

theorem contract_bindIpv4
    (hserver : ∀ name : SockaddrStorage, Keeps view fun dev =>
      { dev with server4 := name, port4 := ntohs name.port })
    (hsecure : ∀ name : SockaddrStorage, Keeps view fun dev =>
      { dev with secure4 := name, dtls4Port := ntohs name.port }) :
    Program.Contract view .returned
      (env.named .server4 && ((env.reuse .mcast4 && env.bind .mcast4) &&
        (!cfg.ocSecurity || env.reuse .secure4 && env.named .secure4))) (do
      bindNamed env .server4 fun name dev =>
        { dev with server4 := name, port4 := ntohs name.port }
      bindMcast cfg env .mcast4 .inet
      Program.when cfg.ocSecurity <| bindSecure env .secure4 fun name dev =>
        { dev with secure4 := name, dtls4Port := ntohs name.port }) := by
  refine Program.contract_bind (contract_bindNamed _ _ hserver) fun _ => ?_
  refine Program.contract_bind (contract_bindMcast _ _ _ _) fun _ => ?_
  exact Program.contract_when _ (contract_bindSecure _ _ hsecure)

theorem contract_connectivityIpv6Init :
    InitContract (env.ipv6Succeeds cfg) (connectivityIpv6Init cfg env) := by
  unfold InitEnv.ipv6Succeeds connectivityIpv6Init
  apply contract_address
  case hf => exact fun _ => ⟨rfl, rfl⟩
  case hg => exact fun _ _ => ⟨rfl, rfl⟩
  refine Program.contract_bind_of_right ?_ fun _ => ?_
  · have hsecure : Keeps identity fun dev => { dev with
        secure := { SockaddrStorage.zero with family := .inet6 } } :=
      fun _ => rfl
    have hwhen := Program.contract_when cfg.ocSecurity (contract_setDev hsecure)
    rwa [Bool.or_true] at hwhen
  refine Program.contract_bind_of_right (contract_openSocket _ _ _)
    fun _ => ?_
  refine Program.contract_bind_of_right (contract_openSocket _ _ _)
    fun _ => ?_
  refine Program.contract_bind (contract_returnUnless _) fun _ => ?_
  refine Program.contract_bind (Program.contract_when _ ?_) fun _ => ?_
  · exact Program.contract_bind_of_right (contract_openSocket _ _ _)
      fun _ => contract_returnUnless _
  exact contract_bindIpv6 cfg env (fun _ _ => rfl) (fun _ _ => rfl)

theorem contract_connectivityIpv4Init :
    InitContract (env.ipv4Succeeds cfg) (connectivityIpv4Init cfg env) := by
  unfold InitEnv.ipv4Succeeds connectivityIpv4Init
  apply contract_address
  case hf => exact fun _ => ⟨rfl, rfl⟩
  case hg => exact fun _ _ => ⟨rfl, rfl⟩
  refine Program.contract_bind (Program.contract_when _ ?_) fun _ => ?_
  · refine Program.contract_bind_of_right
      (contract_setDev fun _ => rfl) fun _ => ?_
    exact Program.contract_bind_of_right (contract_openSocket _ _ _)
      fun _ => contract_returnUnless _
  refine Program.contract_bind_of_right (contract_openSocket _ _ _)
    fun _ => ?_
  refine Program.contract_bind_of_right (contract_openSocket _ _ _)
    fun _ => ?_
  refine Program.contract_bind (contract_returnUnless _) fun _ => ?_
  exact contract_bindIpv4 cfg env (fun _ _ => rfl) (fun _ _ => rfl)

end Steps

/-- `dev->device` is written first and kept, `terminate` is never written. -/
theorem initContext_spec (cfg : BuildConfig) (env : InitEnv) (device : Int)
    (v : InitVars) :
    identity ((initContext cfg env device).exec v).2 =
        (device, v.dev.terminate) ∧
      (∀ value, ((initContext cfg env device).exec v).1 = .ok value →
        env.succeeds cfg = true) ∧
      (((initContext cfg env device).exec v).1 = .error .returned →
        env.succeeds cfg = false) := by
  have hipv6 : InitContract (cfg.ocIpv4 || env.ipv6Succeeds cfg)
      (Program.when (!cfg.ocIpv4) (connectivityIpv6Init cfg env)) := by
    have hwhen := Program.contract_when (!cfg.ocIpv4)
      (contract_connectivityIpv6Init cfg env)
    rwa [Bool.not_not] at hwhen
  have hipv4 : InitContract true (Program.when cfg.ocIpv4
      (Program.ignoring .returned (connectivityIpv4Init cfg env))) := by
    have hwhen := Program.contract_when cfg.ocIpv4
      (Program.contract_ignoring (contract_connectivityIpv4Init cfg env))
    rwa [Bool.or_true] at hwhen
  have hrest : InitContract (env.succeeds cfg) (do
      Program.when (!cfg.ocIpv4) (connectivityIpv6Init cfg env)
      Program.when cfg.ocIpv4
        (Program.ignoring .returned (connectivityIpv4Init cfg env))
      let thread ← Program.orFail .returned env.pthreadCreate
      setDev fun dev => { dev with eventThread := thread }
      recordCall (.pthreadCreate thread)) := by
    apply Program.contract_bind hipv6
    intro _
    apply Program.contract_bind_of_right hipv4
    intro _
    apply Program.contract_bind_of_left (Program.contract_orFail _)
    intro thread
    apply Program.contract_bind_of_right
    · exact contract_setDev fun _ => rfl
    intro _
    exact contract_recordCall _
  exact ⟨hrest.keeps _, hrest.returns _, hrest.fails _⟩

/-- An init that returns changes one context and keeps its `terminate`. -/
theorem ocConnectivityInit_cases {cfg : BuildConfig} {env : InitEnv}
    {device result : Int} {s t : AdapterState}
    (h : ocConnectivityInit cfg env device s = some (t, result)) :
    result = (if env.succeeds cfg then 0 else -1) ∧
      ∃ ref dev, newContext cfg env device = some ref ∧
        t.ipContexts = (s.register cfg ref).ipContexts ∧
        t.memory = Function.update (s.register cfg ref).memory ref dev ∧
        dev.device = device ∧
        dev.terminate = ((s.register cfg ref).memory ref).terminate := by
  obtain ⟨ref, href, h⟩ := Option.bind_eq_some_iff.mp h
  obtain ⟨hidentity, hreturns, hfails⟩ := initContext_spec cfg env device
    ⟨(s.register cfg ref).memory ref, (s.register cfg ref).calls⟩
  obtain ⟨hdevice, hterminate⟩ := Prod.ext_iff.mp hidentity
  dsimp only at h
  split at h
  case h_1 hresult =>
    cases h
    rw [hreturns _ hresult]
    exact ⟨rfl, ref, _, href, rfl, rfl, hdevice, hterminate⟩
  case h_2 hresult =>
    cases h
    rw [hfails hresult]
    exact ⟨rfl, ref, _, href, rfl, rfl, hdevice, hterminate⟩
  case h_3 => cases h

theorem ocConnectivityShutdown_cases {cfg : BuildConfig} {device : Int}
    {s t : AdapterState} (h : ocConnectivityShutdown cfg device s = some t) :
    ∃ ref, getIpContextForDevice cfg device s = some ref ∧
      t.memory =
        Function.update s.memory ref { s.memory ref with terminate := 1 } ∧
      t.ipContexts = if cfg.ocDynamicAllocation then s.ipContexts.erase ref
        else s.ipContexts := by
  obtain ⟨ref, hget, rfl⟩ := Option.map_eq_some_iff.mp h
  exact ⟨ref, hget, rfl, rfl⟩

end EspIotivity.Adapter
