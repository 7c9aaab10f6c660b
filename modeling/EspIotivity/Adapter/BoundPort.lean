import EspIotivity.Adapter.Descriptors
import EspIotivity.Adapter.Lifecycle

/-!
# The port of a device's unicast socket

An init binds its unicast socket to port 0 and records the port that the stack
assigned.  After any inits, the context found for a device holds the port that
the init of that context recorded.
-/

namespace EspIotivity.Adapter

open EspIotivity.Foundation

/-! ## What an init records -/

def unicastRole (cfg : BuildConfig) : SocketRole :=
  if cfg.ocIpv4 then .server4 else .server

/-- `dev->port4` or `dev->port`. -/
def unicastPort (cfg : BuildConfig) (dev : IpContext) : BitVec 16 :=
  if cfg.ocIpv4 then dev.port4 else dev.port

/-- The init gets as far as binding its unicast socket. -/
def InitEnv.opens (env : InitEnv) (cfg : BuildConfig) : Bool :=
  if cfg.ocIpv4 then
    (!cfg.ocSecurity || 0 ≤ env.socket .secure4) &&
      (0 ≤ env.socket .server4 && 0 ≤ env.socket .mcast4)
  else
    (0 ≤ env.socket .server && 0 ≤ env.socket .mcast) &&
      ((!cfg.ocSecurity || 0 ≤ env.socket .secure) && env.v6only)

def InitEnv.namedPort (env : InitEnv) (role : SocketRole) :
    Option (BitVec 16) :=
  if env.bind role then (env.getsockname role).map fun name => ntohs name.port
  else none

/-- The port that the stack assigned, as `getsockname` reports it. -/
def InitEnv.boundPort (env : InitEnv) (cfg : BuildConfig) :
    Option (BitVec 16) :=
  if env.opens cfg then env.namedPort (unicastRole cfg) else none

section Record

variable {cfg : BuildConfig} {env : InitEnv} {Result : Type} {c d : Bool}
  {port : Option (BitVec 16)}

def portView (cfg : BuildConfig) (v : InitVars) : BitVec 16 :=
  unicastPort cfg v.dev

abbrev KeepsPort (cfg : BuildConfig) (c : Bool) (p : InitProgram Result) :
    Prop :=
  Program.Contract (portView cfg) .returned c p

/-- A program that records `port`, or nothing if there is none. -/
abbrev Records (cfg : BuildConfig) (c : Bool) (port : Option (BitVec 16))
    (p : InitProgram Result) : Prop :=
  Program.Performs (portView cfg) (fun _ new => new) .returned c port.toList p

theorem keepsPort_setDev {f : IpContext → IpContext}
    (hf : ∀ dev, unicastPort cfg (f dev) = unicastPort cfg dev) :
    KeepsPort cfg true (setDev f) :=
  contract_setDev fun v => hf v.dev

variable (cfg env) in
theorem keepsPort_openSocket (role : SocketRole) (family : AddressFamily) :
    KeepsPort cfg true (openSocket env role family) := by
  have hrecord : KeepsPort cfg true
      (recordCall (.socket family (env.socket role))) :=
    Program.contract_update fun _ => rfl
  refine Program.contract_bind_of_right hrecord fun _ => keepsPort_setDev ?_
  intro dev
  cases role <;> rfl

theorem records_after {p : InitProgram Result}
    {rest : Result → InitProgram PUnit} (hp : KeepsPort cfg c p)
    (hrest : ∀ value, Records cfg d port (rest value)) :
    Records cfg (c && d) (if c then port else none) (p >>= rest) := by
  have hbind := Program.performs_bind hp.performs hrest
  cases c <;> simpa [Records] using hbind

theorem records_update {p : InitProgram Result}
    {rest : Result → InitProgram PUnit} (hp : KeepsPort cfg true p)
    (hrest : ∀ value, Records cfg d port (rest value)) :
    Records cfg d port (p >>= rest) := by
  simpa using records_after hp hrest

theorem records_before {p rest : InitProgram PUnit} (hp : Records cfg c port p)
    (hrest : KeepsPort cfg d rest) :
    Records cfg (c && d) port (p >>= fun _ => rest) := by
  simpa using Program.performs_bind hp fun _ => hrest.performs

variable (env) in
theorem records_bindNamed {role : SocketRole}
    {store : SockaddrStorage → IpContext → IpContext}
    (hstore : ∀ name dev,
      unicastPort cfg (store name dev) = ntohs name.port) :
    Records cfg (env.named role) (env.namedPort role)
      (bindNamed env role store) := by
  have hname : Records cfg (env.getsockname role).isSome
      ((env.getsockname role).map fun name => ntohs name.port) (do
        let name ← Program.orFail .returned (env.getsockname role)
        setDev (store name)) := by
    cases env.getsockname role with
    | none => exact (Program.contract_throw _ fun _ => rfl).performs
    | some name =>
        have hset : Records cfg true (some (ntohs name.port))
            (setDev (store name)) :=
          Program.performs_update fun v => hstore name v.dev
        simpa [Program.orFail] using hset
  exact records_after (contract_returnUnless _) fun _ => hname

theorem records_address {n : Nat} {f : IpContext → IpContext}
    {g : BitVec n → IpContext → IpContext}
    (hf : ∀ dev, unicastPort cfg (f dev) = unicastPort cfg dev)
    (hg : ∀ address dev,
      unicastPort cfg (g address dev) = unicastPort cfg dev)
    (address : Option (BitVec n)) {rest : InitProgram PUnit}
    (hrest : Records cfg c port rest) :
    Records cfg c port (do
      setDev f
      let address ← Program.orFail .halted address
      setDev (g address)
      rest) := by
  refine records_update (keepsPort_setDev hf) fun _ => ?_
  refine records_update (Program.contract_orFail_other (by decide) _)
    fun address => ?_
  exact records_update (keepsPort_setDev (hg address)) fun _ => hrest

variable (env) in
theorem records_connectivityIpv6Init (h4 : cfg.ocIpv4 = false) :
    Records cfg (env.ipv6Succeeds cfg) (env.boundPort cfg)
      (connectivityIpv6Init cfg env) := by
  have hname : Records cfg (env.named .server) (env.namedPort .server)
      (bindNamed env .server fun name dev =>
        { dev with server := name, port := ntohs name.port }) := by
    apply records_bindNamed
    intro name dev
    simp [unicastPort, h4]
  have hstore : ∀ name : SockaddrStorage, Keeps (portView cfg) fun dev =>
      { dev with secure := name, dtlsPort := ntohs name.port } :=
    fun _ _ => rfl
  have hlast : KeepsPort cfg _ _ := Program.contract_bind
    (contract_bindMcast cfg env .mcast .inet6) fun _ =>
      Program.contract_when cfg.ocSecurity
        (contract_bindSecure env .secure hstore)
  have hsecure : KeepsPort cfg _ _ :=
    Program.contract_when cfg.ocSecurity (Program.contract_bind_of_right
      (keepsPort_openSocket cfg env .secure .inet6)
      fun _ => contract_returnUnless (0 ≤ env.socket .secure))
  have hset : KeepsPort cfg true (Program.when cfg.ocSecurity <|
      setDev fun dev => { dev with
        secure := { SockaddrStorage.zero with family := .inet6 } }) := by
    have hzero : KeepsPort cfg true (setDev fun dev => { dev with
        secure := { SockaddrStorage.zero with family := .inet6 } }) :=
      keepsPort_setDev fun _ => rfl
    have hwhen := Program.contract_when cfg.ocSecurity hzero
    rwa [Bool.or_true] at hwhen
  have hopen := records_update (keepsPort_openSocket cfg env .server .inet6)
    fun _ => records_update (keepsPort_openSocket cfg env .mcast .inet6)
    fun _ => records_after (contract_returnUnless
      (0 ≤ env.socket .server && 0 ≤ env.socket .mcast))
    fun _ => records_after hsecure
    fun _ => records_after (contract_returnUnless env.v6only)
    fun _ => records_before hname hlast
  unfold InitEnv.ipv6Succeeds InitEnv.boundPort InitEnv.opens unicastRole
  simp only [h4, Bool.false_eq_true, if_false, Bool.and_eq_true, ite_and]
  apply records_address
  case hf => exact fun _ => rfl
  case hg => exact fun _ _ => rfl
  simp only [Bool.and_eq_true, ite_and] at hopen
  exact records_update hset fun _ => hopen

variable (env) in
theorem records_connectivityIpv4Init (h4 : cfg.ocIpv4 = true) :
    Records cfg (env.ipv4Succeeds cfg) (env.boundPort cfg)
      (connectivityIpv4Init cfg env) := by
  have hname : Records cfg (env.named .server4) (env.namedPort .server4)
      (bindNamed env .server4 fun name dev =>
        { dev with server4 := name, port4 := ntohs name.port }) := by
    apply records_bindNamed
    intro name dev
    simp [unicastPort, h4]
  have hstore : ∀ name : SockaddrStorage, Keeps (portView cfg) fun dev =>
      { dev with secure4 := name, dtls4Port := ntohs name.port } :=
    fun _ _ => rfl
  have hlast : KeepsPort cfg _ _ := Program.contract_bind
    (contract_bindMcast cfg env .mcast4 .inet) fun _ =>
      Program.contract_when cfg.ocSecurity
        (contract_bindSecure env .secure4 hstore)
  have hset : KeepsPort cfg true (setDev fun dev => { dev with
      secure4 := { SockaddrStorage.zero with family := .inet } }) :=
    keepsPort_setDev fun _ => rfl
  have hsecure : KeepsPort cfg _ _ := Program.contract_when cfg.ocSecurity
    (Program.contract_bind_of_right hset fun _ =>
      Program.contract_bind_of_right
        (keepsPort_openSocket cfg env .secure4 .inet)
        fun _ => contract_returnUnless (0 ≤ env.socket .secure4))
  have hopen := records_after hsecure
    fun _ => records_update (keepsPort_openSocket cfg env .server4 .inet)
    fun _ => records_update (keepsPort_openSocket cfg env .mcast4 .inet)
    fun _ => records_after (contract_returnUnless
      (0 ≤ env.socket .server4 && 0 ≤ env.socket .mcast4))
    fun _ => records_before hname hlast
  unfold InitEnv.ipv4Succeeds InitEnv.boundPort InitEnv.opens unicastRole
  simp only [h4, if_true, Bool.and_eq_true, ite_and]
  apply records_address
  case hf => exact fun _ => rfl
  case hg => exact fun _ _ => rfl
  simp only [Bool.and_eq_true, ite_and] at hopen
  exact hopen

variable (cfg env) in
theorem records_initContext (device : Int) :
    Records cfg (env.succeeds cfg) (env.boundPort cfg)
      (initContext cfg env device) := by
  have hdevice : KeepsPort cfg true (setDev fun dev => { dev with device }) :=
    keepsPort_setDev fun _ => rfl
  have hthread : KeepsPort cfg env.pthreadCreate.isSome (do
      let thread ← Program.orFail .returned env.pthreadCreate
      setDev fun dev => { dev with eventThread := thread }
      recordCall (.pthreadCreate thread)) := by
    apply Program.contract_bind_of_left (Program.contract_orFail _)
    intro thread
    apply Program.contract_bind_of_right
    · exact contract_setDev fun _ => rfl
    intro _
    exact Program.contract_update fun _ => rfl
  unfold InitEnv.succeeds
  refine records_update hdevice fun _ => ?_
  cases h4 : cfg.ocIpv4 with
  | false =>
      have hinit := records_connectivityIpv6Init env h4
      simpa [h4, Program.when] using records_before hinit hthread
  | true =>
      have hinit :=
        Program.performs_ignoring (records_connectivityIpv4Init env h4)
      simpa [h4, Program.when] using records_before hinit hthread

end Record

theorem unicastRole_opened {cfg : BuildConfig} {env : InitEnv}
    (h : env.opens cfg = true) : unicastRole cfg ∈ openedRoles cfg env := by
  unfold InitEnv.opens at h
  unfold unicastRole openedRoles
  cases h4 : cfg.ocIpv4 with
  | false => simp
  | true =>
      simp only [h4, if_true, Bool.and_eq_true] at h
      simp [h.1]

/-- An IPv4 build opens no IPv6 socket. -/
theorem not_opened_inet6 {cfg : BuildConfig} {env : InitEnv}
    {role : SocketRole} (h4 : cfg.ocIpv4 = true)
    (hrole : role.family = .inet6) :
    role ∉ openedRoles cfg env := by
  rw [openedRoles, if_pos h4]
  cases role with
  | server | mcast | secure => split_ifs <;> simp
  | server4 | mcast4 | secure4 => cases hrole

/-- What an init finds in a context that no shutdown has seen, and leaves. -/
structure Undisturbed (cfg : BuildConfig) (dev : IpContext) : Prop where
  running : dev.terminate = 0
  unopened : cfg.ocIpv4 = true → dev.serverSock = dev.mcastSock

structure InitedBy (cfg : BuildConfig) (env : InitEnv) (device : Int)
    (dev : IpContext) : Prop extends Undisturbed cfg dev where
  device : dev.device = device
  sock : ∀ port ∈ env.boundPort cfg,
    dev.sock (unicastRole cfg) = env.socket (unicastRole cfg)
  port : ∀ port ∈ env.boundPort cfg, unicastPort cfg dev = port

section Init

variable {cfg : BuildConfig} {env : InitEnv} {device result : Int}
  {s t : AdapterState}

theorem ocConnectivityInit_port
    (h : ocConnectivityInit cfg env device s = some (t, result)) :
    ∃ ref, newContext cfg env device = some ref ∧
      unicastPort cfg (t.memory ref) = (env.boundPort cfg).getD
        (unicastPort cfg ((s.register cfg ref).memory ref)) := by
  obtain ⟨ref, href, hview⟩ :=
    ocConnectivityInit_performs (records_initContext cfg env device) h
  refine ⟨ref, href, hview.trans ?_⟩
  cases env.boundPort cfg <;> rfl

theorem ocConnectivityInit_inited
    (h : ocConnectivityInit cfg env device s = some (t, result)) :
    ∃ ref dev, newContext cfg env device = some ref ∧
      t.ipContexts = (s.register cfg ref).ipContexts ∧
      t.memory = Function.update (s.register cfg ref).memory ref dev ∧
      (Undisturbed cfg ((s.register cfg ref).memory ref) →
        InitedBy cfg env device dev) := by
  obtain ⟨-, ref, dev, href, hlist, hmemory, hdevice, hterminate⟩ :=
    ocConnectivityInit_cases h
  obtain ⟨ref', href', hopened, -⟩ := ocConnectivityInit_net h
  obtain ⟨ref'', href'', hport⟩ := ocConnectivityInit_port h
  obtain rfl : ref = ref' := Option.some.inj (href.symm.trans href')
  obtain rfl : ref = ref'' := Option.some.inj (href.symm.trans href'')
  rw [hmemory, Function.update_self] at hopened hport
  refine ⟨ref, dev, href, hlist, hmemory, fun hbefore => ?_⟩
  refine ⟨⟨hterminate.trans hbefore.running, fun h4 => ?_⟩, hdevice, ?_, ?_⟩
  case refine_1 =>
    have hserver : dev.serverSock = _ := congrFun hopened .server
    have hmcast : dev.mcastSock = _ := congrFun hopened .mcast
    rw [hserver, hmcast, if_neg (not_opened_inet6 h4 rfl),
      if_neg (not_opened_inet6 h4 rfl)]
    exact hbefore.unopened h4
  case refine_2 =>
    intro port hbound
    have hopens : env.opens cfg = true := by
      unfold InitEnv.boundPort at hbound
      split at hbound
      case isTrue hopens => exact hopens
      case isFalse => cases hbound
    rw [congrFun hopened (unicastRole cfg),
      if_pos (unicastRole_opened hopens)]
  case refine_3 =>
    intro port hbound
    rw [hport, Option.mem_def.mp hbound, Option.getD_some]

end Init

/-! ## Runs of inits -/

def initOf (device : Int) : LifecycleCall → Option InitEnv
  | .init d env => if d = device then some env else none
  | .shutdown _ => none

/-- The init of the context that `get_ip_context_for_device` finds. -/
def servingInit (cfg : BuildConfig) (device : Int)
    (calls : List LifecycleCall) : Option InitEnv :=
  if cfg.ocDynamicAllocation then calls.findSome? (initOf device)
  else lastWrite (initOf device) calls

/-- The call is an init that returns 0, with a node that is not in use. -/
def Succeeding (cfg : BuildConfig) (s : AdapterState × LifecycleLog) :
    LifecycleCall → Prop
  | .init device env =>
      (∀ outcome ∈ ocConnectivityInit cfg env device s.1, outcome.2 = 0) ∧
        ∀ address ∈ env.calloc, .node address ∉ s.1.ipContexts
  | .shutdown _ => False

instance (cfg : BuildConfig) (s : AdapterState × LifecycleLog) :
    ∀ call, Decidable (Succeeding cfg s call)
  | .init _ _ => inferInstanceAs (Decidable (_ ∧ _))
  | .shutdown _ => .isFalse id

structure BroughtUp (cfg : BuildConfig) (s : AdapterState)
    (calls : List LifecycleCall) : Prop where
  served : ∀ device, ∀ env ∈ servingInit cfg device calls,
    ∃ ref, getIpContextForDevice cfg device s = some ref ∧
      InitedBy cfg env device (s.memory ref)
  unserved : cfg.ocDynamicAllocation = true → ∀ device,
    servingInit cfg device calls = none →
      getIpContextForDevice cfg device s = none
  slots : cfg.ocDynamicAllocation = false → ∀ device,
    Undisturbed cfg (s.memory (.slot device))

theorem undisturbed_zero (cfg : BuildConfig) : Undisturbed cfg .zero :=
  ⟨rfl, fun _ => rfl⟩

theorem boot_broughtUp (cfg : BuildConfig) : BroughtUp cfg bootAdapter [] := by
  constructor
  case served =>
    intro device env henv
    unfold servingInit at henv
    split at henv <;> cases henv
  case unserved =>
    intro hdynamic device _
    simp [getIpContextForDevice, hdynamic, bootAdapter]
  case slots => exact fun _ _ => undisturbed_zero cfg

section Runs

variable {cfg : BuildConfig} {env : InitEnv} {device result : Int}
  {s t : AdapterState} {calls : List LifecycleCall}

theorem servingInit_dynamic (hdynamic : cfg.ocDynamicAllocation = true)
    (other : Int) :
    servingInit cfg other (calls ++ [.init device env]) =
      (servingInit cfg other calls).or
        (if device = other then some env else none) := by
  simp [servingInit, hdynamic, List.findSome?_append, initOf]

theorem servingInit_static (hstatic : cfg.ocDynamicAllocation = false)
    (other : Int) :
    servingInit cfg other (calls ++ [.init device env]) =
      if device = other then some env else servingInit cfg other calls := by
  simp only [servingInit, hstatic, Bool.false_eq_true, if_false,
    lastWrite_concat, initOf]
  split <;> rfl

theorem found_mem (hdynamic : cfg.ocDynamicAllocation = true)
    {ref : ContextRef} (h : getIpContextForDevice cfg device s = some ref) :
    ref ∈ s.ipContexts := by
  simp only [getIpContextForDevice, hdynamic, if_true] at h
  exact List.mem_of_find?_eq_some h

theorem found_static (hstatic : cfg.ocDynamicAllocation = false) :
    getIpContextForDevice cfg device s = some (.slot device) := by
  simp [getIpContextForDevice, hstatic]

theorem inited_node (hdynamic : cfg.ocDynamicAllocation = true)
    (hfresh : ∀ address ∈ env.calloc, .node address ∉ s.ipContexts)
    (h : ocConnectivityInit cfg env device s = some (t, result)) :
    ∃ ref dev, ref ∉ s.ipContexts ∧
      t.memory = Function.update s.memory ref dev ∧
      InitedBy cfg env device dev ∧
      ∀ other, getIpContextForDevice cfg other t =
        (getIpContextForDevice cfg other s).or
          (if device = other then some ref else none) := by
  obtain ⟨ref, dev, href, hlist, hmemory, hinited⟩ :=
    ocConnectivityInit_inited h
  simp only [newContext, hdynamic, if_true, Option.map_eq_some_iff] at href
  obtain ⟨address, hcalloc, rfl⟩ := href
  simp only [AdapterState.register, hdynamic, if_true, Function.update_self,
    Function.update_idem] at hlist hmemory hinited
  have hdev := hinited (undisturbed_zero cfg)
  have hnew := hfresh address hcalloc
  refine ⟨_, dev, hnew, hmemory, hdev, fun other => ?_⟩
  rw [getIpContext_append hdynamic hnew hlist hmemory, hdev.device]

theorem inited_slot (hstatic : cfg.ocDynamicAllocation = false)
    (hslot : Undisturbed cfg (s.memory (.slot device)))
    (h : ocConnectivityInit cfg env device s = some (t, result)) :
    ∃ dev, t.memory = Function.update s.memory (.slot device) dev ∧
      InitedBy cfg env device dev := by
  obtain ⟨ref, dev, href, -, hmemory, hinited⟩ := ocConnectivityInit_inited h
  simp only [newContext, hstatic, Bool.false_eq_true, if_false,
    Option.some.injEq] at href
  subst href
  simp only [AdapterState.register, hstatic, Bool.false_eq_true, if_false]
    at hmemory hinited
  exact ⟨dev, hmemory, hinited hslot⟩

theorem broughtUp_dynamic (hdynamic : cfg.ocDynamicAllocation = true)
    (hs : BroughtUp cfg s calls)
    (hfresh : ∀ address ∈ env.calloc, .node address ∉ s.ipContexts)
    (h : ocConnectivityInit cfg env device s = some (t, result)) :
    BroughtUp cfg t (calls ++ [.init device env]) := by
  obtain ⟨ref, dev, hnew, hmemory, hdev, hsearch⟩ :=
    inited_node hdynamic hfresh h
  constructor
  case served =>
    intro other env' henv'
    rw [servingInit_dynamic hdynamic] at henv'
    cases hold : servingInit cfg other calls with
    | none =>
        -- The device is new, and so is the node found for it.
        rw [hold, Option.none_or, Option.mem_def,
          Option.ite_none_right_eq_some, Option.some.injEq] at henv'
        obtain ⟨rfl, rfl⟩ := henv'
        refine ⟨ref, ?_, ?_⟩
        · rw [hsearch, hs.unserved hdynamic device hold, if_pos rfl,
            Option.none_or]
        · rw [hmemory, Function.update_self]
          exact hdev
    | some old =>
        rw [hold, Option.some_or, Option.mem_some_iff] at henv'
        subst henv'
        obtain ⟨found, hget, hfound⟩ := hs.served other old hold
        have hne : found ≠ ref :=
          fun heq => hnew (heq ▸ found_mem hdynamic hget)
        refine ⟨found, by rw [hsearch, hget, Option.some_or], ?_⟩
        rw [hmemory, Function.update_of_ne hne]
        exact hfound
  case unserved =>
    intro _ other hnone
    rw [servingInit_dynamic hdynamic, Option.or_eq_none_iff] at hnone
    rw [hsearch, hs.unserved hdynamic other hnone.1, Option.none_or]
    simpa using hnone.2
  case slots => simp [hdynamic]

theorem broughtUp_static (hstatic : cfg.ocDynamicAllocation = false)
    (hs : BroughtUp cfg s calls)
    (h : ocConnectivityInit cfg env device s = some (t, result)) :
    BroughtUp cfg t (calls ++ [.init device env]) := by
  obtain ⟨dev, hmemory, hdev⟩ :=
    inited_slot hstatic (hs.slots hstatic device) h
  have hkept : ∀ {other}, device ≠ other →
      t.memory (.slot other) = s.memory (.slot other) := by
    intro other hother
    rw [hmemory, Function.update_of_ne (by simpa using hother.symm)]
  constructor
  case served =>
    intro other env' henv'
    refine ⟨.slot other, found_static hstatic, ?_⟩
    rw [servingInit_static hstatic] at henv'
    by_cases hother : device = other
    · rw [if_pos hother, Option.mem_some_iff] at henv'
      subst henv' hother
      rw [hmemory, Function.update_self]
      exact hdev
    · rw [if_neg hother] at henv'
      obtain ⟨ref, href, hinit⟩ := hs.served other env' henv'
      rw [found_static hstatic] at href
      cases href
      rw [hkept hother]
      exact hinit
  case unserved => simp [hstatic]
  case slots =>
    intro _ other
    by_cases hother : device = other
    · subst hother
      rw [hmemory, Function.update_self]
      exact hdev.toUndisturbed
    · rw [hkept hother]
      exact hs.slots hstatic other

theorem broughtUp_next {s t : AdapterState × LifecycleLog}
    {call : LifecycleCall} (hs : BroughtUp cfg s.1 (callsOf s.2))
    (hcall : Succeeding cfg s call)
    (hnext : (lifecycleMachine cfg).next s call = some t) :
    BroughtUp cfg t.1 (callsOf t.2) := by
  obtain ⟨result, hperform, hlog⟩ := Machine.logging_next.mp hnext
  rw [hlog, callsOf_concat]
  cases call with
  | shutdown device => exact hcall.elim
  | init device env =>
      cases hdynamic : cfg.ocDynamicAllocation with
      | true => exact broughtUp_dynamic hdynamic hs hcall.2 hperform
      | false => exact broughtUp_static hdynamic hs hperform

theorem run_callsOf {s t : AdapterState × LifecycleLog}
    {calls : List LifecycleCall}
    (hrun : (lifecycleMachine cfg).runFrom s calls = some t) :
    callsOf t.2 = callsOf s.2 ++ calls := by
  induction calls generalizing s with
  | nil =>
      cases hrun
      exact (List.append_nil _).symm
  | cons call calls ih =>
      obtain ⟨u, hnext, hrest⟩ := Option.bind_eq_some_iff.mp hrun
      obtain ⟨result, -, hlog⟩ := Machine.logging_next.mp hnext
      rw [ih hrest, hlog, callsOf_concat, List.append_assoc]
      rfl

/-- After any successful inits. -/
theorem run_broughtUp {t : AdapterState × LifecycleLog}
    (hcalls : (lifecycleMachine cfg).Throughout (Succeeding cfg)
      (bootAdapter, []) calls)
    (hrun : (lifecycleMachine cfg).run calls = some t) :
    BroughtUp cfg t.1 calls := by
  have hinvariant := Machine.Throughout.invariant
    (I := fun s => BroughtUp cfg s.1 (callsOf s.2))
    (fun s call t hs hcall hnext => broughtUp_next hs hcall hnext)
    (boot_broughtUp cfg) hcalls hrun
  rwa [run_callsOf hrun] at hinvariant

end Runs

end EspIotivity.Adapter
