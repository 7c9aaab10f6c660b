import EspIotivity.Adapter.Connectivity

/-!
# The sockets an init opens

For every pattern of failing calls, which `socket` calls `oc_connectivity_init`
makes, whether it starts the thread, and the descriptors it leaves in the
context.
-/

namespace EspIotivity.Adapter

open EspIotivity.Foundation

/-! ## What an init opens -/

structure NetView where
  sock : SocketRole → Int
  calls : List NetCall

def netView (v : InitVars) : NetView := ⟨v.dev.sock, v.calls⟩

inductive InitAction where
  | opened (role : SocketRole)
  | started (thread : Nat)
  deriving DecidableEq, Repr

def InitAction.call (env : InitEnv) : InitAction → NetCall
  | .opened role => .socket role.family (env.socket role)
  | .started thread => .pthreadCreate thread

def InitAction.perform (env : InitEnv) (w : NetView) (action : InitAction) :
    NetView where
  sock :=
    match action with
    | .opened role => Function.update w.sock role (env.socket role)
    | .started _ => w.sock
  calls := w.calls ++ [action.call env]

/-- The sockets for which `socket` is called, in order. -/
def openedRoles (cfg : BuildConfig) (env : InitEnv) : List SocketRole :=
  if cfg.ocIpv4 then
    (if cfg.ocSecurity then [.secure4] else []) ++
      if !cfg.ocSecurity || 0 ≤ env.socket .secure4 then [.server4, .mcast4]
      else []
  else
    [.server, .mcast] ++
      if 0 ≤ env.socket .server && 0 ≤ env.socket .mcast then
        if cfg.ocSecurity then [.secure] else []
      else []

def initActions (cfg : BuildConfig) (env : InitEnv) : List InitAction :=
  (openedRoles cfg env).map .opened ++
    if cfg.ocIpv4 || env.ipv6Succeeds cfg then
      env.pthreadCreate.toList.map .started
    else []

/-- The context that an init leaves where it found `before`. -/
def OpenedOver (cfg : BuildConfig) (env : InitEnv) (before dev : IpContext) :
    Prop :=
  dev.sock = fun role =>
    if role ∈ openedRoles cfg env then env.socket role else before.sock role

abbrev Opens (env : InitEnv) (condition : Bool) (roles : List SocketRole)
    (p : InitProgram PUnit) : Prop :=
  Program.Performs netView (InitAction.perform env) .returned condition
    (roles.map .opened) p

theorem sock_setSock (dev : IpContext) (role : SocketRole) (sock : Int) :
    (dev.setSock role sock).sock = Function.update dev.sock role sock := by
  funext other
  cases role <;> cases other <;> rfl

section Init

variable {cfg : BuildConfig} {env : InitEnv}

variable (env) in
theorem opens_openSocket (role : SocketRole) :
    Opens env true [role] (openSocket env role role.family) := by
  have hview : ∀ v : InitVars,
      netView ⟨v.dev.setSock role (env.socket role),
        v.calls ++ [.socket role.family (env.socket role)]⟩ =
      (InitAction.opened role).perform env (netView v) := by
    intro v
    simp only [netView, sock_setSock, InitAction.perform, InitAction.call]
  exact ⟨fun v _ _ => ⟨rfl, hview v⟩, fun _ h => nomatch h⟩

theorem opens_bind {c d : Bool} {first second : List SocketRole}
    {p : InitProgram PUnit} {rest : InitProgram PUnit}
    (hp : Opens env c first p) (hrest : Opens env d second rest) :
    Opens env (c && d) (first ++ if c then second else [])
      (p >>= fun _ => rest) := by
  have hbind := Program.performs_bind hp fun _ => hrest
  cases c <;> simpa [Opens] using hbind

theorem opens_returnUnless (condition : Bool) :
    Opens env condition [] (returnUnless condition) :=
  (contract_returnUnless condition).performs

variable (env) in
theorem opens_setDev {f : IpContext → IpContext} (hf : Keeps netView f) :
    Opens env true [] (setDev f) :=
  (contract_setDev hf).performs

theorem opens_when {c : Bool} {roles : List SocketRole}
    {p : InitProgram PUnit} (b : Bool) (hp : Opens env c roles p) :
    Opens env (!b || c) (if b then roles else []) (Program.when b p) := by
  have hwhen := Program.performs_when b hp
  cases b <;> exact hwhen

theorem opens_address {n : Nat} {f : IpContext → IpContext}
    {g : BitVec n → IpContext → IpContext} (hf : Keeps netView f)
    (hg : ∀ address, Keeps netView (g address))
    (address : Option (BitVec n)) {c : Bool} {roles : List SocketRole}
    {rest : InitProgram PUnit} (hrest : Opens env c roles rest) :
    Opens env c roles (do
      setDev f
      let address ← Program.orFail .halted address
      setDev (g address)
      rest) := by
  have hother : ∀ value : Option (BitVec n), Program.Performs netView
      (InitAction.perform env) InitFailure.returned true []
      (Program.orFail InitFailure.halted value) := by
    intro value
    exact (Program.contract_orFail_other (by decide) value).performs
  have hlast : ∀ value, Opens env c roles (do setDev (g value); rest) := by
    intro value
    simpa using opens_bind (opens_setDev env (hg value)) hrest
  have hmiddle := Program.performs_bind (hother address) hlast
  simpa using opens_bind (opens_setDev env hf) hmiddle

variable (cfg env) in
theorem opens_connectivityIpv6Init : Opens env (env.ipv6Succeeds cfg)
    ([.server, .mcast] ++
      if 0 ≤ env.socket .server && 0 ≤ env.socket .mcast then
        if cfg.ocSecurity then [.secure] else []
      else []) (connectivityIpv6Init cfg env) := by
  have hsecure := opens_when cfg.ocSecurity
    (opens_bind (opens_openSocket env .secure)
      (opens_returnUnless (0 ≤ env.socket .secure)))
  have hbinds : Opens env _ [] _ :=
    (contract_bindIpv6 cfg env (fun _ _ => rfl) (fun _ _ => rfl)).performs
  have hopen := opens_bind (opens_openSocket env .server)
    (opens_bind (opens_openSocket env .mcast)
      (opens_bind (opens_returnUnless
        (0 ≤ env.socket .server && 0 ≤ env.socket .mcast))
        (opens_bind hsecure hbinds)))
  have hstart := opens_bind (opens_when cfg.ocSecurity (opens_setDev env
    (f := fun dev => { dev with
      secure := { SockaddrStorage.zero with family := .inet6 } })
    fun _ => rfl)) hopen
  unfold InitEnv.ipv6Succeeds connectivityIpv6Init
  apply opens_address
  case hf => exact fun _ => rfl
  case hg => exact fun _ _ => rfl
  simpa [SocketRole.family] using hstart

variable (cfg env) in
theorem opens_connectivityIpv4Init : Opens env (env.ipv4Succeeds cfg)
    ((if cfg.ocSecurity then [.secure4] else []) ++
      if !cfg.ocSecurity || 0 ≤ env.socket .secure4 then [.server4, .mcast4]
      else []) (connectivityIpv4Init cfg env) := by
  have hsecure := opens_when cfg.ocSecurity
    (opens_bind (opens_setDev env (f := fun dev => { dev with
      secure4 := { SockaddrStorage.zero with family := .inet } })
      fun _ => rfl)
      (opens_bind (opens_openSocket env .secure4)
        (opens_returnUnless (0 ≤ env.socket .secure4))))
  have hbinds : Opens env _ [] _ :=
    (contract_bindIpv4 cfg env (fun _ _ => rfl) (fun _ _ => rfl)).performs
  have hstart := opens_bind hsecure
    (opens_bind (opens_openSocket env .server4)
      (opens_bind (opens_openSocket env .mcast4)
        (opens_bind (opens_returnUnless
          (0 ≤ env.socket .server4 && 0 ≤ env.socket .mcast4)) hbinds)))
  unfold InitEnv.ipv4Succeeds connectivityIpv4Init
  apply opens_address
  case hf => exact fun _ => rfl
  case hg => exact fun _ _ => rfl
  simpa [SocketRole.family] using hstart

theorem performs_createThread :
    Program.Performs netView (InitAction.perform env) InitFailure.returned
      env.pthreadCreate.isSome (env.pthreadCreate.toList.map .started) (do
      let thread ← Program.orFail .returned env.pthreadCreate
      setDev fun dev => { dev with eventThread := thread }
      recordCall (.pthreadCreate thread)) := by
  cases env.pthreadCreate with
  | none =>
      exact (Program.contract_throw _ fun _ => rfl).performs
  | some thread =>
      have hset : Keeps netView fun dev => { dev with eventThread := thread } :=
        fun _ => rfl
      have hrecord : Program.Performs netView (InitAction.perform env)
          InitFailure.returned true [.started thread]
          (recordCall (.pthreadCreate thread)) :=
        Program.performs_update fun _ => rfl
      have hboth := Program.performs_bind (opens_setDev env hset)
        fun _ => hrecord
      simpa [Program.orFail] using hboth

variable (cfg env) in
/-- The IPv4 part is left when it fails, and the thread started all the same. -/
theorem performs_initContext (device : Int) :
    Program.Performs netView (InitAction.perform env) InitFailure.returned
      (env.succeeds cfg) (initActions cfg env)
      (initContext cfg env device) := by
  have hipv6 := opens_when (!cfg.ocIpv4) (opens_connectivityIpv6Init cfg env)
  have hipv4 : Opens env _ _ (Program.when cfg.ocIpv4
      (Program.ignoring .returned (connectivityIpv4Init cfg env))) :=
    opens_when cfg.ocIpv4
      (Program.performs_ignoring (opens_connectivityIpv4Init cfg env))
  have hdevice := opens_setDev env
    (f := fun dev => { dev with device }) fun _ => rfl
  have hall := Program.performs_bind hdevice fun _ =>
    Program.performs_bind hipv6 fun _ =>
      Program.performs_bind hipv4 fun _ => performs_createThread
  unfold InitEnv.succeeds initActions openedRoles
  cases h : cfg.ocIpv4 with
  | false =>
      rw [h] at hall
      simpa [initContext, h] using hall
  | true =>
      rw [h] at hall
      simpa [initContext, h] using hall

theorem perform_opened (roles : List SocketRole) (w : NetView) :
    (roles.map .opened).foldl (InitAction.perform env) w =
      ⟨fun role => if role ∈ roles then env.socket role else w.sock role,
        w.calls ++ roles.map fun role =>
          .socket role.family (env.socket role)⟩ := by
  induction roles generalizing w with
  | nil => simp
  | cons first roles ih =>
      simp only [List.map_cons, List.foldl_cons, ih, InitAction.perform,
        InitAction.call, List.append_assoc, List.mem_cons, NetView.mk.injEq]
      refine ⟨?_, by simp⟩
      funext role
      by_cases hfirst : role = first
      · simp [hfirst]
      · simp [hfirst]

theorem perform_started (threads : List Nat) (w : NetView) :
    (threads.map .started).foldl (InitAction.perform env) w =
      ⟨w.sock, w.calls ++ threads.map .pthreadCreate⟩ := by
  induction threads generalizing w with
  | nil => simp
  | cons thread threads ih => simp [ih, InitAction.perform, InitAction.call]

theorem perform_initActions (w : NetView) :
    (initActions cfg env).foldl (InitAction.perform env) w =
      ⟨fun role => if role ∈ openedRoles cfg env then env.socket role
          else w.sock role,
        w.calls ++ (initActions cfg env).map (InitAction.call env)⟩ := by
  rw [initActions, List.foldl_append, perform_opened]
  split
  · rw [perform_started]
    simp [InitAction.call, Function.comp_def]
  · simp [InitAction.call, Function.comp_def]

theorem register_calls (s : AdapterState) (ref : ContextRef) :
    (s.register cfg ref).calls = s.calls := by
  unfold AdapterState.register
  split <;> rfl

/-- What the program of an init performs, an init that returns has done. -/
theorem ocConnectivityInit_performs {View Action : Type}
    {view : InitVars → View} {act : View → Action → View} {c : Bool}
    {actions : List Action} {device result : Int} {s t : AdapterState}
    (hinit : Program.Performs view act InitFailure.returned c actions
      (initContext cfg env device))
    (h : ocConnectivityInit cfg env device s = some (t, result)) :
    ∃ ref, newContext cfg env device = some ref ∧
      view ⟨t.memory ref, t.calls⟩ = actions.foldl act
        (view ⟨(s.register cfg ref).memory ref,
          (s.register cfg ref).calls⟩) := by
  obtain ⟨ref, href, h⟩ := Option.bind_eq_some_iff.mp h
  refine ⟨ref, href, ?_⟩
  dsimp only at h
  split at h
  case h_1 hresult =>
    cases h
    simpa using (hinit.returns _ _ hresult).2
  case h_2 hresult =>
    cases h
    simpa using (hinit.fails _ hresult).2
  case h_3 => cases h

/-- What an init that returns did: it opened `openedRoles`, and its thread. -/
theorem ocConnectivityInit_net {device result : Int} {s t : AdapterState}
    (h : ocConnectivityInit cfg env device s = some (t, result)) :
    ∃ ref, newContext cfg env device = some ref ∧
      OpenedOver cfg env ((s.register cfg ref).memory ref) (t.memory ref) ∧
      t.calls = s.calls ++ (initActions cfg env).map (InitAction.call env) := by
  obtain ⟨ref, href, hview⟩ :=
    ocConnectivityInit_performs (performs_initContext cfg env device) h
  rw [perform_initActions] at hview
  exact ⟨ref, href, by simpa [netView, register_calls, OpenedOver] using hview⟩

end Init

def secureBuild : BuildConfig := ⟨false, true, false, false⟩

def ipv4Build : BuildConfig := ⟨true, false, false, false⟩

/-- Every call succeeds, and `socket` returns what `sock` says. -/
def workingEnv (sock : SocketRole → Int) : InitEnv where
  calloc := some 1
  socket := sock
  v6only := true
  bind _ := true
  getsockname _ := some .zero
  reuse _ := true
  mcastStep _ := true
  ip6Linklocal := some 0
  ipInfo := some 0
  pthreadCreate := some 1

/-- The secure sockets are opened last and get the highest number. -/
def inTurn : SocketRole → Int
  | .server | .server4 => 3
  | .mcast | .mcast4 => 4
  | .secure | .secure4 => 5

end EspIotivity.Adapter
