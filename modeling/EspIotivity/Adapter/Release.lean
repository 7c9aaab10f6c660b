import EspIotivity.Adapter.Descriptors
import EspIotivity.Adapter.Lifecycle
import Mathlib.Data.List.Perm.Basic
import Mathlib.Data.Multiset.AddSub

/-!
# What is given back

The descriptors that a shutdown closes against those that the init obtained,
and what an init that returns -1 leaves behind.
-/

namespace EspIotivity.Adapter

open EspIotivity.Foundation

def NetCall.obtained : NetCall → Option Int
  | .socket _ result => if 0 ≤ result then some result else none
  | _ => none

def NetCall.closed : NetCall → Option Int
  | .close sock => some sock
  | _ => none

/-- What is closed is what was obtained, as often as it was obtained. -/
def Balanced (calls : List NetCall) : Prop :=
  (calls.filterMap NetCall.closed).Perm (calls.filterMap NetCall.obtained)

def NetCall.reopen (fds : Multiset Int) : NetCall → Multiset Int
  | .socket _ result => if 0 ≤ result then result ::ₘ fds else fds
  | .close sock => fds.erase sock
  | _ => fds

/-- The open descriptors, as often as `socket` returned them. -/
def openDescriptors (calls : List NetCall) : Multiset Int :=
  calls.foldl NetCall.reopen 0

instance (calls : List NetCall) : Decidable (Balanced calls) :=
  inferInstanceAs (Decidable (List.Perm _ _))

/-- The results of the `socket` calls that succeed. -/
def InitEnv.obtained (env : InitEnv) (roles : List SocketRole) : List Int :=
  (roles.map env.socket).filter fun sock => 0 ≤ sock

theorem openDescriptors_append {calls later : List NetCall}
    (hopen : ∀ call ∈ later, call.closed = none) :
    openDescriptors (calls ++ later) =
      later.filterMap NetCall.obtained + openDescriptors calls := by
  rw [openDescriptors, List.foldl_append, ← openDescriptors]
  generalize openDescriptors calls = fds
  induction later generalizing fds with
  | nil => simp
  | cons call later ih =>
      rw [List.forall_mem_cons] at hopen
      rw [List.foldl_cons, ih hopen.2, List.filterMap_cons]
      cases call with
      | close sock => simp [NetCall.closed] at hopen
      | socket family result =>
          by_cases h : 0 ≤ result
          · simp [NetCall.reopen, NetCall.obtained, h, ← Multiset.cons_coe]
          · simp [NetCall.reopen, NetCall.obtained, h]
      | pthreadCreate thread | pthreadCancel thread | pthreadJoin thread =>
          simp [NetCall.reopen, NetCall.obtained]

section Init

variable {cfg : BuildConfig} {env : InitEnv}

theorem closed_actions (actions : List InitAction) :
    ∀ call ∈ actions.map (InitAction.call env), call.closed = none := by
  intro call hcall
  obtain ⟨action, -, rfl⟩ := List.mem_map.mp hcall
  cases action <;> rfl

theorem obtained_opened (roles : List SocketRole) :
    ((roles.map InitAction.opened).map (InitAction.call env)).filterMap
      NetCall.obtained = env.obtained roles := by
  induction roles with
  | nil => rfl
  | cons role roles ih =>
      rw [List.map_cons, List.map_cons, List.filterMap_cons, ih]
      by_cases h : 0 ≤ env.socket role
      · simp [InitAction.call, NetCall.obtained, InitEnv.obtained, h]
      · simp [InitAction.call, NetCall.obtained, InitEnv.obtained, h]

theorem obtained_started (threads : List Nat) :
    ((threads.map InitAction.started).map (InitAction.call env)).filterMap
      NetCall.obtained = [] := by
  simp [InitAction.call, NetCall.obtained]

theorem obtained_initActions :
    ((initActions cfg env).map (InitAction.call env)).filterMap
      NetCall.obtained = env.obtained (openedRoles cfg env) := by
  rw [initActions, List.map_append, List.filterMap_append, obtained_opened]
  split
  · rw [obtained_started, List.append_nil]
  · simp

end Init

/-! ## A failed init -/

/-- Every `socket` call that the init makes fails. -/
def InitEnv.opensNothing (env : InitEnv) (cfg : BuildConfig) : Bool :=
  if cfg.ocIpv4 then
    if cfg.ocSecurity then env.socket .secure4 < 0
    else env.socket .server4 < 0 && env.socket .mcast4 < 0
  else env.socket .server < 0 && env.socket .mcast < 0

theorem obtained_eq_nil_iff {cfg : BuildConfig} {env : InitEnv} :
    env.obtained (openedRoles cfg env) = [] ↔
      env.opensNothing cfg = true := by
  rw [InitEnv.obtained, List.filter_eq_nil_iff]
  unfold InitEnv.opensNothing openedRoles
  cases cfg.ocIpv4 <;> cases cfg.ocSecurity <;> simp
  -- What is left is that a socket cannot be negative and not.
  all_goals
    intros
    omega

variable {cfg : BuildConfig} {env : InitEnv} {device : Int}
  {s t u : AdapterState}

/-- A failed init leaves nothing behind only where it created nothing. -/
theorem init_allOrNothing_iff
    (hinit : ocConnectivityInit cfg env device s = some (t, -1)) :
    (t.ipContexts = s.ipContexts ∧
        openDescriptors t.calls = openDescriptors s.calls) ↔
      cfg.ocDynamicAllocation = false ∧ env.opensNothing cfg = true := by
  obtain ⟨-, ref, -, -, hlist, -⟩ := ocConnectivityInit_cases hinit
  obtain ⟨-, -, -, hcalls⟩ := ocConnectivityInit_net hinit
  rw [hlist, hcalls, openDescriptors_append (closed_actions _),
    obtained_initActions, ← obtained_eq_nil_iff]
  apply and_congr
  · unfold AdapterState.register
    cases cfg.ocDynamicAllocation <;> simp
  · simp

/-- `bind` fails on the server's socket, after the sockets were opened. -/
def bindFails : InitEnv :=
  { workingEnv inTurn with bind := fun role => role ≠ .server }

def noSockets : InitEnv := workingEnv fun _ => -1

theorem noSockets_allOrNothing_iff : ∃ t,
    ocConnectivityInit secureBuild noSockets 0 bootAdapter = some (t, -1) ∧
      ((t.ipContexts = bootAdapter.ipContexts ∧
          openDescriptors t.calls = openDescriptors bootAdapter.calls) ↔
        secureBuild.ocDynamicAllocation = false ∧
          noSockets.opensNothing secureBuild = true) :=
  ⟨_, rfl, init_allOrNothing_iff rfl⟩

def AllOrNothing (cfg : BuildConfig) : Prop :=
  ∀ (env : InitEnv) (device : Int) (s t : AdapterState),
    ocConnectivityInit cfg env device s = some (t, -1) →
    t.ipContexts = s.ipContexts ∧
      openDescriptors t.calls = openDescriptors s.calls

theorem allOrNothing_fails :
    ¬ AllOrNothing secureBuild ∧
      ¬ AllOrNothing { secureBuild with ocDynamicAllocation := true } := by
  constructor
  · intro h
    have hopen := (h bindFails 0 bootAdapter _ rfl).2
    exact absurd hopen (by decide +kernel)
  · intro h
    have hlist := (h noSockets 0 bootAdapter _ rfl).1
    exact absurd hlist (by decide +kernel)

/-! ## A shutdown after an init -/

theorem registered_eq_zero :
    registered device s = 0 ↔ ∀ ref ∈ s.ipContexts, (s.memory ref).device ≠
      device := by
  simp [registered, List.countP_eq_zero]

/-- With no other context of the device, a search finds the new one. -/
theorem init_found (hnone : registered device s = 0)
    (hinit : ocConnectivityInit cfg env device s = some (t, 0))
    {ref : ContextRef}
    (hfound : getIpContextForDevice cfg device t = some ref) :
    newContext cfg env device = some ref := by
  cases hdynamic : cfg.ocDynamicAllocation with
  | false => simpa [newContext, getIpContextForDevice, hdynamic] using hfound
  | true =>
      obtain ⟨-, address, dev, hcalloc, hlist, hmemory, -⟩ :=
        init_dynamic hdynamic hinit
      simp only [getIpContextForDevice, hdynamic, if_true] at hfound
      have hmem := List.mem_of_find?_eq_some hfound
      have hdevice := List.find?_some hfound
      rw [hlist, List.mem_append, List.mem_singleton] at hmem
      have hnode : ref = .node address := by
        by_contra hne
        rw [hmemory, Function.update_of_ne hne, decide_eq_true_eq] at hdevice
        exact registered_eq_zero.mp hnone ref (hmem.resolve_right hne) hdevice
      simp [newContext, hdynamic, hcalloc, hnode]

theorem filterMap_closed (socks : List Int) :
    (socks.map NetCall.close).filterMap NetCall.closed = socks := by
  simp [NetCall.closed, Function.comp_def]

theorem filterMap_closed_obtained (socks : List Int) :
    (socks.map NetCall.close).filterMap NetCall.obtained = [] := by
  simp [NetCall.obtained]

/-- The calls of an init and a shutdown of the context it created. -/
theorem shutdown_calls (hnone : registered device s = 0)
    (hinit : ocConnectivityInit cfg env device s = some (t, 0))
    (hshutdown : ocConnectivityShutdown cfg device t = some u) :
    ∃ before dev thread, OpenedOver cfg env before dev ∧
      u.calls = s.calls ++ ((initActions cfg env).map (InitAction.call env) ++
        ((closedSocks cfg dev).map .close ++
          [.pthreadCancel thread, .pthreadJoin thread])) := by
  obtain ⟨ref, hfound, rfl⟩ := Option.map_eq_some_iff.mp hshutdown
  obtain ⟨new, hnew, hdev, hcalls⟩ := ocConnectivityInit_net hinit
  have href := init_found hnone hinit hfound
  obtain rfl : ref = new := Option.some.inj (href.symm.trans hnew)
  refine ⟨_, _, (t.memory ref).eventThread, hdev, ?_⟩
  simp only [hcalls, List.append_assoc]

/-- An IPv6 build closes what it opened. -/
theorem closedSocks_ipv6 (h4 : cfg.ocIpv4 = false)
    (hsucceeds : env.succeeds cfg = true) {before dev : IpContext}
    (hdev : OpenedOver cfg env before dev) :
    closedSocks cfg dev = env.obtained (openedRoles cfg env) := by
  have hserver : dev.serverSock = _ := congrFun hdev .server
  have hmcast : dev.mcastSock = _ := congrFun hdev .mcast
  have hsecure : dev.secureSock = _ := congrFun hdev .secure
  simp only [InitEnv.succeeds, InitEnv.ipv6Succeeds, h4, Bool.false_or,
    Bool.and_eq_true, decide_eq_true_eq] at hsucceeds
  obtain ⟨⟨⟨hpos, hposMcast⟩, hposSecure, -⟩, -⟩ := hsucceeds
  cases hs : cfg.ocSecurity with
  | false =>
      simp [openedRoles, h4, hs, hpos, hposMcast] at hserver hmcast
      simp [closedSocks, openedRoles, InitEnv.obtained, h4, hs, hserver, hmcast,
        hpos, hposMcast]
  | true =>
      simp only [hs, Bool.not_true, Bool.false_or, decide_eq_true_eq]
        at hposSecure
      simp [openedRoles, h4, hs, hpos, hposMcast] at hserver hmcast hsecure
      simp [closedSocks, openedRoles, InitEnv.obtained, h4, hs, hserver, hmcast,
        hsecure, hpos, hposMcast, hposSecure]

/-- An IPv4 build closes more descriptors than it can have opened. -/
theorem length_obtained_lt (h4 : cfg.ocIpv4 = true) (dev : IpContext) :
    (env.obtained (openedRoles cfg env)).length <
      (closedSocks cfg dev).length := by
  have hle : (env.obtained (openedRoles cfg env)).length ≤
      (openedRoles cfg env).length :=
    (List.length_filter_le _ _).trans_eq (List.length_map _)
  refine hle.trans_lt ?_
  unfold openedRoles closedSocks
  rw [h4]
  cases cfg.ocSecurity with
  | false => simp
  | true => by_cases h : 0 ≤ env.socket .secure4 <;> simp [h]

theorem closedSocks_perm_iff (hsucceeds : env.succeeds cfg = true)
    {before dev : IpContext} (hdev : OpenedOver cfg env before dev) :
    (closedSocks cfg dev).Perm (env.obtained (openedRoles cfg env)) ↔
      cfg.ocIpv4 = false := by
  cases h4 : cfg.ocIpv4 with
  | false =>
      rw [closedSocks_ipv6 h4 hsucceeds hdev]
      simp
  | true =>
      have hlength : (env.obtained (openedRoles cfg env)).length < _ :=
        length_obtained_lt h4 dev
      simpa using fun hperm : (closedSocks cfg dev).Perm _ =>
        hlength.ne' hperm.length_eq

/-- Everything obtained is closed once, and nothing else, in IPv6 builds. -/
theorem balanced_iff (hnone : registered device s = 0)
    (hinit : ocConnectivityInit cfg env device s = some (t, 0))
    (hshutdown : ocConnectivityShutdown cfg device t = some u) :
    Balanced (u.calls.drop s.calls.length) ↔ cfg.ocIpv4 = false := by
  obtain ⟨before, dev, thread, hdev, hcalls⟩ :=
    shutdown_calls hnone hinit hshutdown
  obtain ⟨hresult, -⟩ := ocConnectivityInit_cases hinit
  have hsucceeds : env.succeeds cfg = true := by
    by_contra h
    simp [h] at hresult
  have hclosed : ((initActions cfg env).map
      (InitAction.call env)).filterMap NetCall.closed = [] :=
    List.filterMap_eq_nil_iff.mpr (closed_actions _)
  rw [hcalls, List.drop_left, Balanced, ← closedSocks_perm_iff hsucceeds hdev]
  simp only [List.filterMap_append, hclosed, obtained_initActions,
    filterMap_closed, filterMap_closed_obtained]
  simp only [List.filterMap_cons, List.filterMap_nil, NetCall.closed,
    NetCall.obtained, List.nil_append, List.append_nil]

theorem secureBuild_balanced_iff : ∃ t u,
    ocConnectivityInit secureBuild (workingEnv inTurn) 0 bootAdapter =
        some (t, 0) ∧
      ocConnectivityShutdown secureBuild 0 t = some u ∧
      (Balanced (u.calls.drop bootAdapter.calls.length) ↔
        secureBuild.ocIpv4 = false) := by
  have hinit : ∃ t, ocConnectivityInit secureBuild (workingEnv inTurn) 0
      bootAdapter = some (t, 0) := ⟨_, rfl⟩
  obtain ⟨t, hinit⟩ := hinit
  exact ⟨t, _, hinit, rfl, balanced_iff rfl hinit rfl⟩

theorem balanced_fails :
    ¬ ∀ (cfg : BuildConfig) (env : InitEnv) (device : Int)
      (t u : AdapterState),
      ocConnectivityInit cfg env device bootAdapter = some (t, 0) →
      ocConnectivityShutdown cfg device t = some u →
      Balanced (u.calls.drop bootAdapter.calls.length) := by
  intro h
  have hbalanced := h ipv4Build (workingEnv inTurn) 0 _ _ rfl rfl
  exact absurd hbalanced (by decide +kernel)

end EspIotivity.Adapter
