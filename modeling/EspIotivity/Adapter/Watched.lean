import EspIotivity.Adapter.Descriptors

/-!
# What `select` can report

`network_event_thread` fills `rfds` in one place and takes `maxfd` of two
sockets in another: a secure socket above both is never reported, and an IPv4
build watches the fields of sockets that it does not open.
-/

namespace EspIotivity.Adapter

def maxfd (cfg : BuildConfig) (dev : IpContext) : Int :=
  if cfg.ocIpv4 then
    if dev.server4Sock > dev.mcast4Sock then dev.server4Sock
    else dev.mcast4Sock
  else if dev.serverSock > dev.mcastSock then dev.serverSock
  else dev.mcastSock

/-- What `select` looks at of `rfds`: the descriptors below `maxfd + 1`. -/
def selectable (cfg : BuildConfig) (dev : IpContext) : Finset Int :=
  (rfds cfg dev).filter fun fd => fd < maxfd cfg dev + 1

def openedSocks (cfg : BuildConfig) (env : InitEnv) : Finset Int :=
  ((openedRoles cfg env).map env.socket).toFinset

/-- No call fails of those on whose failure an init part gives up. -/
def InitEnv.everyCall (env : InitEnv) (cfg : BuildConfig) : Bool :=
  (if cfg.ocIpv4 then env.ipv4Succeeds cfg else env.ipv6Succeeds cfg) &&
    env.pthreadCreate.isSome

/-- The higher of the two sockets of which `maxfd` is taken. -/
def highest (cfg : BuildConfig) (env : InitEnv) : Int :=
  if cfg.ocIpv4 then max (env.socket .server4) (env.socket .mcast4)
  else max (env.socket .server) (env.socket .mcast)

def secureRole (cfg : BuildConfig) : SocketRole :=
  if cfg.ocIpv4 then .secure4 else .secure

/-- What an IPv4 build watches though its init does not open it. -/
def unopenedFds (cfg : BuildConfig) (dev : IpContext) : Finset Int :=
  if cfg.ocIpv4 then
    {dev.serverSock, dev.mcastSock} ∪
      if cfg.ocSecurity then {dev.secureSock} else ∅
  else ∅

structure SelectCovers (cfg : BuildConfig) (env : InitEnv)
    (before : IpContext) : Prop where
  secure : cfg.ocSecurity = true →
    env.socket (secureRole cfg) ≤ highest cfg env
  unopened : ∀ fd ∈ unopenedFds cfg before,
    fd ∈ openedSocks cfg env ∨ highest cfg env < fd

theorem filter_union_eq_left_iff {α : Type} [DecidableEq α]
    {p : α → Prop} [DecidablePred p] {s other : Finset α} :
    (s ∪ other).filter p = s ↔
      (∀ a ∈ s, p a) ∧ ∀ a ∈ other, a ∈ s ∨ ¬ p a := by
  constructor
  · intro h
    refine ⟨fun a ha => ?_, fun a ha => ?_⟩
    · rw [← h] at ha
      exact (Finset.mem_filter.mp ha).2
    · by_cases hp : p a
      · left
        rw [← h]
        exact Finset.mem_filter.mpr ⟨Finset.mem_union_right s ha, hp⟩
      · exact .inr hp
  · rintro ⟨hs, hother⟩
    ext a
    rw [Finset.mem_filter, Finset.mem_union]
    constructor
    · rintro ⟨ha | ha, hp⟩
      · exact ha
      · exact (hother a ha).resolve_right (not_not_intro hp)
    · intro ha
      exact ⟨.inl ha, hs a ha⟩

section Select

variable {cfg : BuildConfig} {env : InitEnv} {before dev : IpContext}

theorem openedRoles_everyCall (hcalls : env.everyCall cfg = true) :
    openedRoles cfg env =
      if cfg.ocIpv4 then
        (if cfg.ocSecurity then [.secure4] else []) ++ [.server4, .mcast4]
      else [.server, .mcast] ++ if cfg.ocSecurity then [.secure] else [] := by
  unfold InitEnv.everyCall InitEnv.ipv4Succeeds InitEnv.ipv6Succeeds at hcalls
  unfold openedRoles
  cases h4 : cfg.ocIpv4 <;> cases hs : cfg.ocSecurity <;> simp_all

theorem rfds_openedOver (hcalls : env.everyCall cfg = true)
    (hdev : OpenedOver cfg env before dev) :
    rfds cfg dev = openedSocks cfg env ∪ unopenedFds cfg before := by
  rw [OpenedOver, openedRoles_everyCall hcalls] at hdev
  have hserver : dev.serverSock = _ := congrFun hdev .server
  have hmcast : dev.mcastSock = _ := congrFun hdev .mcast
  have hsecure : dev.secureSock = _ := congrFun hdev .secure
  have hserver4 : dev.server4Sock = _ := congrFun hdev .server4
  have hmcast4 : dev.mcast4Sock = _ := congrFun hdev .mcast4
  have hsecure4 : dev.secure4Sock = _ := congrFun hdev .secure4
  rw [openedSocks, openedRoles_everyCall hcalls]
  unfold rfds unopenedFds
  ext fd
  cases h4 : cfg.ocIpv4 <;> cases hs : cfg.ocSecurity
  all_goals
    simp only [h4, hs] at hserver hmcast hsecure hserver4 hmcast4 hsecure4
    simp [hserver, hmcast, hsecure, hserver4, hmcast4, hsecure4, IpContext.sock,
      eq_comm (a := fd)]
  all_goals tauto

theorem maxfd_openedOver (hcalls : env.everyCall cfg = true)
    (hdev : OpenedOver cfg env before dev) :
    maxfd cfg dev = highest cfg env := by
  rw [OpenedOver, openedRoles_everyCall hcalls] at hdev
  unfold maxfd highest
  cases h4 : cfg.ocIpv4 with
  | false =>
      have hserver : dev.serverSock = _ := congrFun hdev .server
      have hmcast : dev.mcastSock = _ := congrFun hdev .mcast
      simp [h4] at hserver hmcast
      simp only [hserver, hmcast, Bool.false_eq_true, if_false]
      split <;> omega
  | true =>
      have hserver : dev.server4Sock = _ := congrFun hdev .server4
      have hmcast : dev.mcast4Sock = _ := congrFun hdev .mcast4
      simp [h4] at hserver hmcast
      simp only [hserver, hmcast, if_true]
      split <;> omega

theorem openedSocks_le_highest (hcalls : env.everyCall cfg = true) :
    (∀ fd ∈ openedSocks cfg env, fd < highest cfg env + 1) ↔
      (cfg.ocSecurity = true →
        env.socket (secureRole cfg) ≤ highest cfg env) := by
  rw [openedSocks, openedRoles_everyCall hcalls]
  unfold highest secureRole
  cases cfg.ocIpv4 <;> cases cfg.ocSecurity <;> simp

theorem selectable_openedOver (hcalls : env.everyCall cfg = true)
    (hdev : OpenedOver cfg env before dev) :
    selectable cfg dev = openedSocks cfg env ↔ SelectCovers cfg env before := by
  rw [selectable, rfds_openedOver hcalls hdev, maxfd_openedOver hcalls hdev,
    filter_union_eq_left_iff, openedSocks_le_highest hcalls]
  simp only [not_lt, Int.add_one_le_iff]
  exact ⟨fun h => ⟨h.1, h.2⟩, fun h => ⟨h.secure, h.unopened⟩⟩

/-- `select` can report the opened sockets, all of them and no other. -/
theorem selectable_eq_opened_iff {device : Int} {s t : AdapterState}
    {ref : ContextRef} (hcalls : env.everyCall cfg = true)
    (hinit : ocConnectivityInit cfg env device s = some (t, 0))
    (href : newContext cfg env device = some ref) :
    selectable cfg (t.memory ref) = openedSocks cfg env ↔
      SelectCovers cfg env ((s.register cfg ref).memory ref) := by
  obtain ⟨found, hfound, hdev, -⟩ := ocConnectivityInit_net hinit
  obtain rfl : ref = found := Option.some.inj (href.symm.trans hfound)
  exact selectable_openedOver hcalls hdev

end Select

/-- The secure socket is opened first. -/
def secureFirst : SocketRole → Int
  | .secure | .secure4 => 3
  | .server | .server4 => 4
  | .mcast | .mcast4 => 5

theorem secureFirst_selectable_iff : ∃ t,
    ocConnectivityInit secureBuild (workingEnv secureFirst) 0 bootAdapter =
        some (t, 0) ∧
      (selectable secureBuild (t.memory (.slot 0)) =
          openedSocks secureBuild (workingEnv secureFirst) ↔
        SelectCovers secureBuild (workingEnv secureFirst) .zero) := by
  have hcalls : (workingEnv secureFirst).everyCall secureBuild = true := by
    decide
  exact ⟨_, rfl, selectable_eq_opened_iff hcalls rfl rfl⟩

def AlwaysSelects (cfg : BuildConfig) : Prop :=
  ∀ (env : InitEnv) (device : Int) (s t : AdapterState) (ref : ContextRef),
    env.everyCall cfg = true →
    ((openedRoles cfg env).map env.socket).Nodup →
    ocConnectivityInit cfg env device s = some (t, 0) →
    newContext cfg env device = some ref →
    selectable cfg (t.memory ref) = openedSocks cfg env

theorem selectable_fails :
    ¬ AlwaysSelects secureBuild ∧ ¬ AlwaysSelects ipv4Build := by
  constructor
  · intro h
    have hselect := h (workingEnv inTurn) 0 bootAdapter _ (.slot 0) (by decide)
      (by decide) rfl rfl
    exact absurd hselect (by decide +kernel)
  · intro h
    have hselect := h (workingEnv inTurn) 0 bootAdapter _ (.slot 0) (by decide)
      (by decide) rfl rfl
    exact absurd hselect (by decide +kernel)

end EspIotivity.Adapter
