import EspIotivity.Adapter.Release
import Mathlib.Algebra.BigOperators.Group.Finset.Piecewise
import Mathlib.Algebra.Order.Sub.Basic

/-!
# Who holds which descriptor

A ledger of what each device's last init obtained and of what failed inits left
open.  In IPv6 builds the descriptors open after any run of inits and shutdowns
are those the ledger names, and a shutdown closes what the ledger says its
device holds.
-/

namespace EspIotivity.Adapter

open EspIotivity.Foundation

structure Ledger where
  held : Int → Multiset Int
  leaked : Multiset Int

def Ledger.record (cfg : BuildConfig) (ledger : Ledger) :
    LifecycleCall × Int → Ledger
  | (.init device env, result) =>
      let obtained := env.obtained (openedRoles cfg env)
      if result = 0 then
        { ledger with held := Function.update ledger.held device obtained }
      else { ledger with leaked := obtained + ledger.leaked }
  | (.shutdown device, _) =>
      { ledger with held := Function.update ledger.held device 0 }

def ledgerOf (cfg : BuildConfig) (log : LifecycleLog) : Ledger :=
  log.foldl (Ledger.record cfg) ⟨fun _ => 0, 0⟩

def Ledger.total (ledger : Ledger) (devices : Finset Int) : Multiset Int :=
  ∑ device ∈ devices, ledger.held device + ledger.leaked

def LifecycleCall.device : LifecycleCall → Int
  | .init device _ => device
  | .shutdown device => device

/-- With dynamic allocation a failed init would be found in place of others. -/
def LifecycleCall.Kept (cfg : BuildConfig) (devices : Finset Int)
    (call : LifecycleCall) : Prop :=
  call.device ∈ devices ∧
    (cfg.ocDynamicAllocation = true →
      failedInit cfg call.device call = false)

instance (cfg : BuildConfig) (devices : Finset Int) (call : LifecycleCall) :
    Decidable (call.Kept cfg devices) :=
  inferInstanceAs (Decidable (_ ∧ (_ → _)))

theorem LifecycleCall.Kept.not_failed {cfg : BuildConfig}
    {devices : Finset Int} {call : LifecycleCall} (h : call.Kept cfg devices)
    (hdynamic : cfg.ocDynamicAllocation = true) (device : Int) :
    failedInit cfg device call = false := by
  have hfailed := h.2 hdynamic
  cases call with
  | init d env => simp_all [failedInit, LifecycleCall.device]
  | shutdown d => rfl

/-! ## The ledger -/

theorem ledgerOf_concat (cfg : BuildConfig) (log : LifecycleLog)
    (entry : LifecycleCall × Int) :
    ledgerOf cfg (log ++ [entry]) = (ledgerOf cfg log).record cfg entry := by
  simp [ledgerOf]

/-- One device's share of the total. -/
theorem total_eq {devices : Finset Int} {device : Int}
    (hmem : device ∈ devices) (ledger : Ledger) :
    ledger.total devices = ledger.held device +
      (∑ other ∈ devices \ {device}, ledger.held other + ledger.leaked) := by
  rw [Ledger.total, ← add_assoc]
  congr 1
  rw [← Finset.sum_update_of_mem hmem, Function.update_eq_self]

theorem total_update {devices : Finset Int} {device : Int}
    (hmem : device ∈ devices) (held : Int → Multiset Int)
    (leaked socks : Multiset Int) :
    (Ledger.mk (Function.update held device socks) leaked).total devices =
      socks + (∑ other ∈ devices \ {device}, held other + leaked) := by
  rw [Ledger.total, Finset.sum_update_of_mem hmem, add_assoc]

theorem openDescriptors_close (calls : List NetCall) (socks : List Int)
    (thread : Nat) :
    openDescriptors (calls ++ socks.map .close ++
        [.pthreadCancel thread, .pthreadJoin thread]) =
      openDescriptors calls - socks := by
  have hlast : ∀ fds : Multiset Int, [NetCall.pthreadCancel thread,
      .pthreadJoin thread].foldl NetCall.reopen fds = fds := fun _ => rfl
  rw [openDescriptors, List.foldl_append, hlast, List.foldl_append,
    ← openDescriptors]
  generalize openDescriptors calls = fds
  induction socks generalizing fds with
  | nil => simp
  | cons sock socks ih =>
      rw [List.map_cons, List.foldl_cons, ih, ← Multiset.cons_coe,
        Multiset.sub_cons]
      rfl

/-! ## What the calls leave as it was -/

section Other

variable {cfg : BuildConfig} {env : InitEnv} {device other result : Int}
  {s t : AdapterState}

/-- An init of another device does not touch the context of this one. -/
theorem init_other
    (hfresh : ∀ address ∈ env.calloc, .node address ∉ s.ipContexts)
    (hinit : ocConnectivityInit cfg env device s = some (t, result))
    (hother : device ≠ other) {ref : ContextRef}
    (hfound : getIpContextForDevice cfg other s = some ref) :
    getIpContextForDevice cfg other t = some ref ∧
      t.memory ref = s.memory ref := by
  cases hdynamic : cfg.ocDynamicAllocation with
  | true =>
      obtain ⟨-, address, dev, hcalloc, hlist, hmemory, hdevice, -⟩ :=
        init_dynamic hdynamic hinit
      have hnew := hfresh address hcalloc
      rw [getIpContext_append hdynamic hnew hlist hmemory, hfound, hmemory]
      simp only [getIpContextForDevice, hdynamic, if_true] at hfound
      have hmem := List.mem_of_find?_eq_some hfound
      refine ⟨rfl, Function.update_of_ne ?_ _ _⟩
      exact fun h => hnew (h ▸ hmem)
  | false =>
      obtain ⟨dev, hmemory, -, -⟩ := init_static hdynamic hinit
      simp only [getIpContextForDevice, hdynamic, Bool.false_eq_true, if_false,
        Option.some.injEq] at hfound ⊢
      subst hfound
      rw [hmemory]
      exact ⟨rfl, Function.update_of_ne (by simpa using hother.symm) _ _⟩

theorem find?_erase_of_not {p : ContextRef → Bool} {ref : ContextRef}
    (href : p ref = false) (list : List ContextRef) :
    (list.erase ref).find? p = list.find? p := by
  induction list with
  | nil => rfl
  | cons first list ih =>
      by_cases hfirst : first = ref
      · rw [hfirst, List.erase_cons_head,
          List.find?_cons_of_neg (by simp [href])]
      · rw [List.erase_cons_tail (by simpa using hfirst)]
        by_cases hp : p first
        · rw [List.find?_cons_of_pos hp, List.find?_cons_of_pos hp]
        · rw [List.find?_cons_of_neg hp, List.find?_cons_of_neg hp, ih]

theorem shutdown_other
    (hshutdown : ocConnectivityShutdown cfg device s = some t)
    (hdevice : ∀ ref, getIpContextForDevice cfg device s = some ref →
      (s.memory ref).device = device)
    (hother : device ≠ other) {ref : ContextRef}
    (hfound : getIpContextForDevice cfg other s = some ref)
    (href : (s.memory ref).device = other) :
    getIpContextForDevice cfg other t = some ref ∧
      t.memory ref = s.memory ref := by
  obtain ⟨mine, hmine, hmemory, hlist⟩ := ocConnectivityShutdown_cases hshutdown
  have hne : ref ≠ mine := by
    rintro rfl
    exact hother ((hdevice ref hmine).symm.trans href)
  rw [hmemory, Function.update_of_ne hne]
  refine ⟨?_, rfl⟩
  cases hdynamic : cfg.ocDynamicAllocation with
  | true =>
      simp only [getIpContextForDevice, hdynamic, if_true] at hfound ⊢ hlist
      rw [hlist, find?_erase_of_not, ← hfound]
      · apply List.find?_congr
        intro old _
        rw [hmemory]
        by_cases hold : old = mine
        · rw [hold, Function.update_self]
        · rw [Function.update_of_ne hold]
      · rw [hmemory, Function.update_self]
        simpa [hdevice mine hmine] using hother
  | false => simpa [getIpContextForDevice, hdynamic] using hfound

end Other

/-! ## The books after each call -/

structure Accounted (cfg : BuildConfig) (devices : Finset Int)
    (s : AdapterState) (log : LifecycleLog) : Prop where
  served : ∀ device, live device log = true → ∃ ref,
    getIpContextForDevice cfg device s = some ref ∧
      (s.memory ref).device = device ∧
      (closedSocks cfg (s.memory ref) : Multiset Int) =
        (ledgerOf cfg log).held device
  idle : ∀ device, live device log = false →
    (ledgerOf cfg log).held device = 0
  balance : openDescriptors s.calls = (ledgerOf cfg log).total devices
  clean : cfg.ocDynamicAllocation = true →
    ∀ call ∈ callsOf log, ∀ device, failedInit cfg device call = false

theorem boot_accounted (cfg : BuildConfig) (devices : Finset Int) :
    Accounted cfg devices bootAdapter [] := by
  constructor
  case served => simp [live, lastWrite]
  case idle => simp [ledgerOf]
  case balance =>
    simp [ledgerOf, Ledger.total, bootAdapter, openDescriptors]
  case clean => simp [callsOf]

section Step

variable {cfg : BuildConfig} {devices : Finset Int} {env : InitEnv}
  {device result : Int} {s t : AdapterState} {log : LifecycleLog}

/-- With no failed init in the list, a device that is not live has no node. -/
theorem Accounted.unregistered (hs : Accounted cfg devices s log)
    (hlife : LifecycleInvariant cfg s log)
    (hdynamic : cfg.ocDynamicAllocation = true)
    (hdead : live device log = false) : registered device s = 0 := by
  rw [hlife.nodes hdynamic, hdead, Bool.toNat_false, Nat.add_zero,
    List.countP_eq_zero]
  intro call hcall
  rw [hs.clean hdynamic call hcall]
  exact Bool.false_ne_true

/-- The context of a device that an init has just brought up. -/
theorem init_serves (h6 : cfg.ocIpv4 = false)
    (hs : Accounted cfg devices s log) (hlife : LifecycleInvariant cfg s log)
    (hpermitted : Permitted (s, log) (.init device env))
    (hinit : ocConnectivityInit cfg env device s = some (t, 0)) :
    ∃ ref, getIpContextForDevice cfg device t = some ref ∧
      (t.memory ref).device = device ∧
      closedSocks cfg (t.memory ref) = env.obtained (openedRoles cfg env) := by
  obtain ⟨hdead, hfresh⟩ := hpermitted
  obtain ⟨ref, href, hopened, -⟩ := ocConnectivityInit_net hinit
  obtain ⟨hresult, ref', dev, href', -, hmemory, hdevice, -⟩ :=
    ocConnectivityInit_cases hinit
  obtain rfl : ref = ref' := Option.some.inj (href.symm.trans href')
  have hsucceeds : env.succeeds cfg = true := by
    by_contra h
    simp [h] at hresult
  refine ⟨ref, ?_, ?_, closedSocks_ipv6 h6 hsucceeds hopened⟩
  · cases hdynamic : cfg.ocDynamicAllocation with
    | true =>
        obtain ⟨-, address, new, hcalloc, hlist, hmemory', hdevice', -⟩ :=
          init_dynamic hdynamic hinit
        have hnode : ref = .node address := by
          simpa [newContext, hdynamic, hcalloc] using href.symm
        rw [hnode, search_init hdynamic (hfresh address hcalloc) hlist hmemory'
          hdevice']
        exact hs.unregistered hlife hdynamic hdead
    | false => simpa [newContext, getIpContextForDevice, hdynamic] using href
  · rw [hmemory, Function.update_self, hdevice]

/-- An init changes nothing in the books of the other devices. -/
theorem init_serves_others (hs : Accounted cfg devices s log)
    (hpermitted : Permitted (s, log) (.init device env))
    (hinit : ocConnectivityInit cfg env device s = some (t, result))
    {other : Int} (hother : device ≠ other) (hlive : live other log = true) :
    ∃ ref, getIpContextForDevice cfg other t = some ref ∧
      (t.memory ref).device = other ∧
      (closedSocks cfg (t.memory ref) : Multiset Int) =
        (ledgerOf cfg log).held other := by
  obtain ⟨ref, hfound, hdevice, hsocks⟩ := hs.served other hlive
  obtain ⟨hfound', hmemory⟩ := init_other hpermitted.2 hinit hother hfound
  exact ⟨ref, hfound', by rw [hmemory, hdevice], by rw [hmemory, hsocks]⟩

theorem init_openDescriptors
    (hinit : ocConnectivityInit cfg env device s = some (t, result)) :
    openDescriptors t.calls =
      env.obtained (openedRoles cfg env) + openDescriptors s.calls := by
  obtain ⟨-, -, -, hcalls⟩ := ocConnectivityInit_net hinit
  rw [hcalls, openDescriptors_append (closed_actions _), obtained_initActions]

theorem Accounted.stays_clean (hs : Accounted cfg devices s log)
    {call : LifecycleCall} (hkept : call.Kept cfg devices) :
    cfg.ocDynamicAllocation = true →
      ∀ old ∈ callsOf (log ++ [(call, result)]), ∀ device,
        failedInit cfg device old = false := by
  intro hdynamic old hold
  rw [callsOf_concat, List.mem_append, List.mem_singleton] at hold
  rcases hold with hold | rfl
  · exact hs.clean hdynamic old hold
  · exact hkept.not_failed hdynamic

/-- The device is live now, and holds what was obtained. -/
theorem init_credited (h6 : cfg.ocIpv4 = false)
    (hs : Accounted cfg devices s log) (hlife : LifecycleInvariant cfg s log)
    (hpermitted : Permitted (s, log) (.init device env))
    (hkept : (LifecycleCall.init device env).Kept cfg devices)
    (hinit : ocConnectivityInit cfg env device s = some (t, 0)) :
    Accounted cfg devices t (log ++ [(.init device env, 0)]) := by
  have hmem : device ∈ devices := hkept.1
  have hledger : ledgerOf cfg (log ++ [(.init device env, 0)]) =
      ⟨Function.update (ledgerOf cfg log).held device
        (env.obtained (openedRoles cfg env)), (ledgerOf cfg log).leaked⟩ := by
    simp [ledgerOf_concat, Ledger.record]
  have hlive : ∀ other, live other (log ++ [(.init device env, 0)]) =
      if device = other then true else live other log := by
    intro other
    rw [live_concat]
    by_cases h : device = other <;> simp [livens, h]
  constructor
  case served =>
    intro other hnow
    rw [hlive] at hnow
    rw [hledger]
    by_cases h : device = other
    · subst h
      obtain ⟨ref, hfound, hdevice, hsocks⟩ :=
        init_serves h6 hs hlife hpermitted hinit
      exact ⟨ref, hfound, hdevice, by simp [hsocks]⟩
    · rw [if_neg h] at hnow
      obtain ⟨ref, hfound, hdevice, hsocks⟩ :=
        init_serves_others hs hpermitted hinit h hnow
      refine ⟨ref, hfound, hdevice, ?_⟩
      dsimp only
      rw [hsocks, Function.update_of_ne (Ne.symm h)]
  case idle =>
    intro other hnow
    rw [hlive] at hnow
    by_cases h : device = other
    · simp [h] at hnow
    · rw [if_neg h] at hnow
      rw [hledger]
      dsimp only
      rw [Function.update_of_ne (Ne.symm h)]
      exact hs.idle other hnow
  case balance =>
    have hheld := hs.idle device hpermitted.1
    rw [init_openDescriptors hinit, hledger, total_update hmem, hs.balance,
      total_eq hmem, hheld, zero_add]
  case clean => exact hs.stays_clean hkept

/-- What a failed init opened stays open, and belongs to no device. -/
theorem init_leaked (hs : Accounted cfg devices s log)
    (hpermitted : Permitted (s, log) (.init device env))
    (hkept : (LifecycleCall.init device env).Kept cfg devices)
    (hinit : ocConnectivityInit cfg env device s = some (t, result))
    (hresult : result ≠ 0) :
    Accounted cfg devices t (log ++ [(.init device env, result)]) := by
  have hdead : live device log = false := hpermitted.1
  have hledger : ledgerOf cfg (log ++ [(.init device env, result)]) =
      ⟨(ledgerOf cfg log).held, env.obtained (openedRoles cfg env) +
        (ledgerOf cfg log).leaked⟩ := by
    simp [ledgerOf_concat, Ledger.record, hresult]
  have hlive : ∀ other, live other (log ++ [(.init device env, result)]) =
      live other log := by
    intro other
    simp [live_concat, livens, hresult]
  constructor
  case served =>
    intro other hnow
    rw [hlive] at hnow
    rw [hledger]
    refine init_serves_others hs hpermitted hinit ?_ hnow
    rintro rfl
    rw [hdead] at hnow
    cases hnow
  case idle =>
    intro other hnow
    rw [hlive] at hnow
    rw [hledger]
    exact hs.idle other hnow
  case balance =>
    rw [init_openDescriptors hinit, hledger, hs.balance, Ledger.total,
      Ledger.total, add_left_comm]
  case clean => exact hs.stays_clean hkept

theorem shutdown_accounted (hs : Accounted cfg devices s log)
    (hpermitted : Permitted (s, log) (.shutdown device))
    (hkept : (LifecycleCall.shutdown device).Kept cfg devices)
    (hshutdown : ocConnectivityShutdown cfg device s = some t) :
    Accounted cfg devices t (log ++ [(.shutdown device, 0)]) := by
  have hmem : device ∈ devices := hkept.1
  obtain ⟨ref, hfound, hdevice, hsocks⟩ := hs.served device hpermitted
  have hledger : ledgerOf cfg (log ++ [(.shutdown device, 0)]) =
      ⟨Function.update (ledgerOf cfg log).held device 0,
        (ledgerOf cfg log).leaked⟩ := by
    simp [ledgerOf_concat, Ledger.record]
  have hlive : ∀ other, live other (log ++ [(.shutdown device, 0)]) =
      if device = other then false else live other log := by
    intro other
    rw [live_concat]
    by_cases h : device = other <;> simp [livens, h]
  have hmine : ∀ mine, getIpContextForDevice cfg device s = some mine →
      (s.memory mine).device = device := by
    intro mine h
    rw [hfound, Option.some.injEq] at h
    rw [← h, hdevice]
  constructor
  case served =>
    intro other hother
    rw [hlive] at hother
    by_cases h : device = other
    · simp [h] at hother
    · rw [if_neg h] at hother
      obtain ⟨old, hold, holdDevice, holdSocks⟩ := hs.served other hother
      obtain ⟨hkeeps, hmemory⟩ :=
        shutdown_other hshutdown hmine h hold holdDevice
      refine ⟨old, hkeeps, by rw [hmemory, holdDevice], ?_⟩
      rw [hledger, hmemory, holdSocks]
      dsimp only
      rw [Function.update_of_ne (Ne.symm h)]
  case idle =>
    intro other hother
    rw [hlive] at hother
    rw [hledger]
    by_cases h : device = other
    · simp [h]
    · rw [if_neg h] at hother
      dsimp only
      rw [Function.update_of_ne (Ne.symm h)]
      exact hs.idle other hother
  case balance =>
    obtain ⟨found, hsame, rfl⟩ := Option.map_eq_some_iff.mp hshutdown
    rw [hfound] at hsame
    cases hsame
    rw [openDescriptors_close, hsocks, hledger, total_update hmem, zero_add,
      hs.balance, total_eq hmem, add_tsub_cancel_left]
  case clean => exact hs.stays_clean hkept

theorem accounted_next (h6 : cfg.ocIpv4 = false)
    {u v : AdapterState × LifecycleLog} {call : LifecycleCall}
    (hs : Accounted cfg devices u.1 u.2)
    (hlife : LifecycleInvariant cfg u.1 u.2) (hpermitted : Permitted u call)
    (hkept : call.Kept cfg devices)
    (hnext : (lifecycleMachine cfg).next u call = some v) :
    Accounted cfg devices v.1 v.2 := by
  obtain ⟨result, hperform, hlog⟩ := Machine.logging_next.mp hnext
  rw [hlog]
  cases call with
  | init device env =>
      by_cases hresult : result = 0
      · subst hresult
        exact init_credited h6 hs hlife hpermitted hkept hperform
      · exact init_leaked hs hpermitted hkept hperform hresult
  | shutdown device =>
      obtain ⟨w, hshutdown, heq⟩ := Option.map_eq_some_iff.mp hperform
      cases heq
      exact shutdown_accounted hs hpermitted hkept hshutdown

end Step

/--
In an IPv6 build, after any run of inits and shutdowns, the open descriptors are
those that the live devices' inits obtained, device by device, and those of the
failed inits; and the shutdown of a live device closes exactly its own.
-/
theorem descriptors_accounted {cfg : BuildConfig} (h6 : cfg.ocIpv4 = false)
    {devices : Finset Int} {calls : List LifecycleCall}
    {s : AdapterState × LifecycleLog}
    (hcalls : (lifecycleMachine cfg).Throughout
      (fun s call => Permitted s call ∧ call.Kept cfg devices)
      (bootAdapter, []) calls)
    (hrun : (lifecycleMachine cfg).run calls = some s) :
    openDescriptors s.1.calls =
        ∑ device ∈ devices, (ledgerOf cfg s.2).held device +
          (ledgerOf cfg s.2).leaked ∧
      (∀ device, live device s.2 = false →
        (ledgerOf cfg s.2).held device = 0) ∧
      ∀ device, live device s.2 = true → ∃ ref,
        getIpContextForDevice cfg device s.1 = some ref ∧
          (closedSocks cfg (s.1.memory ref) : Multiset Int) =
            (ledgerOf cfg s.2).held device := by
  have hboth : LifecycleInvariant cfg s.1 s.2 ∧
      Accounted cfg devices s.1 s.2 := by
    refine Machine.Throughout.invariant
      (I := fun s => LifecycleInvariant cfg s.1 s.2 ∧
        Accounted cfg devices s.1 s.2) ?_
      ⟨boot_lifecycle cfg, boot_accounted cfg devices⟩ hcalls hrun
    intro u call v ⟨hlife, hs⟩ ⟨hpermitted, hkept⟩ hnext
    exact ⟨lifecycle_next hlife hpermitted hnext,
      accounted_next h6 hs hlife hpermitted hkept hnext⟩
  obtain ⟨-, hs⟩ := hboth
  refine ⟨hs.balance, hs.idle, fun device hlive => ?_⟩
  obtain ⟨ref, hfound, -, hsocks⟩ := hs.served device hlive
  exact ⟨ref, hfound, hsocks⟩

/-- One device comes and goes; another's `bind` fails in between. -/
def comings : List LifecycleCall :=
  [.init 0 (workingEnv inTurn), .init 1 bindFails, .shutdown 0,
    .init 0 (workingEnv fun role => inTurn role + 3)]

theorem comings_accounted : ∃ s,
    (lifecycleMachine secureBuild).run comings = some s ∧
      openDescriptors s.1.calls =
        ∑ device ∈ ({0, 1} : Finset Int),
          (ledgerOf secureBuild s.2).held device +
            (ledgerOf secureBuild s.2).leaked ∧
      (∀ device, live device s.2 = false →
        (ledgerOf secureBuild s.2).held device = 0) ∧
      ∀ device, live device s.2 = true → ∃ ref,
        getIpContextForDevice secureBuild device s.1 = some ref ∧
          (closedSocks secureBuild (s.1.memory ref) : Multiset Int) =
            (ledgerOf secureBuild s.2).held device := by
  have hsome : ((lifecycleMachine secureBuild).run comings).isSome := by
    decide +kernel
  obtain ⟨s, hrun⟩ := Option.isSome_iff_exists.mp hsome
  exact ⟨s, hrun, descriptors_accounted rfl (by decide +kernel) hrun⟩

end EspIotivity.Adapter
