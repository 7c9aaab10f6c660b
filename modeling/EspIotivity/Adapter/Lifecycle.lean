import EspIotivity.Adapter.Connectivity
import EspIotivity.Foundation.LastWrite
import Mathlib.Data.List.Count
import Mathlib.Data.List.Find

/-!
# Runs of init and shutdown

What a successful `oc_connectivity_init` leaves in place depends on the calls
before it: a static slot keeps the `terminate` of an earlier shutdown, and a
failed init leaves its node in the list.
-/

namespace EspIotivity.Adapter

open EspIotivity.Foundation

inductive LifecycleCall where
  | init (device : Int) (env : InitEnv)
  | shutdown (device : Int)

/-- A shutdown returns nothing, which counts as 0 here. -/
def LifecycleCall.perform (cfg : BuildConfig) (s : AdapterState) :
    LifecycleCall → Option (AdapterState × Int)
  | .init device env => ocConnectivityInit cfg env device s
  | .shutdown device =>
      (ocConnectivityShutdown cfg device s).map fun t => (t, 0)

abbrev LifecycleLog := List (LifecycleCall × Int)

def lifecycleMachine (cfg : BuildConfig) :
    Machine (AdapterState × LifecycleLog) LifecycleCall :=
  Machine.logging bootAdapter (LifecycleCall.perform cfg)

/-! ## What the log says of a device -/

def livens (device : Int) : LifecycleCall × Int → Option Bool
  | (.init d _, result) => if d = device ∧ result = 0 then some true else none
  | (.shutdown d, _) => if d = device then some false else none

def live (device : Int) (log : LifecycleLog) : Bool :=
  (lastWrite (livens device) log).getD false

def failedInit (cfg : BuildConfig) (device : Int) : LifecycleCall → Bool
  | .init d env => d = device ∧ env.succeeds cfg = false
  | .shutdown _ => false

def isShutdown (device : Int) : LifecycleCall → Bool
  | .init _ _ => false
  | .shutdown d => d = device

def callsOf (log : LifecycleLog) : List LifecycleCall :=
  log.map Prod.fst

/-- The caller's part, and that `calloc` returns an address not in use. -/
def Permitted (s : AdapterState × LifecycleLog) : LifecycleCall → Prop
  | .init device env => live device s.2 = false ∧
      ∀ address ∈ env.calloc, .node address ∉ s.1.ipContexts
  | .shutdown device => live device s.2 = true

/-- The device's context is the one this init filled in, and is to run. -/
def ServesInit (cfg : BuildConfig) (device : Int) (env : InitEnv)
    (t : AdapterState) : Prop :=
  ∃ ref ∈ newContext cfg env device,
    getIpContextForDevice cfg device t = some ref ∧
    (t.memory ref).device = device ∧ (t.memory ref).terminate ≠ 1

/-- No call before failed to create the device's context, or shut it down. -/
def Unspoilt (cfg : BuildConfig) (device : Int) (calls : List LifecycleCall) :
    Prop :=
  if cfg.ocDynamicAllocation then
    ∀ call ∈ calls, failedInit cfg device call = false
  else ∀ call ∈ calls, isShutdown device call = false

/-- `P` holds of the state after the call if that is an init returning 0. -/
def AfterInit (cfg : BuildConfig)
    (P : Int → InitEnv → AdapterState → LifecycleLog → Prop)
    (s : AdapterState × LifecycleLog) : LifecycleCall → Prop
  | .init device env => ∀ outcome ∈ ocConnectivityInit cfg env device s.1,
      outcome.2 = 0 → P device env outcome.1 s.2
  | .shutdown _ => True

instance (s : AdapterState × LifecycleLog) :
    ∀ call, Decidable (Permitted s call)
  | .init _ _ => inferInstanceAs (Decidable (_ ∧ _))
  | .shutdown _ => inferInstanceAs (Decidable (_ = _))

instance (cfg : BuildConfig) (device : Int) (env : InitEnv)
    (t : AdapterState) : Decidable (ServesInit cfg device env t) :=
  inferInstanceAs (Decidable (∃ ref ∈ newContext cfg env device,
    getIpContextForDevice cfg device t = some ref ∧
    (t.memory ref).device = device ∧ (t.memory ref).terminate ≠ 1))

instance (cfg : BuildConfig) (s : AdapterState × LifecycleLog)
    (P : Int → InitEnv → AdapterState → LifecycleLog → Prop)
    [∀ device env t log, Decidable (P device env t log)] :
    ∀ call, Decidable (AfterInit cfg P s call)
  | .init device env => inferInstanceAs (Decidable
      (∀ outcome ∈ ocConnectivityInit cfg env device s.1,
        outcome.2 = 0 → P device env outcome.1 s.2))
  | .shutdown _ => .isTrue trivial

/-! ## The invariant -/

def registered (device : Int) (s : AdapterState) : Nat :=
  s.ipContexts.countP fun ref => (s.memory ref).device = device

/-- Failed inits leave a node behind; shutdowns leave `terminate` at 1. -/
structure LifecycleInvariant (cfg : BuildConfig) (s : AdapterState)
    (log : LifecycleLog) : Prop where
  nodes : cfg.ocDynamicAllocation = true → ∀ device, registered device s =
    (callsOf log).countP (failedInit cfg device) + (live device log).toNat
  slots : cfg.ocDynamicAllocation = false → ∀ device,
    (s.memory (.slot device)).terminate = 1 ↔
      ∃ call ∈ callsOf log, isShutdown device call = true

theorem callsOf_concat (log : LifecycleLog) (entry : LifecycleCall × Int) :
    callsOf (log ++ [entry]) = callsOf log ++ [entry.1] :=
  List.map_append

theorem live_concat (device : Int) (log : LifecycleLog)
    (entry : LifecycleCall × Int) : live device (log ++ [entry]) =
      (livens device entry).getD (live device log) := by
  rw [live, lastWrite_concat, live]
  cases livens device entry <;> rfl

theorem find?_eq_none_iff_registered (device : Int) (s : AdapterState) :
    (s.ipContexts.find? fun ref => (s.memory ref).device = device) = none ↔
      registered device s = 0 := by
  rw [registered, List.countP_eq_zero, List.find?_eq_none]

section Dynamic

variable {cfg : BuildConfig} {env : InitEnv} {device result : Int}
  {s t : AdapterState} {log : LifecycleLog}

theorem init_dynamic (hdynamic : cfg.ocDynamicAllocation = true)
    (h : ocConnectivityInit cfg env device s = some (t, result)) :
    result = (if env.succeeds cfg then 0 else -1) ∧
      ∃ address dev, env.calloc = some address ∧
      t.ipContexts = s.ipContexts ++ [.node address] ∧
      t.memory = Function.update s.memory (.node address) dev ∧
      dev.device = device ∧ dev.terminate = 0 := by
  obtain ⟨hresult, ref, dev, href, hlist, hmemory, hdevice, hterminate⟩ :=
    ocConnectivityInit_cases h
  simp only [newContext, hdynamic, if_true, Option.map_eq_some_iff] at href
  obtain ⟨address, hcalloc, rfl⟩ := href
  simp only [AdapterState.register, hdynamic, if_true]
    at hlist hmemory hterminate
  rw [Function.update_idem] at hmemory
  rw [Function.update_self] at hterminate
  exact ⟨hresult, address, dev, hcalloc, hlist, hmemory, hdevice, hterminate⟩

theorem init_static (hstatic : cfg.ocDynamicAllocation = false)
    (h : ocConnectivityInit cfg env device s = some (t, result)) :
    ∃ dev, t.memory = Function.update s.memory (.slot device) dev ∧
      dev.device = device ∧
      dev.terminate = (s.memory (.slot device)).terminate := by
  obtain ⟨-, ref, dev, href, -, hmemory, hdevice, hterminate⟩ :=
    ocConnectivityInit_cases h
  simp only [newContext, hstatic, Bool.false_eq_true, if_false,
    Option.some.injEq] at href
  subst href
  simp only [AdapterState.register, hstatic, Bool.false_eq_true, if_false]
    at hmemory hterminate
  exact ⟨dev, hmemory, hdevice, hterminate⟩

theorem device_update {ref : ContextRef} {dev : IpContext} (other : Int)
    (hfresh : ref ∉ s.ipContexts) : ∀ old ∈ s.ipContexts,
      decide ((Function.update s.memory ref dev old).device = other) =
        decide ((s.memory old).device = other) := by
  intro old hold
  have hne : old ≠ ref := fun h => hfresh (h ▸ hold)
  rw [Function.update_of_ne hne]

theorem registered_init {ref : ContextRef} {dev : IpContext} (other : Int)
    (hfresh : ref ∉ s.ipContexts)
    (hlist : t.ipContexts = s.ipContexts ++ [ref])
    (hmemory : t.memory = Function.update s.memory ref dev) :
    registered other t =
      registered other s + if dev.device = other then 1 else 0 := by
  rw [registered, hlist, hmemory, List.countP_append, registered]
  congr 1
  · apply List.countP_congr
    intro old hold
    rw [device_update other hfresh old hold]
  · simp [List.countP_cons]

theorem init_nodes (hdynamic : cfg.ocDynamicAllocation = true)
    (hs : LifecycleInvariant cfg s log)
    (hpermitted : Permitted (s, log) (.init device env))
    (h : ocConnectivityInit cfg env device s = some (t, result))
    (other : Int) :
    registered other t =
      (callsOf (log ++ [(.init device env, result)])).countP
          (failedInit cfg other) +
        (live other (log ++ [(.init device env, result)])).toNat := by
  obtain ⟨hdead, hfresh⟩ := hpermitted
  obtain ⟨hresult, address, dev, hcalloc, hlist, hmemory, hdevice, -⟩ :=
    init_dynamic hdynamic h
  have hnodes := hs.nodes hdynamic other
  rw [registered_init other (hfresh address hcalloc) hlist hmemory, hdevice,
    hnodes, live_concat, callsOf_concat, List.countP_append,
    List.countP_singleton]
  by_cases hother : device = other
  · subst hother
    dsimp only at hdead
    cases hsucceeds : env.succeeds cfg with
    | true => simp [failedInit, livens, hdead, hresult, hsucceeds]
    | false => simp [failedInit, livens, hdead, hresult, hsucceeds]
  · simp [failedInit, livens, hother]

/-- A new node is found where no older one is. -/
theorem getIpContext_append (hdynamic : cfg.ocDynamicAllocation = true)
    {ref : ContextRef} {dev : IpContext} (hfresh : ref ∉ s.ipContexts)
    (hlist : t.ipContexts = s.ipContexts ++ [ref])
    (hmemory : t.memory = Function.update s.memory ref dev) (other : Int) :
    getIpContextForDevice cfg other t =
      (getIpContextForDevice cfg other s).or
        (if dev.device = other then some ref else none) := by
  simp only [getIpContextForDevice, hdynamic, if_true, hlist, hmemory]
  rw [List.find?_append]
  congr 1
  · exact List.find?_congr (device_update other hfresh)
  · by_cases hother : dev.device = other <;> simp [hother]

theorem search_init (hdynamic : cfg.ocDynamicAllocation = true)
    {ref : ContextRef} {dev : IpContext} (hfresh : ref ∉ s.ipContexts)
    (hlist : t.ipContexts = s.ipContexts ++ [ref])
    (hmemory : t.memory = Function.update s.memory ref dev)
    (hdevice : dev.device = device) :
    getIpContextForDevice cfg device t = some ref ↔
      registered device s = 0 := by
  rw [getIpContext_append hdynamic hfresh hlist hmemory, if_pos hdevice,
    ← find?_eq_none_iff_registered]
  simp only [getIpContextForDevice, hdynamic, if_true]
  cases hfind : s.ipContexts.find?
      fun old => (s.memory old).device = device with
  | none => simp
  | some old =>
      -- An older node of the device stands before the new one.
      have hmem := List.mem_of_find?_eq_some hfind
      have hne : old ≠ ref := fun h => hfresh (h ▸ hmem)
      simp [hne]

theorem serves_dynamic (hdynamic : cfg.ocDynamicAllocation = true)
    (hs : LifecycleInvariant cfg s log)
    (hpermitted : Permitted (s, log) (.init device env))
    (h : ocConnectivityInit cfg env device s = some (t, 0)) :
    ServesInit cfg device env t ↔ Unspoilt cfg device (callsOf log) := by
  obtain ⟨hdead, hfresh⟩ := hpermitted
  obtain ⟨-, address, dev, hcalloc, hlist, hmemory, hdevice, hterminate⟩ :=
    init_dynamic hdynamic h
  have hsearch := search_init hdynamic (hfresh address hcalloc) hlist hmemory
    hdevice
  have hserves : ServesInit cfg device env t ↔
      getIpContextForDevice cfg device t = some (.node address) := by
    simp [ServesInit, newContext, hdynamic, hcalloc, hmemory, hdevice,
      hterminate]
  have hunspoilt : Unspoilt cfg device (callsOf log) ↔
      registered device s = 0 := by
    rw [hs.nodes hdynamic device]
    dsimp only at hdead
    simp [Unspoilt, hdynamic, hdead, List.countP_eq_zero]
  rw [hserves, hsearch, hunspoilt]

theorem shutdown_dynamic (hdynamic : cfg.ocDynamicAllocation = true)
    (h : ocConnectivityShutdown cfg device s = some t) :
    ∃ ref ∈ s.ipContexts, (s.memory ref).device = device ∧
      t.ipContexts = s.ipContexts.erase ref ∧
      ∀ old, (t.memory old).device = (s.memory old).device := by
  obtain ⟨ref, hget, hmemory, hlist⟩ := ocConnectivityShutdown_cases h
  rw [hdynamic, if_pos rfl] at hlist
  simp only [getIpContextForDevice, hdynamic, if_true] at hget
  refine ⟨ref, List.mem_of_find?_eq_some hget,
    by simpa using List.find?_some hget, hlist, ?_⟩
  intro old
  rw [hmemory]
  by_cases hold : old = ref
  · rw [hold, Function.update_self]
  · rw [Function.update_of_ne hold]

theorem registered_shutdown (other : Int) {ref : ContextRef}
    (hmem : ref ∈ s.ipContexts)
    (hlist : t.ipContexts = s.ipContexts.erase ref)
    (hmemory : ∀ old, (t.memory old).device = (s.memory old).device) :
    registered other t +
        (if (s.memory ref).device = other then 1 else 0) =
      registered other s := by
  have hperm := (List.perm_cons_erase hmem).countP_eq
    fun old => decide ((s.memory old).device = other)
  rw [registered, registered, hlist, hperm, List.countP_cons]
  simp only [hmemory, decide_eq_true_eq]

theorem shutdown_nodes (hdynamic : cfg.ocDynamicAllocation = true)
    (hs : LifecycleInvariant cfg s log)
    (hpermitted : Permitted (s, log) (.shutdown device))
    (h : ocConnectivityShutdown cfg device s = some t) (other : Int) :
    registered other t =
      (callsOf (log ++ [(.shutdown device, 0)])).countP
          (failedInit cfg other) +
        (live other (log ++ [(.shutdown device, 0)])).toNat := by
  obtain ⟨ref, hmem, hdevice, hlist, hmemory⟩ := shutdown_dynamic hdynamic h
  have hcount := registered_shutdown other hmem hlist hmemory
  have hnodes := hs.nodes hdynamic other
  rw [hdevice] at hcount
  rw [live_concat, callsOf_concat, List.countP_append, List.countP_singleton]
  by_cases hother : device = other
  · subst hother
    have hlive : live device log = true := hpermitted
    rw [hlive] at hnodes
    simp [failedInit, livens] at hcount hnodes ⊢
    omega
  · simp [failedInit, livens, hother] at hcount ⊢
    omega

/-! ## The static slots -/

theorem init_slots (hstatic : cfg.ocDynamicAllocation = false)
    (hs : LifecycleInvariant cfg s log)
    (h : ocConnectivityInit cfg env device s = some (t, result))
    (other : Int) :
    (t.memory (.slot other)).terminate = 1 ↔
      ∃ call ∈ callsOf (log ++ [(.init device env, result)]),
        isShutdown other call = true := by
  obtain ⟨dev, hmemory, -, hterminate⟩ := init_static hstatic h
  have hkept : (t.memory (.slot other)).terminate =
      (s.memory (.slot other)).terminate := by
    rw [hmemory]
    by_cases hother : other = device
    · rw [hother, Function.update_self, hterminate]
    · rw [Function.update_of_ne (by simpa using hother)]
  rw [hkept, hs.slots hstatic other]
  simp [callsOf_concat, isShutdown]

theorem shutdown_slots (hstatic : cfg.ocDynamicAllocation = false)
    (hs : LifecycleInvariant cfg s log)
    (h : ocConnectivityShutdown cfg device s = some t) (other : Int) :
    (t.memory (.slot other)).terminate = 1 ↔
      ∃ call ∈ callsOf (log ++ [(.shutdown device, 0)]),
        isShutdown other call = true := by
  obtain ⟨ref, hget, hmemory, -⟩ := ocConnectivityShutdown_cases h
  simp only [getIpContextForDevice, hstatic, Bool.false_eq_true, if_false,
    Option.some.injEq] at hget
  subst hget
  rw [hmemory]
  by_cases hother : other = device
  · subst hother
    simp [callsOf_concat, isShutdown]
  · have hkept := hs.slots hstatic other
    rw [Function.update_of_ne (by simpa using hother), hkept]
    simp [callsOf_concat, isShutdown, Ne.symm hother]

theorem serves_static (hstatic : cfg.ocDynamicAllocation = false)
    (hs : LifecycleInvariant cfg s log)
    (h : ocConnectivityInit cfg env device s = some (t, 0)) :
    ServesInit cfg device env t ↔ Unspoilt cfg device (callsOf log) := by
  obtain ⟨dev, hmemory, hdevice, hterminate⟩ := init_static hstatic h
  have hnew : newContext cfg env device = some (.slot device) := by
    simp [newContext, hstatic]
  have hget : getIpContextForDevice cfg device t = some (.slot device) := by
    simp [getIpContextForDevice, hstatic]
  have hserves : ServesInit cfg device env t ↔
      (s.memory (.slot device)).terminate ≠ 1 := by
    simp [ServesInit, hnew, hget, hmemory, hdevice, hterminate]
  rw [hserves, Ne, hs.slots hstatic device]
  simp [Unspoilt, hstatic]

end Dynamic

/-! ## Runs -/

theorem boot_lifecycle (cfg : BuildConfig) :
    LifecycleInvariant cfg bootAdapter [] := by
  constructor
  · intro _ device
    rfl
  · intro _ device
    simp [bootAdapter, IpContext.zero, callsOf]

theorem lifecycle_next {cfg : BuildConfig}
    {s t : AdapterState × LifecycleLog} {call : LifecycleCall}
    (hs : LifecycleInvariant cfg s.1 s.2) (hpermitted : Permitted s call)
    (hnext : (lifecycleMachine cfg).next s call = some t) :
    LifecycleInvariant cfg t.1 t.2 := by
  obtain ⟨result, hperform, hlog⟩ := Machine.logging_next.mp hnext
  rw [hlog]
  cases call with
  | init device env =>
      exact ⟨fun hdynamic => init_nodes hdynamic hs hpermitted hperform,
        fun hstatic => init_slots hstatic hs hperform⟩
  | shutdown device =>
      obtain ⟨u, hshutdown, heq⟩ := Option.map_eq_some_iff.mp hperform
      cases heq
      exact ⟨fun hdynamic => shutdown_nodes hdynamic hs hpermitted hshutdown,
        fun hstatic => shutdown_slots hstatic hs hshutdown⟩

/--
At every init that returns 0, the context served is the new one exactly when
nothing before it spoilt the device.
-/
theorem serves_iff_unspoilt (cfg : BuildConfig) (calls : List LifecycleCall)
    (hpermitted : (lifecycleMachine cfg).Throughout Permitted (bootAdapter, [])
      calls) :
    (lifecycleMachine cfg).Throughout
      (AfterInit cfg fun device env t log =>
        (ServesInit cfg device env t ↔ Unspoilt cfg device (callsOf log)))
      (bootAdapter, []) calls := by
  apply hpermitted.mono (I := fun s => LifecycleInvariant cfg s.1 s.2)
  · intro s call t hs hcall hnext
    exact lifecycle_next hs hcall hnext
  · intro s call hs hcall
    cases call with
    | shutdown device => trivial
    | init device env =>
        rintro ⟨t, result⟩ hinit rfl
        cases hdynamic : cfg.ocDynamicAllocation with
        | true => exact serves_dynamic hdynamic hs hcall hinit
        | false => exact serves_static hdynamic hs hinit
  · exact boot_lifecycle cfg

def goodEnv (address : Nat) : InitEnv where
  calloc := some address
  socket _ := 3
  v6only := true
  bind _ := true
  getsockname _ := some .zero
  reuse _ := true
  mcastStep _ := true
  ip6Linklocal := some 0
  ipInfo := some 0
  pthreadCreate := some 1

/-- A device with a static slot is created, shut down and created again. -/
def recreated : List LifecycleCall :=
  [.init 0 (goodEnv 1), .shutdown 0, .init 0 (goodEnv 1)]

def retried : List LifecycleCall :=
  [.init 0 { goodEnv 1 with pthreadCreate := none }, .init 0 (goodEnv 2)]

theorem recreated_serves_iff :
    (lifecycleMachine ⟨false, false, false, false⟩).Throughout
      (AfterInit ⟨false, false, false, false⟩ fun device env t log =>
        (ServesInit ⟨false, false, false, false⟩ device env t ↔
          Unspoilt ⟨false, false, false, false⟩ device (callsOf log)))
      (bootAdapter, []) recreated :=
  serves_iff_unspoilt _ recreated (by decide +kernel)

def AlwaysServes (cfg : BuildConfig) : Prop :=
  ∀ calls,
    (lifecycleMachine cfg).Throughout Permitted (bootAdapter, []) calls →
    (lifecycleMachine cfg).Throughout
      (AfterInit cfg fun device env t _ => ServesInit cfg device env t)
      (bootAdapter, []) calls

theorem serves_fails :
    ¬ AlwaysServes ⟨false, false, false, false⟩ ∧
      ¬ AlwaysServes ⟨false, false, true, false⟩ := by
  constructor
  · intro h
    exact absurd (h recreated (by decide +kernel)) (by decide +kernel)
  · intro h
    exact absurd (h retried (by decide +kernel)) (by decide +kernel)

end EspIotivity.Adapter
