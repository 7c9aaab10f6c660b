import EspIotivity.Adapter.Storage
import EspIotivity.Foundation.Machine
import EspIotivity.Server.LightResource

/-!
# The light that the client observes

`discovery` looks for a light among the resource types it is called with.  It
keeps the URI, cut to fit `light_1`, and the endpoint list for the observation
and the requests that follow, or frees the list.
-/

namespace EspIotivity.Client

open EspIotivity.Adapter
open EspIotivity.Foundation
open EspIotivity.Server (RepValue)

def maxUriLength : Nat := 30

/-- The items take 24 bytes each, so that an `int` can count them. -/
structure OcStringArray where
  items : List CString
  length_lt : items.length < 2147483648

inductive DiscoveryFlag where
  | stopDiscovery
  | continueDiscovery
  deriving DecidableEq, Repr

/--
The calls into the stack.  A URI is what the callee reads from `light_1`, `none`
where that has no terminator; a server is `none` for the null pointer.
-/
inductive ClientCall (Endpoints : Type) where
  | doObserve (uri : Option (List UInt8)) (server : Option Endpoints)
  | setDelayedCallback (seconds : Nat)
  | freeServerEndpoints (endpoint : Endpoints)
  | initPost (uri : Option (List UInt8)) (server : Option Endpoints)
  | doPost (root : List (String × RepValue))
  | stopObserve (uri : Option (List UInt8)) (server : Option Endpoints)
  deriving DecidableEq, Repr

/-- Of an endpoint list only the pointer to it is kept. -/
structure ClientState (Endpoints : Type) where
  light1 : Buffer UInt8 maxUriLength
  lightServer : Option Endpoints
  lightState : Bool
  calls : List (ClientCall Endpoints)

section Callbacks

variable {Endpoints : Type}

def ClientState.boot : ClientState Endpoints :=
  ⟨.replicate maxUriLength 0, none, false, []⟩

def ClientState.call (s : ClientState Endpoints)
    (call : ClientCall Endpoints) : ClientState Endpoints :=
  { s with calls := s.calls ++ [call] }

def ClientState.uri (s : ClientState Endpoints) : Option (List UInt8) :=
  s.light1.upTo 0

/-! ## `discovery` -/

/-- Of strings without their terminator, which compares as 0. -/
def strncmp : List UInt8 → List UInt8 → Nat → Int
  | _, _, 0 => 0
  | [], [], _ + 1 => 0
  | [], b :: _, _ + 1 => -b.toNat
  | a :: _, [], _ + 1 => a.toNat
  | a :: s, b :: t, n + 1 =>
      if a = b then strncmp s t n else (a.toNat : Int) - b.toNat

def oicRLight : List UInt8 :=
  ['o', 'i', 'c', '.', 'r', '.', 'l', 'i', 'g', 'h', 't'].map
    fun c => UInt8.ofNat c.toNat

def isLight (t : CString) : Bool :=
  t.strlen = 11 && strncmp t.bytes oicRLight 11 = 0

def uriLen (uri : CString) : Int :=
  let len := toInt32 uri.strlen
  if (maxUriLength : Int) ≤ len then maxUriLength - 1 else len

/-- The body of the loop for a light; `none` when it stores outside. -/
def observeFound (uri : CString) (endpoint : Endpoints)
    (s : ClientState Endpoints) :
    Option (DiscoveryFlag × ClientState Endpoints) :=
  (strncpy s.light1 0 uri (toSizeT (uriLen uri))).bind fun light1 =>
    (light1.blit (uriLen uri) [0]).map fun light1 =>
      let s := { s with light1, lightServer := some endpoint }
      let s := s.call (.doObserve s.uri s.lightServer)
      (.stopDiscovery, s.call (.setDelayedCallback 10))

def discoveryLoop (uri : CString) (endpoint : Endpoints) :
    List CString → ClientState Endpoints →
      Option (DiscoveryFlag × ClientState Endpoints)
  | [], s => some (.continueDiscovery, s.call (.freeServerEndpoints endpoint))
  | t :: rest, s =>
      if isLight t then observeFound uri endpoint s
      else discoveryLoop uri endpoint rest s

/-- The items before the index that the loop compares as an `int`. -/
def OcStringArray.reached (types : OcStringArray) : List CString :=
  types.items.take (toInt32 types.items.length).toNat

def discovery (uri : CString) (types : OcStringArray) (endpoint : Endpoints)
    (s : ClientState Endpoints) :
    Option (DiscoveryFlag × ClientState Endpoints) :=
  discoveryLoop uri endpoint types.reached s

/-! ## The callbacks that follow -/

/-- Whether `ENABLE_LIGHT` is defined, and what `oc_init_post` returns. -/
structure PostEnv where
  enableLight : Bool
  initPost : Bool
  deriving DecidableEq, Repr

def observeLoop : List RepValue → Bool → Bool
  | [], state => state
  | .boolean value :: rest, _ => observeLoop rest value
  | _ :: rest, state => observeLoop rest state

def postedRoot (enableLight lightState : Bool) : List (String × RepValue) :=
  ("state", .boolean !lightState) ::
    if enableLight then
      [("r_value", .integer 1), ("g_value", .integer 2),
        ("b_value", .integer 3), ("w_value", .integer 4)]
    else []

/-- What `oc_do_post` returns is only printed. -/
def observeLight (env : PostEnv) (payload : List RepValue)
    (s : ClientState Endpoints) : ClientState Endpoints :=
  let s := { s with lightState := observeLoop payload s.lightState }
  let s := s.call (.initPost s.uri s.lightServer)
  if env.initPost then
    s.call (.doPost (postedRoot env.enableLight s.lightState))
  else s

def stopObserve (s : ClientState Endpoints) : ClientState Endpoints :=
  s.call (.stopObserve s.uri s.lightServer)

inductive Callback where
  | observeLight (env : PostEnv) (payload : List RepValue)
  | stopObserve

def Callback.perform (s : ClientState Endpoints) :
    Callback → ClientState Endpoints
  | .observeLight env payload => Client.observeLight env payload s
  | .stopObserve => Client.stopObserve s

end Callbacks

/-! ## What is found -/

theorem strncmp_eq_zero_iff {s t : List UInt8} (hs : 0 ∉ s) (ht : 0 ∉ t)
    (n : Nat) : strncmp s t n = 0 ↔ s.take n = t.take n := by
  induction n generalizing s t with
  | zero => simp [strncmp]
  | succ n ih =>
      cases s with
      | nil =>
          cases t with
          | nil => simp [strncmp]
          | cons b t =>
              have hb : b ≠ 0 := fun h => ht (by simp [h])
              simpa [strncmp, ← UInt8.toNat_inj] using hb
      | cons a s =>
          have ha : a ≠ 0 := fun h => hs (by simp [h])
          cases t with
          | nil => simpa [strncmp, ← UInt8.toNat_inj] using ha
          | cons b t =>
              rw [strncmp, List.take_succ_cons, List.take_succ_cons]
              split
              case isTrue hab =>
                rw [ih (fun h => hs (List.mem_cons_of_mem a h))
                  fun h => ht (List.mem_cons_of_mem b h)]
                simp [hab]
              case isFalse hab =>
                have hne := mt UInt8.toNat_inj.mp hab
                apply iff_of_false
                · omega
                · simp [hab]

theorem isLight_iff (t : CString) : isLight t = true ↔ t.bytes = oicRLight := by
  have hlight : oicRLight.length = 11 ∧ 0 ∉ oicRLight := by decide
  rw [isLight, Bool.and_eq_true, decide_eq_true_iff, decide_eq_true_iff,
    strncmp_eq_zero_iff t.noNul hlight.2]
  constructor
  · rintro ⟨hlen, htake⟩
    rwa [List.take_of_length_le hlen.le, List.take_of_length_le hlight.1.le]
      at htake
  · intro h
    rw [CString.strlen, h]
    exact ⟨hlight.1, rfl⟩

def OcStringArray.HasLight (types : OcStringArray) : Prop :=
  ∃ t ∈ types.items, t.bytes = oicRLight

theorem reached_eq (types : OcStringArray) : types.reached = types.items := by
  have hlength := types.length_lt
  rw [OcStringArray.reached, toInt32_of_lt (by omega) (by omega)]
  exact List.take_length

section Found

variable {Endpoints : Type} (uri : CString) (endpoint : Endpoints)

theorem discoveryLoop_eq (items : List CString) (s : ClientState Endpoints) :
    discoveryLoop uri endpoint items s =
      if items.any isLight then observeFound uri endpoint s
      else
        some (.continueDiscovery, s.call (.freeServerEndpoints endpoint)) := by
  induction items with
  | nil => rfl
  | cons t rest ih =>
      rw [discoveryLoop, ih, List.any_cons]
      cases isLight t <;> rfl

theorem any_isLight_iff (types : OcStringArray) :
    types.reached.any isLight = true ↔ types.HasLight := by
  rw [reached_eq, List.any_eq_true, OcStringArray.HasLight]
  simp only [isLight_iff]

/-- What fits `light_1` with its terminator. -/
def keptUri (uri : CString) : List UInt8 :=
  uri.bytes.take (maxUriLength - 1)

theorem keptUri_length : (keptUri uri).length < maxUriLength := by
  rw [keptUri, List.length_take, maxUriLength]
  omega

theorem keptUri_eq_iff :
    keptUri uri = uri.bytes ↔ uri.strlen < maxUriLength := by
  rw [keptUri, List.take_eq_self_iff, CString.strlen, maxUriLength]
  omega

theorem uriLen_eq (hlength : uri.strlen < 2147483648) :
    uriLen uri = (keptUri uri).length := by
  rw [uriLen, toInt32_of_lt (by omega) (by omega), keptUri, List.length_take,
    ← CString.strlen]
  push_cast [maxUriLength]
  split_ifs <;> omega

theorem strncpy_kept (light1 : Buffer UInt8 maxUriLength) :
    strncpy light1 0 uri (keptUri uri).length =
      light1.blit 0 (keptUri uri) := by
  have hprefix : keptUri uri <+: uri.bytes := List.take_prefix _ _
  have hpad : (keptUri uri).length - uri.strlen = 0 :=
    Nat.sub_eq_zero_of_le hprefix.length_le
  rw [strncpy, hpad, ← List.prefix_iff_eq_take.mp hprefix]
  simp

theorem observeFound_eq (s : ClientState Endpoints)
    (hlength : uri.strlen < 2147483648) :
    ∃ light1, light1.upTo 0 = some (keptUri uri) ∧
      observeFound uri endpoint s = some (.stopDiscovery,
        { s with
          light1 := light1
          lightServer := some endpoint
          calls := s.calls ++
            [.doObserve (some (keptUri uri)) (some endpoint),
              .setDelayedCallback 10] }) := by
  have hlen := uriLen_eq uri hlength
  have hroom := keptUri_length uri
  have hcount : toSizeT (uriLen uri) = (keptUri uri).length := by
    rw [hlen, toSizeT_of_lt (by omega) (by rw [maxUriLength] at hroom; omega)]
    rfl
  obtain ⟨first, hfirst⟩ := s.light1.blit_some 0 (keptUri uri) le_rfl (by omega)
  obtain ⟨light1, hlast⟩ := first.blit_some (keptUri uri).length [0]
    (by omega) (by simp only [List.length_singleton]; omega)
  have hterminated : light1.upTo 0 = some (keptUri uri) := by
    have hbytes : first.cells.take (keptUri uri).length = keptUri uri := by
      simpa using Buffer.take_blit hfirst
    have hnul := Buffer.take_blit hlast
    rw [Int.toNat_natCast, hbytes] at hnul
    apply Buffer.upTo_of_take hnul
    exact fun h => uri.noNul (List.mem_of_mem_take h)
  refine ⟨light1, hterminated, ?_⟩
  rw [observeFound, hcount, strncpy_kept, hfirst, Option.bind_some, hlen, hlast]
  simp [ClientState.call, ClientState.uri, hterminated]

end Found

/-! ## After the discovery -/

section Later

variable {Endpoints : Type} {uri : List UInt8} {endpoint : Endpoints}

/-- Nothing but this URI at this server is used, and nothing is freed. -/
def ClientCall.Uses (uri : List UInt8) (endpoint : Endpoints) :
    ClientCall Endpoints → Prop
  | .doObserve u server | .initPost u server | .stopObserve u server =>
      u = some uri ∧ server = some endpoint
  | .setDelayedCallback _ | .doPost _ => True
  | .freeServerEndpoints _ => False

/-- From `s` on, the observed light has been used and kept. -/
structure Keeps (uri : List UInt8) (endpoint : Endpoints)
    (s t : ClientState Endpoints) : Prop where
  light1 : t.light1 = s.light1
  lightServer : t.lightServer = some endpoint
  calls : ∃ later, t.calls = s.calls ++ later ∧
    ∀ call ∈ later, call.Uses uri endpoint

theorem Keeps.refl {s : ClientState Endpoints}
    (hserver : s.lightServer = some endpoint) : Keeps uri endpoint s s :=
  ⟨rfl, hserver, [], by simp, by simp⟩

theorem Keeps.call {s t : ClientState Endpoints} (h : Keeps uri endpoint s t)
    {call : ClientCall Endpoints} (hcall : call.Uses uri endpoint) :
    Keeps uri endpoint s (t.call call) := by
  obtain ⟨hlight, hserver, later, hcalls, hlater⟩ := h
  refine ⟨hlight, hserver, later ++ [call], ?_, ?_⟩
  · simp [ClientState.call, hcalls]
  · simpa [or_imp, forall_and, hcall] using hlater

theorem Keeps.perform {s t : ClientState Endpoints} (h : Keeps uri endpoint s t)
    (huri : s.uri = some uri) (callback : Callback) :
    Keeps uri endpoint s (callback.perform t) := by
  have hused : t.uri = some uri ∧ t.lightServer = some endpoint := by
    rw [← huri, ClientState.uri, ClientState.uri, h.light1]
    exact ⟨rfl, h.lightServer⟩
  cases callback with
  | stopObserve => exact h.call hused
  | observeLight env payload =>
      have hstate : Keeps uri endpoint s
          { t with lightState := observeLoop payload t.lightState } :=
        ⟨h.light1, h.lightServer, h.calls⟩
      have hinit :
          (ClientCall.initPost t.uri t.lightServer).Uses uri endpoint := hused
      have hpost := hstate.call hinit
      rw [Callback.perform, observeLight]
      split
      · exact hpost.call trivial
      · exact hpost

theorem keeps_callbacks {s : ClientState Endpoints} (huri : s.uri = some uri)
    (callbacks : List Callback) {t : ClientState Endpoints}
    (h : Keeps uri endpoint s t) :
    Keeps uri endpoint s (callbacks.foldl Callback.perform t) := by
  induction callbacks generalizing t with
  | nil => exact h
  | cons callback callbacks ih => exact ih (h.perform huri callback)

end Later

/-! ## The whole of a discovery -/

/--
For a light, one observation of `observed` at `endpoint`, which every callback
after it goes on to use; otherwise the list is freed and nothing else is done.
-/
structure Discovered {Endpoints : Type} (observed : List UInt8)
    (types : OcStringArray) (endpoint : Endpoints) (s : ClientState Endpoints)
    (flag : DiscoveryFlag) (t : ClientState Endpoints) : Prop where
  stops : flag = .stopDiscovery ↔ types.HasLight
  observes : flag = .stopDiscovery → t.uri = some observed ∧
    t.lightServer = some endpoint ∧
    t.calls = s.calls ++ [.doObserve (some observed) (some endpoint),
      .setDelayedCallback 10]
  keeps : flag = .stopDiscovery → ∀ callbacks : List Callback,
    Keeps observed endpoint t (callbacks.foldl Callback.perform t)
  releases : flag = .continueDiscovery →
    t = s.call (.freeServerEndpoints endpoint)

/--
A light is observed at what `light_1` can hold of its URI, which is all of it
exactly if that is below 30 bytes.
-/
theorem discovery_discovers {Endpoints : Type} (uri : CString)
    (types : OcStringArray) (endpoint : Endpoints) (s : ClientState Endpoints)
    (hlength : types.HasLight → uri.strlen < 2147483648) :
    ∃ flag t, discovery uri types endpoint s = some (flag, t) ∧
      Discovered (keptUri uri) types endpoint s flag t ∧
      (keptUri uri = uri.bytes ↔ uri.strlen < maxUriLength) := by
  rw [discovery, discoveryLoop_eq]
  by_cases hlight : types.HasLight
  · rw [if_pos ((any_isLight_iff types).mpr hlight)]
    obtain ⟨light1, huri, hfound⟩ :=
      observeFound_eq uri endpoint s (hlength hlight)
    refine ⟨.stopDiscovery, _, hfound, ?_, keptUri_eq_iff uri⟩
    constructor
    case stops => exact iff_of_true rfl hlight
    case observes => exact fun _ => ⟨huri, rfl, rfl⟩
    case keeps =>
      intro _ callbacks
      refine keeps_callbacks ?_ callbacks (Keeps.refl rfl)
      exact huri
    case releases => exact fun h => nomatch h
  · rw [if_neg (mt (any_isLight_iff types).mp hlight)]
    refine ⟨.continueDiscovery, _, rfl, ?_, keptUri_eq_iff uri⟩
    constructor
    case stops => exact iff_of_false (fun h => nomatch h) hlight
    case observes => exact fun h => nomatch h
    case keeps => exact fun h => nomatch h
    case releases => exact fun _ => rfl

def lightTypes : OcStringArray :=
  ⟨[⟨oicRLight, by decide, by decide⟩], by decide⟩

theorem shortUri_discovers : ∃ flag t,
    discovery (letters 6 (by decide)) lightTypes () .boot = some (flag, t) ∧
      Discovered (keptUri (letters 6 (by decide))) lightTypes () .boot flag t ∧
      (keptUri (letters 6 (by decide)) = (letters 6 (by decide)).bytes ↔
        (letters 6 (by decide)).strlen < maxUriLength) :=
  discovery_discovers _ _ _ _ fun _ => by decide

theorem longUri_observed : ¬ ∀ (uri : CString) (types : OcStringArray)
    (endpoint : Unit) (s : ClientState Unit),
    ∃ flag t, discovery uri types endpoint s = some (flag, t) ∧
      Discovered uri.bytes types endpoint s flag t := by
  intro h
  obtain ⟨flag, t, hcall, hfound⟩ :=
    h (letters 30 (by decide)) lightTypes () .boot
  have hlight : lightTypes.HasLight := ⟨_, List.mem_singleton_self _, rfl⟩
  obtain ⟨-, -, hcalls⟩ := hfound.observes (hfound.stops.mpr hlight)
  have hcut : (discovery (letters 30 (by decide)) lightTypes () .boot).map
      (fun result => result.2.calls) =
        some [.doObserve (some (List.replicate 29 97)) (some ()),
          .setDelayedCallback 10] := by
    decide +kernel
  rw [hcall, Option.map_some, hcalls] at hcut
  exact absurd hcut (by decide)

end EspIotivity.Client
