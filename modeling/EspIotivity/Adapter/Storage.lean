import EspIotivity.Foundation.Buffer
import EspIotivity.Foundation.LastWrite
import EspIotivity.Foundation.Narrowing

/-!
# The credential store

`oc_storage_config`, `oc_storage_read` and `oc_storage_write` share the static
`store_path`, `store_path_len` and `path_set`.  An operation is `none` when it
stores outside `store_path` or passes an unterminated `store_path` to `fopen`.
-/

namespace EspIotivity.Adapter

open EspIotivity.Foundation

def storePathSize : Nat := 64

def slash : UInt8 := 47

/-- The bytes before the terminator; `strlen` returns a 32-bit `size_t`. -/
structure CString where
  bytes : List UInt8
  noNul : 0 ∉ bytes
  length_lt : bytes.length < 4294967296
  deriving DecidableEq, Repr

def CString.strlen (store : CString) : Nat := store.bytes.length

inductive Errno where
  | noent
  | inval
  deriving DecidableEq, Repr

abbrev Path := List UInt8

structure StorageState where
  storePath : Buffer UInt8 storePathSize
  storePathLen : Int
  pathSet : Bool
  files : Path → Option (List UInt8)

/-- Whether `fopen` succeeds and the most bytes `fread` or `fwrite` moves. -/
structure FileIo where
  opens : Bool
  moved : Nat
  deriving DecidableEq, Repr

/-- The value returned, the path given to `fopen` and the bytes read. -/
structure StorageResult where
  value : Except Errno Int
  opened : Option Path
  data : List UInt8
  deriving DecidableEq

def refused : StorageResult := ⟨.error .noent, none, []⟩

/-! ## The operations -/

def strncpy {size : Nat} (buf : Buffer UInt8 size) (index : Int)
    (src : CString) (count : Nat) : Option (Buffer UInt8 size) :=
  buf.blit index
    (src.bytes.take count ++ List.replicate (count - src.strlen) 0)

def ocStorageConfig (store : CString) (s : StorageState) :
    Option (StorageState × StorageResult) :=
  let s := { s with storePathLen := toInt32 store.strlen }
  if (storePathSize : Int) ≤ s.storePathLen then
    some (s, refused)
  else
    (strncpy s.storePath 0 store (toSizeT s.storePathLen)).map fun path =>
      ({ s with storePath := path, pathSet := true }, ⟨.ok 0, none, []⟩)

def buildPath (store : CString) (s : StorageState) :
    Option (Buffer UInt8 storePathSize) :=
  (s.storePath.blit s.storePathLen [slash]).bind fun path =>
    (strncpy path (s.storePathLen + 1) store store.strlen).bind fun path =>
      path.blit (toSizeT (1 + s.storePathLen + store.strlen)) [0]

def openPath (store : CString) (s : StorageState) :
    Option (StorageState × Path) :=
  (buildPath store s).bind fun storePath =>
    (storePath.upTo 0).map fun path => ({ s with storePath }, path)

def readFile (size : Nat) (io : FileIo) (s : StorageState) (path : Path) :
    StorageState × StorageResult :=
  match if io.opens then s.files path else none with
  | none => (s, ⟨.error .inval, some path, []⟩)
  | some content =>
      let count := min (min size io.moved) content.length
      (s, ⟨.ok (toInt32 count), some path, content.take count⟩)

def writeFile (buf : List UInt8) (io : FileIo) (s : StorageState)
    (path : Path) : StorageState × StorageResult :=
  if io.opens then
    let count := min buf.length io.moved
    ({ s with files := Function.update s.files path (some (buf.take count)) },
      ⟨.ok (toInt32 count), some path, []⟩)
  else (s, ⟨.error .inval, some path, []⟩)

def readAdmits (store : CString) (s : StorageState) : Bool :=
  s.pathSet && toSizeT (1 + store.strlen + s.storePathLen) < storePathSize

/-- As `readAdmits`, without the `1 +`. -/
def writeAdmits (store : CString) (s : StorageState) : Bool :=
  s.pathSet && toSizeT (store.strlen + s.storePathLen) < storePathSize

/-- The body that `oc_storage_read` and `oc_storage_write` have in common. -/
def accessFile (admits : CString → StorageState → Bool)
    (transfer : StorageState → Path → StorageState × StorageResult)
    (store : CString) (s : StorageState) :
    Option (StorageState × StorageResult) :=
  if admits store s then
    (openPath store s).map fun (t, path) => transfer t path
  else some (s, refused)

def ocStorageRead (store : CString) (size : Nat) (io : FileIo) :
    StorageState → Option (StorageState × StorageResult) :=
  accessFile readAdmits (readFile size io) store

def ocStorageWrite (store : CString) (buf : List UInt8) (io : FileIo) :
    StorageState → Option (StorageState × StorageResult) :=
  accessFile writeAdmits (writeFile buf io) store

/-! ## Runs of calls -/

inductive StorageCall where
  | config (store : CString)
  | read (store : CString) (size : Nat) (io : FileIo)
  | write (store : CString) (buf : List UInt8) (io : FileIo)
  deriving DecidableEq, Repr

def StorageCall.store : StorageCall → CString
  | .config store => store
  | .read store _ _ => store
  | .write store _ _ => store

def StorageCall.perform (s : StorageState) :
    StorageCall → Option (StorageState × StorageResult)
  | .config store => ocStorageConfig store s
  | .read store size io => ocStorageRead store size io s
  | .write store buf io => ocStorageWrite store buf io s

theorem perform_config (s : StorageState) (store : CString) :
    StorageCall.perform s (.config store) = ocStorageConfig store s := rfl

def bootStorage (files : Path → Option (List UInt8)) : StorageState :=
  ⟨Buffer.replicate storePathSize 0, 0, false, files⟩

def storageMachine (files : Path → Option (List UInt8)) :
    Machine (StorageState × List (StorageCall × StorageResult)) StorageCall :=
  Machine.logging (bootStorage files) StorageCall.perform

def configures : StorageCall × StorageResult → Option CString
  | (.config store, result) => if result.value = .ok 0 then some store else none
  | _ => none

def lastDirectory (log : List (StorageCall × StorageResult)) : Option CString :=
  lastWrite configures log

def pathOf (directory store : CString) : Path :=
  directory.bytes ++ slash :: store.bytes

/--
The call stores inside `store_path` only, and opens no file but the one of its
name in the directory configured last.
-/
def PathSafe (s : StorageState × List (StorageCall × StorageResult))
    (call : StorageCall) : Prop :=
  ∃ t result, call.perform s.1 = some (t, result) ∧
    ∀ path ∈ result.opened, ∃ directory ∈ lastDirectory s.2,
      path = pathOf directory call.store

/-! ## Building the path -/

theorem strncpy_strlen {size : Nat} (buf : Buffer UInt8 size) (index : Int)
    (src : CString) : strncpy buf index src src.strlen =
      buf.blit index src.bytes := by
  simp [strncpy, CString.strlen]

theorem buildPath_some {store : CString} {s : StorageState}
    (hlen : 0 ≤ s.storePathLen)
    (hroom : s.storePathLen + store.strlen + 1 < storePathSize) :
    ∃ storePath, buildPath store s = some storePath ∧
      storePath.cells.take (s.storePathLen.toNat + store.strlen + 2) =
        s.storePath.cells.take s.storePathLen.toNat ++
          slash :: store.bytes ++ [0] := by
  have hsize : (storePathSize : Int) = 64 := rfl
  have hend : ((toSizeT (1 + s.storePathLen + store.strlen) : Nat) : Int) =
      1 + s.storePathLen + store.strlen := by
    rw [toSizeT_of_lt (by omega) (by omega)]
    omega
  obtain ⟨first, hfirst⟩ := s.storePath.blit_some s.storePathLen [slash] hlen
    (by simp only [List.length_singleton]; omega)
  obtain ⟨second, hsecond⟩ := first.blit_some (s.storePathLen + 1) store.bytes
    (by omega) (by rw [CString.strlen] at hroom; omega)
  obtain ⟨third, hthird⟩ := second.blit_some
    (toSizeT (1 + s.storePathLen + store.strlen) : Nat) [0]
    (by omega) (by simp only [List.length_singleton]; omega)
  refine ⟨third, ?_, ?_⟩
  · simp [buildPath, hfirst, strncpy_strlen, hsecond, hthird]
  · have hslash := Buffer.take_blit hfirst
    have hname := Buffer.take_blit hsecond
    have hnul := Buffer.take_blit hthird
    have hstart : (s.storePathLen + 1).toNat = s.storePathLen.toNat + 1 := by
      omega
    have hstop : (((toSizeT (1 + s.storePathLen + store.strlen) : Nat) : Int)
        ).toNat = s.storePathLen.toNat + 1 + store.strlen := by
      omega
    rw [hstart, ← CString.strlen] at hname
    rw [List.length_singleton] at hslash
    rw [hstop, hname, hslash, List.length_singleton] at hnul
    have htotal : s.storePathLen.toNat + store.strlen + 2 =
        s.storePathLen.toNat + 1 + store.strlen + 1 := by
      omega
    rw [htotal, hnul]
    simp

theorem buildPath_none {store : CString} {s : StorageState}
    (hroom : storePathSize ≤ s.storePathLen + store.strlen + 1) :
    buildPath store s = none := by
  have hsize : (storePathSize : Int) = 64 := rfl
  unfold buildPath
  cases hfirst : s.storePath.blit s.storePathLen [slash] with
  | none => rfl
  | some first =>
      rw [Option.bind_some, strncpy_strlen]
      by_cases hname : (storePathSize : Int) <
          s.storePathLen + 1 + store.bytes.length
      · rw [Buffer.blit_none first hname]
        rfl
      · -- Only the terminator is left out, at the index just past the end.
        have hindex : ((toSizeT (1 + s.storePathLen + store.strlen) : Nat) :
            Int) = storePathSize := by
          rw [CString.strlen] at hroom ⊢
          rw [toSizeT_of_lt (by omega) (by omega)]
          omega
        cases hsecond : first.blit (s.storePathLen + 1) store.bytes with
        | none => rfl
        | some second =>
            apply Buffer.blit_none
            rw [hindex]
            simp

/-- While a path can be built, the buffer starts with this directory. -/
structure Represents (s : StorageState) (directory : CString) : Prop where
  length : s.storePathLen = directory.strlen
  prefixed : s.storePath.cells.take directory.strlen = directory.bytes

theorem openPath_some {store directory : CString} {s : StorageState}
    (hs : Represents s directory)
    (hroom : s.storePathLen + store.strlen + 1 < storePathSize) :
    ∃ storePath,
      openPath store s = some ({ s with storePath }, pathOf directory store) ∧
        Represents { s with storePath } directory := by
  have hlen : 0 ≤ s.storePathLen := by
    rw [hs.length]
    exact Int.natCast_nonneg _
  obtain ⟨storePath, hbuild, htake⟩ := buildPath_some hlen hroom
  rw [hs.length, Int.toNat_natCast, hs.prefixed] at htake
  refine ⟨storePath, ?_, hs.length, ?_⟩
  · have hclean : 0 ∉ pathOf directory store := by
      simp only [pathOf, List.mem_append, List.mem_cons, not_or]
      exact ⟨directory.noNul, by decide, store.noNul⟩
    rw [openPath, hbuild, Option.bind_some, Buffer.upTo_of_take htake hclean]
    rfl
  · have hle : directory.strlen ≤ directory.strlen + store.strlen + 2 := by
      omega
    have hprefix := Buffer.take_of_take htake hle
    rw [List.append_assoc, CString.strlen, List.take_left] at hprefix
    exact hprefix

theorem openPath_none {store : CString} {s : StorageState}
    (hroom : storePathSize ≤ s.storePathLen + store.strlen + 1) :
    openPath store s = none := by
  rw [openPath, buildPath_none hroom]
  rfl

/-! ## What each operation does -/

theorem config_huge {store : CString} (s : StorageState)
    (hstore : 2147483648 ≤ store.strlen) : ocStorageConfig store s = none := by
  have hlt : store.strlen < 4294967296 := store.length_lt
  have hnegative : ¬ 0 ≤ toInt32 store.strlen := by
    rw [toInt32_nonneg_iff hlt]
    exact hstore.not_gt
  have hshort : ¬ (storePathSize : Int) ≤ toInt32 store.strlen := by
    intro h
    exact hnegative ((Int.natCast_nonneg _).trans h)
  unfold ocStorageConfig
  simp only [hshort, if_false]
  rw [toSizeT_toInt32 hlt, strncpy_strlen, Buffer.blit_none]
  · rfl
  · rw [CString.strlen] at hstore
    have hsize : (storePathSize : Int) = 64 := rfl
    omega

theorem config_long {store : CString} (s : StorageState)
    (hlong : storePathSize ≤ store.strlen) (hstore : store.strlen < 2147483648) :
    ocStorageConfig store s =
      some ({ s with storePathLen := store.strlen }, refused) := by
  have hlen : toInt32 store.strlen = store.strlen :=
    toInt32_of_lt (Int.natCast_nonneg _) (by omega)
  simp [ocStorageConfig, hlen, hlong]

theorem config_short {store : CString} (s : StorageState)
    (hshort : store.strlen < storePathSize) :
    ∃ storePath, ocStorageConfig store s =
        some ({ s with storePath, storePathLen := store.strlen,
                       pathSet := true }, ⟨.ok 0, none, []⟩) ∧
      storePath.cells.take store.strlen = store.bytes := by
  have hsize : storePathSize = 64 := rfl
  have hlen : toInt32 store.strlen = store.strlen :=
    toInt32_of_lt (Int.natCast_nonneg _) (by omega)
  obtain ⟨storePath, hcopy⟩ := s.storePath.blit_some 0 store.bytes le_rfl
    (by rw [CString.strlen] at hshort; omega)
  refine ⟨storePath, ?_, ?_⟩
  · have hguard : ¬ (storePathSize : Int) ≤ store.strlen := by omega
    have hcount : toSizeT store.strlen = store.strlen := by
      rw [toSizeT_of_lt (Int.natCast_nonneg _) (by omega), Int.toNat_natCast]
    simp [ocStorageConfig, hlen, hguard, hcount, strncpy_strlen, hcopy]
  · have htake := Buffer.take_blit hcopy
    simpa [CString.strlen] using htake

structure Transfers
    (transfer : StorageState → Path → StorageState × StorageResult) :
    Prop where
  opened : ∀ s path, (transfer s path).2.opened = some path
  accepted : ∀ s path, (transfer s path).2.value ≠ .error .noent
  state : ∀ s path, ∃ files, (transfer s path).1 = { s with files }

theorem readFile_state (size : Nat) (io : FileIo) (s : StorageState)
    (path : Path) : (readFile size io s path).1 = s := by
  unfold readFile
  split <;> rfl

theorem readFile_transfers (size : Nat) (io : FileIo) :
    Transfers (readFile size io) := by
  constructor
  · intro s path
    unfold readFile
    split <;> rfl
  · intro s path
    unfold readFile
    split <;> simp
  · intro s path
    exact ⟨s.files, readFile_state size io s path⟩

theorem writeFile_transfers (buf : List UInt8) (io : FileIo) :
    Transfers (writeFile buf io) := by
  constructor
  · intro s path
    unfold writeFile
    split <;> rfl
  · intro s path
    unfold writeFile
    split <;> simp
  · intro s path
    unfold writeFile
    split
    · exact ⟨_, rfl⟩
    · exact ⟨s.files, rfl⟩

/-! ## The invariant of the static variables -/

/-- A failed `oc_storage_config` leaves a length no guard lets through. -/
structure StorageInvariant (s : StorageState)
    (log : List (StorageCall × StorageResult)) : Prop where
  len_nonneg : 0 ≤ s.storePathLen
  len_lt : s.storePathLen < 2147483648
  represents : s.pathSet = true → s.storePathLen < storePathSize →
    ∃ directory ∈ lastDirectory log, Represents s directory

theorem lastDirectory_concat (log : List (StorageCall × StorageResult))
    (entry : StorageCall × StorageResult) :
    lastDirectory (log ++ [entry]) =
      (configures entry).or (lastDirectory log) :=
  lastWrite_concat configures log entry

theorem boot_invariant (files : Path → Option (List UInt8)) :
    StorageInvariant (bootStorage files) [] :=
  ⟨le_rfl, by simp [bootStorage], fun h => by cases h⟩

theorem config_invariant {s t : StorageState} {store : CString}
    {log : List (StorageCall × StorageResult)} {result : StorageResult}
    (hcall : ocStorageConfig store s = some (t, result)) :
    StorageInvariant t (log ++ [(.config store, result)]) := by
  have hsize : storePathSize = 64 := rfl
  by_cases hhuge : 2147483648 ≤ store.strlen
  · rw [config_huge s hhuge] at hcall
    cases hcall
  · by_cases hlong : storePathSize ≤ store.strlen
    · rw [config_long s hlong (by omega)] at hcall
      cases hcall
      constructor
      · exact Int.natCast_nonneg _
      · dsimp only
        omega
      · intro _ hshort
        dsimp only at hshort
        omega
    · obtain ⟨storePath, hconfig, htake⟩ := config_short s (not_le.mp hlong)
      rw [hconfig] at hcall
      cases hcall
      constructor
      · exact Int.natCast_nonneg _
      · dsimp only
        omega
      · intro _ _
        refine ⟨store, ?_, rfl, htake⟩
        simp [lastDirectory_concat, configures]

section Access

variable {admits : CString → StorageState → Bool}
  {transfer : StorageState → Path → StorageState × StorageResult}
  {s : StorageState} {store : CString}
  {log : List (StorageCall × StorageResult)}

theorem accessFile_invariant {t : StorageState} {result : StorageResult}
    {call : StorageCall} (hadmits : admits store s = true → s.pathSet = true)
    (htransfer : Transfers transfer) (hcall : ∀ r, configures (call, r) = none)
    (hs : StorageInvariant s log)
    (haccess : accessFile admits transfer store s = some (t, result)) :
    StorageInvariant t (log ++ [(call, result)]) := by
  have hlog : lastDirectory (log ++ [(call, result)]) = lastDirectory log := by
    rw [lastDirectory_concat, hcall, Option.none_or]
  unfold accessFile at haccess
  split at haccess
  case isFalse =>
    cases haccess
    refine ⟨hs.len_nonneg, hs.len_lt, fun hset hlen => ?_⟩
    rw [hlog]
    exact hs.represents hset hlen
  case isTrue hadmitted =>
    by_cases hroom : s.storePathLen + store.strlen + 1 < storePathSize
    · have hlen : s.storePathLen < storePathSize := by omega
      obtain ⟨directory, hdirectory, hrep⟩ :=
        hs.represents (hadmits hadmitted) hlen
      obtain ⟨storePath, hopen, hrep'⟩ := openPath_some hrep hroom
      rw [hopen, Option.map_some, Option.some.injEq] at haccess
      obtain ⟨files, hstate⟩ := htransfer.state { s with storePath }
        (pathOf directory store)
      have ht : t = { s with storePath, files } :=
        (congrArg Prod.fst haccess).symm.trans hstate
      rw [ht]
      refine ⟨hs.len_nonneg, hs.len_lt, fun _ _ => ?_⟩
      rw [hlog]
      exact ⟨directory, hdirectory, hrep'.length, hrep'.prefixed⟩
    · rw [openPath_none (by omega)] at haccess
      cases haccess

theorem accessFile_safe_iff
    (hadmits : admits store s = true → s.pathSet = true)
    (htransfer : Transfers transfer) (hs : StorageInvariant s log) :
    (∃ t result, accessFile admits transfer store s = some (t, result) ∧
        ∀ path ∈ result.opened, ∃ directory ∈ lastDirectory log,
          path = pathOf directory store) ↔
      (admits store s = true →
        s.storePathLen + store.strlen + 1 < storePathSize) := by
  unfold accessFile
  by_cases hadmitted : admits store s = true
  · simp only [hadmitted, if_true, true_imp_iff]
    constructor
    · rintro ⟨t, result, haccess, -⟩
      by_contra hroom
      rw [openPath_none (not_lt.mp hroom)] at haccess
      cases haccess
    · intro hroom
      have hlen : s.storePathLen < storePathSize := by omega
      obtain ⟨directory, hdirectory, hrep⟩ :=
        hs.represents (hadmits hadmitted) hlen
      obtain ⟨storePath, hopen, -⟩ := openPath_some hrep hroom
      refine ⟨_, _, by rw [hopen]; rfl, ?_⟩
      intro path hpath
      rw [htransfer.opened] at hpath
      cases hpath
      exact ⟨directory, hdirectory, rfl⟩
  · simp only [hadmitted, Bool.false_eq_true, if_false, false_imp_iff, iff_true]
    exact ⟨s, refused, rfl, fun path hpath => by cases hpath⟩

end Access

/-! ## When the calls are safe -/

def Wraps (length : Int) : Prop :=
  4294967296 ≤ length ∧ length < 4294967296 + storePathSize

/--
A directory name fits an `int`, no sum of lengths wraps, and a write does not
name a file for which directory and name take 63 bytes together.
-/
def Fits (s : StorageState) : StorageCall → Prop
  | .config store => store.strlen < 2147483648
  | .read store _ _ =>
      s.pathSet = true → ¬ Wraps (1 + store.strlen + s.storePathLen)
  | .write store _ _ =>
      s.pathSet = true → store.strlen + s.storePathLen ≠ 63 ∧
        ¬ Wraps (store.strlen + s.storePathLen)

theorem sizeT_lt_iff {length : Int} (hlo : 0 ≤ length)
    (hhi : length < 6442450944) :
    toSizeT length < storePathSize ↔
      length < storePathSize ∨ Wraps length := by
  have hsize : storePathSize = 64 := rfl
  unfold toSizeT Wraps
  omega

theorem readAdmits_fits_iff {s : StorageState} {store : CString}
    {log : List (StorageCall × StorageResult)}
    (hs : StorageInvariant s log) :
    (readAdmits store s = true →
        s.storePathLen + store.strlen + 1 < storePathSize) ↔
      (s.pathSet = true → ¬ Wraps (1 + store.strlen + s.storePathLen)) := by
  have hlo := hs.len_nonneg
  have hhi := hs.len_lt
  have hstore : store.strlen < 4294967296 := store.length_lt
  have hsize : storePathSize = 64 := rfl
  rw [readAdmits, Bool.and_eq_true, decide_eq_true_eq, and_imp]
  refine imp_congr_right fun _ => ?_
  rw [sizeT_lt_iff (by omega) (by omega)]
  unfold Wraps
  omega

theorem writeAdmits_fits_iff {s : StorageState} {store : CString}
    {log : List (StorageCall × StorageResult)}
    (hs : StorageInvariant s log) :
    (writeAdmits store s = true →
        s.storePathLen + store.strlen + 1 < storePathSize) ↔
      (s.pathSet = true → store.strlen + s.storePathLen ≠ 63 ∧
        ¬ Wraps (store.strlen + s.storePathLen)) := by
  have hlo := hs.len_nonneg
  have hhi := hs.len_lt
  have hstore : store.strlen < 4294967296 := store.length_lt
  have hsize : storePathSize = 64 := rfl
  rw [writeAdmits, Bool.and_eq_true, decide_eq_true_eq, and_imp]
  refine imp_congr_right fun _ => ?_
  rw [sizeT_lt_iff (by omega) (by omega)]
  unfold Wraps
  omega

theorem readAdmits_pathSet {s : StorageState} {store : CString}
    (h : readAdmits store s = true) : s.pathSet = true :=
  (Bool.and_eq_true _ _ ▸ h : _ ∧ _).1

theorem writeAdmits_pathSet {s : StorageState} {store : CString}
    (h : writeAdmits store s = true) : s.pathSet = true :=
  (Bool.and_eq_true _ _ ▸ h : _ ∧ _).1

theorem config_safe_iff {s : StorageState} {store : CString}
    {Expected : Path → Prop} :
    (∃ t result, ocStorageConfig store s = some (t, result) ∧
        ∀ path ∈ result.opened, Expected path) ↔
      store.strlen < 2147483648 := by
  constructor
  · rintro ⟨t, result, hcall, -⟩
    by_contra hhuge
    rw [config_huge s (not_lt.mp hhuge)] at hcall
    cases hcall
  · intro hstore
    by_cases hlong : storePathSize ≤ store.strlen
    · refine ⟨_, _, config_long s hlong hstore, ?_⟩
      intro path hpath
      cases hpath
    · obtain ⟨storePath, hconfig, -⟩ := config_short s (not_le.mp hlong)
      refine ⟨_, _, hconfig, ?_⟩
      intro path hpath
      cases hpath

theorem storage_invariant_next {files : Path → Option (List UInt8)}
    {s t : StorageState × List (StorageCall × StorageResult)}
    {call : StorageCall} (hs : StorageInvariant s.1 s.2)
    (hnext : (storageMachine files).next s call = some t) :
    StorageInvariant t.1 t.2 := by
  obtain ⟨result, hperform, hlog⟩ := Machine.logging_next.mp hnext
  rw [hlog]
  cases call with
  | config store =>
      rw [perform_config] at hperform
      exact config_invariant hperform
  | read store size io =>
      exact accessFile_invariant readAdmits_pathSet
        (readFile_transfers size io) (fun _ => rfl) hs hperform
  | write store buf io =>
      exact accessFile_invariant writeAdmits_pathSet
        (writeFile_transfers buf io) (fun _ => rfl) hs hperform

theorem pathSafe_iff_fits
    {s : StorageState × List (StorageCall × StorageResult)}
    (hs : StorageInvariant s.1 s.2) (call : StorageCall) :
    PathSafe s call ↔ Fits s.1 call := by
  cases call with
  | config store =>
      rw [PathSafe, perform_config]
      exact config_safe_iff
  | read store size io =>
      exact (accessFile_safe_iff readAdmits_pathSet
        (readFile_transfers size io) hs).trans (readAdmits_fits_iff hs)
  | write store buf io =>
      exact (accessFile_safe_iff writeAdmits_pathSet
        (writeFile_transfers buf io) hs).trans (writeAdmits_fits_iff hs)

/-- A run is safe exactly while its calls fit. -/
theorem pathSafe_iff (files : Path → Option (List UInt8))
    (calls : List StorageCall) :
    (storageMachine files).Throughout PathSafe (bootStorage files, []) calls ↔
      (storageMachine files).Throughout (fun s call => Fits s.1 call)
        (bootStorage files, []) calls := by
  apply Machine.throughout_congr (I := fun s => StorageInvariant s.1 s.2)
  · intro s call t hs hnext
    exact storage_invariant_next hs hnext
  · intro s call hs
    exact pathSafe_iff_fits hs call
  · exact boot_invariant files

def letters (n : Nat) (hn : n < 4294967296) : CString :=
  ⟨List.replicate n 97, by simp [List.mem_replicate], by simpa using hn⟩

theorem pathSafe_fails :
    ¬ ∀ (files : Path → Option (List UInt8)) (calls : List StorageCall),
      (storageMachine files).Throughout PathSafe (bootStorage files, [])
        calls := by
  intro h
  let config := StorageCall.config (letters 60 (by omega))
  let write := StorageCall.write (letters 3 (by omega)) [] ⟨true, 0⟩
  let M := storageMachine fun _ => none
  have hconfig : (M.next M.start config).isSome = true := by decide +kernel
  have hwrite : ((M.next M.start config).bind fun t =>
      write.perform t.1).isNone = true := by decide +kernel
  obtain ⟨t, hnext⟩ := Option.isSome_iff_exists.mp hconfig
  obtain ⟨-, hrest⟩ := h (fun _ => none) [config, write]
  obtain ⟨u, result, hperform, -⟩ := (hrest t hnext).1
  rw [hnext, Option.bind_some, hperform] at hwrite
  cases hwrite

end EspIotivity.Adapter
