import EspIotivity.Adapter.Storage

/-!
# The store as a map from names to byte strings

Once a directory is configured, and as long as the C library does what it is
asked, reads and writes should make the store a map from names to the bytes
written last.  They do for the names on which both length checks agree.
-/

namespace EspIotivity.Adapter

open EspIotivity.Foundation

/-- A call for which `fopen`, `fread` and `fwrite` succeed. -/
inductive AccessCall where
  | read (store : CString) (size : Nat)
  | write (store : CString) (buf : List UInt8)
  deriving DecidableEq, Repr

def AccessCall.store : AccessCall → CString
  | .read store _ => store
  | .write store _ => store

def AccessCall.perform (s : StorageState) :
    AccessCall → Option (StorageState × StorageResult)
  | .read store size => ocStorageRead store size ⟨true, size⟩ s
  | .write store buf => ocStorageWrite store buf ⟨true, buf.length⟩ s

abbrev AccessLog := List (AccessCall × StorageResult)

def credentialMachine (configured : StorageState) :
    Machine (StorageState × AccessLog) AccessCall :=
  Machine.logging configured AccessCall.perform

def storesWhole (store : CString) :
    AccessCall × StorageResult → Option (List UInt8)
  | (.write name buf, result) =>
      if name = store ∧ result.value = .ok (toInt32 buf.length) then some buf
      else none
  | _ => none

def lastStored (store : CString) (log : AccessLog) : Option (List UInt8) :=
  lastWrite (storesWhole store) log

def Refuses (outcome : Option (StorageState × StorageResult)) : Prop :=
  ∃ t result, outcome = some (t, result) ∧ result.value = .error .noent

def AcceptAlike (s : StorageState) (store : CString) : Prop :=
  ∀ size buf, Refuses (AccessCall.perform s (.read store size)) ↔
    Refuses (AccessCall.perform s (.write store buf))

/--
A read returns as much as fits of the bytes stored last under its name, and a
write leaves every file but its own alone.
-/
def StoreLaw (directory : CString) (s : StorageState × AccessLog)
    (call : AccessCall) : Prop :=
  AcceptAlike s.1 call.store ∧
    ∃ t result, call.perform s.1 = some (t, result) ∧
      match call with
      | .read store size => ∀ bytes ∈ lastStored store s.2,
          result.data = bytes.take size ∧
            result.value = .ok (toInt32 (min size bytes.length : Nat))
      | .write store _ => ∀ path, path ≠ pathOf directory store →
          t.files path = s.1.files path

/-- Directory and name do not take 63 bytes together, nor wrap 32 bits. -/
def FitsDirectory (directory : CString) (call : AccessCall) : Prop :=
  call.store.strlen + directory.strlen ≠ 63 ∧
    call.store.strlen + directory.strlen + 1 < 4294967296

instance (directory : CString) (call : AccessCall) :
    Decidable (FitsDirectory directory call) :=
  inferInstanceAs (Decidable (_ ∧ _))

/-! ## What one call does -/

structure Configured (directory : CString) (s : StorageState) : Prop where
  short : directory.strlen < storePathSize
  pathSet : s.pathSet = true
  represents : Represents s directory

theorem configured_of_config {s t : StorageState} {directory : CString}
    {result : StorageResult}
    (hconfig : ocStorageConfig directory s = some (t, result))
    (hok : result.value = .ok 0) : Configured directory t := by
  by_cases hshort : directory.strlen < storePathSize
  · obtain ⟨storePath, hcall, htake⟩ := config_short s hshort
    rw [hcall] at hconfig
    cases hconfig
    exact ⟨hshort, rfl, rfl, htake⟩
  · have hlong := not_lt.mp hshort
    by_cases hhuge : 2147483648 ≤ directory.strlen
    · rw [config_huge s hhuge] at hconfig
      cases hconfig
    · rw [config_long s hlong (not_le.mp hhuge)] at hconfig
      cases hconfig
      cases hok

section Calls

variable {directory store : CString} {s : StorageState}

theorem readAdmits_iff (hs : Configured directory s) :
    readAdmits store s = true ↔
      toSizeT (1 + store.strlen + directory.strlen) < storePathSize := by
  simp [readAdmits, hs.pathSet, hs.represents.length]

theorem writeAdmits_iff (hs : Configured directory s) :
    writeAdmits store s = true ↔
      toSizeT (store.strlen + directory.strlen) < storePathSize := by
  simp [writeAdmits, hs.pathSet, hs.represents.length]

theorem accessFile_refused {admits : CString → StorageState → Bool}
    {transfer : StorageState → Path → StorageState × StorageResult}
    (h : ¬ admits store s = true) :
    accessFile admits transfer store s = some (s, refused) := by
  simp [accessFile, h]

theorem accessFile_opened {admits : CString → StorageState → Bool}
    (transfer : StorageState → Path → StorageState × StorageResult)
    (hs : Configured directory s) (h : admits store s = true)
    (hroom : store.strlen + directory.strlen + 1 < storePathSize) :
    ∃ storePath, Configured directory { s with storePath } ∧
      accessFile admits transfer store s =
        some (transfer { s with storePath } (pathOf directory store)) := by
  have hroom' : s.storePathLen + store.strlen + 1 < storePathSize := by
    rw [hs.represents.length]
    omega
  obtain ⟨storePath, hopen, hrep⟩ := openPath_some hs.represents hroom'
  refine ⟨storePath, ⟨hs.short, hs.pathSet, hrep⟩, ?_⟩
  simp [accessFile, h, hopen]

theorem accessFile_overrun {admits : CString → StorageState → Bool}
    {transfer : StorageState → Path → StorageState × StorageResult}
    (hs : Configured directory s) (h : admits store s = true)
    (hroom : ¬ store.strlen + directory.strlen + 1 < storePathSize) :
    accessFile admits transfer store s = none := by
  have hroom' : (storePathSize : Int) ≤ s.storePathLen + store.strlen + 1 := by
    rw [hs.represents.length]
    omega
  simp [accessFile, h, openPath_none hroom']

theorem admits_of_fits (hs : Configured directory s)
    (hsum : store.strlen + directory.strlen ≠ 63)
    (hwrap : store.strlen + directory.strlen + 1 < 4294967296) :
    (readAdmits store s = true ↔
        store.strlen + directory.strlen + 1 < storePathSize) ∧
      (writeAdmits store s = true ↔
        store.strlen + directory.strlen + 1 < storePathSize) := by
  have hsize : storePathSize = 64 := rfl
  rw [readAdmits_iff hs, writeAdmits_iff hs]
  rw [toSizeT_of_lt (by omega) (by omega), toSizeT_of_lt (by omega) (by omega)]
  omega

theorem refuses_refused : Refuses (some (s, refused)) := ⟨s, refused, rfl, rfl⟩

theorem not_refuses_none : ¬ Refuses none := by
  rintro ⟨t, result, h, -⟩
  cases h

theorem not_refuses_transfer
    {transfer : StorageState → Path → StorageState × StorageResult}
    (htransfer : Transfers transfer) (path : Path) :
    ¬ Refuses (some (transfer s path)) := by
  rintro ⟨t, result, h, hvalue⟩
  rw [Option.some.injEq] at h
  apply htransfer.accepted s path
  rw [h]
  exact hvalue

theorem acceptAlike_of_fits (hs : Configured directory s)
    (hsum : store.strlen + directory.strlen ≠ 63)
    (hwrap : store.strlen + directory.strlen + 1 < 4294967296) :
    AcceptAlike s store := by
  intro size buf
  obtain ⟨hread, hwrite⟩ := admits_of_fits hs hsum hwrap
  rw [AccessCall.perform, AccessCall.perform, ocStorageRead, ocStorageWrite]
  by_cases hroom : store.strlen + directory.strlen + 1 < storePathSize
  · -- Both open the file, and then neither answers `-ENOENT`.
    obtain ⟨path, -, hopened⟩ := accessFile_opened
      (readFile size ⟨true, size⟩) hs (hread.mpr hroom) hroom
    obtain ⟨path', -, hopened'⟩ := accessFile_opened
      (writeFile buf ⟨true, buf.length⟩) hs (hwrite.mpr hroom) hroom
    rw [hopened, hopened']
    exact iff_of_false (not_refuses_transfer (readFile_transfers _ _) _)
      (not_refuses_transfer (writeFile_transfers _ _) _)
  · rw [accessFile_refused (mt hread.mp hroom),
      accessFile_refused (mt hwrite.mp hroom)]

end Calls

/-! ## The invariant of the files -/

structure StoreInvariant (directory : CString) (s : StorageState)
    (log : AccessLog) : Prop where
  configured : Configured directory s
  stored : ∀ store, ∀ bytes ∈ lastStored store log,
    store.strlen + directory.strlen + 1 < storePathSize ∧
      s.files (pathOf directory store) = some bytes

theorem lastStored_concat (store : CString) (log : AccessLog)
    (entry : AccessCall × StorageResult) :
    lastStored store (log ++ [entry]) =
      (storesWhole store entry).or (lastStored store log) :=
  lastWrite_concat (storesWhole store) log entry

theorem pathOf_injective (directory : CString) :
    Function.Injective (pathOf directory) := by
  intro first second h
  have hbytes := (List.cons.inj (List.append_cancel_left h)).2
  cases first
  cases second
  simpa using hbytes

section Run

variable {directory : CString} {s : StorageState} {log : AccessLog}

theorem StoreInvariant.keep {t : StorageState} {call : AccessCall}
    {result : StorageResult} (hs : StoreInvariant directory s log)
    (ht : Configured directory t) (hfiles : t.files = s.files)
    (hstores : ∀ store, storesWhole store (call, result) = none) :
    StoreInvariant directory t (log ++ [(call, result)]) := by
  refine ⟨ht, fun store bytes hbytes => ?_⟩
  rw [lastStored_concat, hstores, Option.none_or] at hbytes
  rw [hfiles]
  exact hs.stored store bytes hbytes

theorem storesWhole_refused (store : CString) (call : AccessCall) :
    storesWhole store (call, refused) = none := by
  cases call with
  | read name size => rfl
  | write name buf => simp [storesWhole, refused]

theorem writeFile_whole (s : StorageState) (path : Path) (buf : List UInt8) :
    writeFile buf ⟨true, buf.length⟩ s path =
      ({ s with files := Function.update s.files path (some buf) },
        ⟨.ok (toInt32 buf.length), some path, []⟩) := by
  simp [writeFile]

theorem readFile_whole {s : StorageState} {path : Path} {bytes : List UInt8}
    (size : Nat) (h : s.files path = some bytes) :
    readFile size ⟨true, size⟩ s path =
      (s, ⟨.ok (toInt32 (min size bytes.length : Nat)), some path,
        bytes.take size⟩) := by
  simp [readFile, h]

theorem read_invariant {t : StorageState} {result : StorageResult}
    {store : CString} {size : Nat} (hs : StoreInvariant directory s log)
    (hcall : ocStorageRead store size ⟨true, size⟩ s = some (t, result)) :
    StoreInvariant directory t (log ++ [(.read store size, result)]) := by
  rw [ocStorageRead] at hcall
  by_cases hadmits : readAdmits store s = true
  · by_cases hroom : store.strlen + directory.strlen + 1 < storePathSize
    · obtain ⟨storePath, hconfigured, hopened⟩ :=
        accessFile_opened _ hs.configured hadmits hroom
      rw [hopened, Option.some.injEq] at hcall
      have ht : t = { s with storePath } :=
        (congrArg Prod.fst hcall).symm.trans (readFile_state _ _ _ _)
      exact hs.keep (ht ▸ hconfigured) (by rw [ht]) (fun _ => rfl)
    · rw [accessFile_overrun hs.configured hadmits hroom] at hcall
      cases hcall
  · rw [accessFile_refused hadmits] at hcall
    cases hcall
    exact hs.keep hs.configured rfl (fun store => storesWhole_refused store _)

theorem write_invariant {t : StorageState} {result : StorageResult}
    {store : CString} {buf : List UInt8} (hs : StoreInvariant directory s log)
    (hcall : ocStorageWrite store buf ⟨true, buf.length⟩ s =
      some (t, result)) :
    StoreInvariant directory t (log ++ [(.write store buf, result)]) := by
  rw [ocStorageWrite] at hcall
  by_cases hadmits : writeAdmits store s = true
  · by_cases hroom : store.strlen + directory.strlen + 1 < storePathSize
    · obtain ⟨storePath, hconfigured, hopened⟩ :=
        accessFile_opened _ hs.configured hadmits hroom
      rw [hopened, writeFile_whole] at hcall
      cases hcall
      refine ⟨⟨hconfigured.short, hconfigured.pathSet,
        hconfigured.represents.length, hconfigured.represents.prefixed⟩, ?_⟩
      intro name bytes hbytes
      rw [lastStored_concat] at hbytes
      by_cases hname : store = name
      · subst hname
        have heq : buf = bytes := by simpa [storesWhole] using hbytes
        exact ⟨hroom, by simp [heq]⟩
      · have hold : bytes ∈ lastStored name log := by
          simpa [storesWhole, hname] using hbytes
        have hpath : pathOf directory name ≠ pathOf directory store :=
          fun h => hname (pathOf_injective directory h).symm
        obtain ⟨hfits, hfile⟩ := hs.stored name bytes hold
        refine ⟨hfits, ?_⟩
        rw [← hfile]
        exact Function.update_of_ne hpath _ _
    · rw [accessFile_overrun hs.configured hadmits hroom] at hcall
      cases hcall
  · rw [accessFile_refused hadmits] at hcall
    cases hcall
    exact hs.keep hs.configured rfl (fun store => storesWhole_refused store _)

theorem credential_invariant_next {configured : StorageState}
    {u v : StorageState × AccessLog} {call : AccessCall}
    (hs : StoreInvariant directory u.1 u.2)
    (hnext : (credentialMachine configured).next u call = some v) :
    StoreInvariant directory v.1 v.2 := by
  obtain ⟨result, hperform, hlog⟩ := Machine.logging_next.mp hnext
  rw [hlog]
  cases call with
  | read store size => exact read_invariant hs hperform
  | write store buf => exact write_invariant hs hperform

/-! ## When the law holds -/

theorem storeLaw_of_fits {call : AccessCall}
    (hs : StoreInvariant directory s log)
    (hfits : FitsDirectory directory call) :
    StoreLaw directory (s, log) call := by
  obtain ⟨hsum, hwrap⟩ := hfits
  refine ⟨acceptAlike_of_fits hs.configured hsum hwrap, ?_⟩
  obtain ⟨hread, hwrite⟩ := admits_of_fits hs.configured hsum hwrap
  by_cases hroom : call.store.strlen + directory.strlen + 1 < storePathSize
  · cases call with
    | read store size =>
        obtain ⟨storePath, -, hopened⟩ :=
          accessFile_opened _ hs.configured (hread.mpr hroom) hroom
        obtain ⟨t, result, hresult⟩ : ∃ t result, readFile size ⟨true, size⟩
            { s with storePath } (pathOf directory store) = (t, result) :=
          ⟨_, _, rfl⟩
        refine ⟨t, result, hopened.trans (congrArg some hresult), ?_⟩
        intro bytes hbytes
        have hfile := (hs.stored store bytes hbytes).2
        rw [readFile_whole (s := { s with storePath }) size hfile] at hresult
        cases hresult
        exact ⟨rfl, rfl⟩
    | write store buf =>
        obtain ⟨storePath, -, hopened⟩ :=
          accessFile_opened (writeFile buf ⟨true, buf.length⟩) hs.configured
            (hwrite.mpr hroom) hroom
        rw [writeFile_whole] at hopened
        exact ⟨_, _, hopened, fun path hpath => Function.update_of_ne hpath _ _⟩
  · cases call with
    | read store size =>
        refine ⟨_, _, accessFile_refused (mt hread.mp hroom), ?_⟩
        intro bytes hbytes
        exact absurd (hs.stored store bytes hbytes).1 hroom
    | write store buf =>
        exact ⟨_, _, accessFile_refused (mt hwrite.mp hroom), fun _ _ => rfl⟩

/-- With 63 bytes the read answers `-ENOENT` and the write overruns. -/
theorem not_acceptAlike_of_63 {store : CString} (hs : Configured directory s)
    (hsum : store.strlen + directory.strlen = 63) :
    ¬ AcceptAlike s store := by
  intro halike
  have hsize : storePathSize = 64 := rfl
  have hread : ¬ readAdmits store s = true := by
    rw [readAdmits_iff hs, toSizeT_of_lt (by omega) (by omega)]
    omega
  have hwrite : writeAdmits store s = true := by
    rw [writeAdmits_iff hs, toSizeT_of_lt (by omega) (by omega)]
    omega
  have hrefuses : Refuses (AccessCall.perform s (.read store 0)) := by
    rw [AccessCall.perform, ocStorageRead, accessFile_refused hread]
    exact refuses_refused
  have hrefuses' := (halike 0 []).mp hrefuses
  rw [AccessCall.perform, ocStorageWrite,
    accessFile_overrun hs hwrite (by omega)] at hrefuses'
  exact not_refuses_none hrefuses'

/-- Where the sum wraps, the read overruns, and so does a like-minded write. -/
theorem overrun_of_wraps {store : CString} (hs : Configured directory s)
    (hwrap : 4294967296 ≤ store.strlen + directory.strlen + 1)
    (halike : AcceptAlike s store) :
    (∀ size, AccessCall.perform s (.read store size) = none) ∧
      ∀ buf, AccessCall.perform s (.write store buf) = none := by
  have hsize : storePathSize = 64 := rfl
  have hshort := hs.short
  have hstore : store.strlen < 4294967296 := store.length_lt
  have hroom : ¬ store.strlen + directory.strlen + 1 < storePathSize := by
    omega
  have hread : readAdmits store s = true := by
    rw [readAdmits_iff hs, sizeT_lt_iff (by omega) (by omega)]
    unfold Wraps
    omega
  have hreadNone : ∀ size, AccessCall.perform s (.read store size) = none :=
    fun size => accessFile_overrun hs hread hroom
  have hwrite : writeAdmits store s = true := by
    by_contra hrefused
    apply not_refuses_none
    rw [← hreadNone 0]
    apply (halike 0 []).mpr
    rw [AccessCall.perform, ocStorageWrite, accessFile_refused hrefused]
    exact refuses_refused
  exact ⟨hreadNone, fun buf => accessFile_overrun hs hwrite hroom⟩

theorem fits_of_storeLaw {call : AccessCall} (hs : Configured directory s)
    (hlaw : StoreLaw directory (s, log) call) :
    FitsDirectory directory call := by
  obtain ⟨halike, t, result, hperform, -⟩ := hlaw
  constructor
  · exact fun hsum => not_acceptAlike_of_63 hs hsum halike
  · by_contra hwrap
    obtain ⟨hread, hwrite⟩ := overrun_of_wraps hs (not_lt.mp hwrap) halike
    have hnone : call.perform s = none := by
      cases call with
      | read store size => exact hread size
      | write store buf => exact hwrite buf
    rw [hnone] at hperform
    cases hperform

theorem performs_of_fits {call : AccessCall}
    (hs : StoreInvariant directory s log)
    (hfits : FitsDirectory directory call) :
    ∃ t result, call.perform s = some (t, result) := by
  obtain ⟨-, t, result, hperform, -⟩ := storeLaw_of_fits hs hfits
  exact ⟨t, result, hperform⟩

end Run

/-- The law holds of a run exactly when every name in it fits the directory. -/
theorem storeLaw_iff {s t : StorageState} {directory : CString}
    {result : StorageResult}
    (hconfig : ocStorageConfig directory s = some (t, result))
    (hok : result.value = .ok 0) (calls : List AccessCall) :
    (credentialMachine t).Throughout (StoreLaw directory) (t, []) calls ↔
      ∀ call ∈ calls, FitsDirectory directory call := by
  have hstart : StoreInvariant directory t [] :=
    ⟨configured_of_config hconfig hok, fun _ _ h => by cases h⟩
  have hstep : ∀ u call v, StoreInvariant directory u.1 u.2 →
      (credentialMachine t).next u call = some v →
      StoreInvariant directory v.1 v.2 :=
    fun u call v hu hnext => credential_invariant_next hu hnext
  calc (credentialMachine t).Throughout (StoreLaw directory) (t, []) calls
      ↔ (credentialMachine t).Throughout
          (fun _ call => FitsDirectory directory call) (t, []) calls := by
        apply Machine.throughout_congr hstep
        · intro u call hu
          exact ⟨fits_of_storeLaw hu.configured, storeLaw_of_fits hu⟩
        · exact hstart
    _ ↔ ∀ call ∈ calls, FitsDirectory directory call := by
        apply Machine.throughout_labels hstep
        · intro u call hu hfits
          obtain ⟨v, result, hperform⟩ := performs_of_fits hu hfits
          exact ⟨(v, u.2 ++ [(call, result)]),
            Machine.logging_next.mpr ⟨result, hperform, rfl⟩⟩
        · exact hstart

theorem storeLaw_letters :
    ∃ t result, ocStorageConfig (letters 60 (by omega))
        (bootStorage fun _ => none) = some (t, result) ∧
      (credentialMachine t).Throughout (StoreLaw (letters 60 (by omega)))
        (t, []) [.write (letters 2 (by omega)) [1, 2, 3],
          .read (letters 2 (by omega)) 2] := by
  obtain ⟨storePath, hconfig, -⟩ := config_short (bootStorage fun _ => none)
    (show (letters 60 (by omega)).strlen < storePathSize by decide +kernel)
  exact ⟨_, _, hconfig, (storeLaw_iff hconfig rfl _).mpr (by decide +kernel)⟩

theorem storeLaw_fails :
    ¬ ∀ (s t : StorageState) (directory : CString) (result : StorageResult)
      (calls : List AccessCall),
      ocStorageConfig directory s = some (t, result) →
      result.value = .ok 0 →
      (credentialMachine t).Throughout (StoreLaw directory) (t, []) calls := by
  intro h
  obtain ⟨storePath, hconfig, htake⟩ := config_short (bootStorage fun _ => none)
    (show (letters 60 (by omega)).strlen < storePathSize by decide +kernel)
  have hlaw := (h _ _ _ _ [.write (letters 3 (by omega)) []] hconfig rfl).1
  have hfits := fits_of_storeLaw (configured_of_config hconfig rfl) hlaw
  exact hfits.1 (by decide +kernel)

end EspIotivity.Adapter
