import EspIotivity.Adapter.CredentialStore
import EspIotivity.Foundation.Refinement

/-!
# The store as a map from directories and names

What the three storage functions are for: one directory is in force, and names
in it have bytes.  There is no buffer, no length and no path here.  The code
does the same over any calls that fit, with any failures of the C library, as
long as names have no slash; a path then tells directory and name apart.
-/

namespace EspIotivity.Adapter

open EspIotivity.Foundation

/-- Before a configuration, and after a failed one, no directory is in force. -/
structure DirectoryStore where
  directory : Option CString
  files : CString × CString → Option (List UInt8)

namespace DirectoryStore

/-- The directory in which a name is looked up. -/
def admits (store : DirectoryStore) (name : CString) : Option CString :=
  store.directory.filter fun directory =>
    directory.strlen + name.strlen + 1 < storePathSize

def configure (store : DirectoryStore) (directory : CString) :
    DirectoryStore × StorageResult :=
  if directory.strlen < storePathSize then
    ({ store with directory := some directory }, ⟨.ok 0, none, []⟩)
  else ({ store with directory := none }, refused)

def read (store : DirectoryStore) (name : CString) (size : Nat) (io : FileIo) :
    DirectoryStore × StorageResult :=
  match store.admits name with
  | none => (store, refused)
  | some directory =>
      let path := some (pathOf directory name)
      match if io.opens then store.files (directory, name) else none with
      | none => (store, ⟨.error .inval, path, []⟩)
      | some content =>
          let data := content.take (min size io.moved)
          (store, ⟨.ok (toInt32 data.length), path, data⟩)

def write (store : DirectoryStore) (name : CString) (buf : List UInt8)
    (io : FileIo) : DirectoryStore × StorageResult :=
  match store.admits name with
  | none => (store, refused)
  | some directory =>
      let path := some (pathOf directory name)
      let data := buf.take io.moved
      if io.opens then
        let key := (directory, name)
        ({ store with files := Function.update store.files key (some data) },
          ⟨.ok (toInt32 data.length), path, []⟩)
      else (store, ⟨.error .inval, path, []⟩)

def perform (store : DirectoryStore) :
    StorageCall → DirectoryStore × StorageResult
  | .config directory => store.configure directory
  | .read name size io => store.read name size io
  | .write name buf io => store.write name buf io

def boot (files : Path → Option (List UInt8)) : DirectoryStore :=
  ⟨none, fun key => files (pathOf key.1 key.2)⟩

def machine (files : Path → Option (List UInt8)) :
    Machine (DirectoryStore × List (StorageCall × StorageResult)) StorageCall :=
  Machine.logging (boot files) fun store call => some (store.perform call)

end DirectoryStore

/-- The name of a file, not of a place in another directory. -/
def CString.Plain (name : CString) : Prop := slash ∉ name.bytes

instance (name : CString) : Decidable name.Plain :=
  inferInstanceAs (Decidable (slash ∉ name.bytes))

/-- A configuration may name any directory. -/
def StorageCall.Plain : StorageCall → Prop
  | .config _ => True
  | .read name _ _ => name.Plain
  | .write name _ _ => name.Plain

instance : ∀ call : StorageCall, Decidable call.Plain
  | .config _ => .isTrue trivial
  | .read name _ _ => inferInstanceAs (Decidable name.Plain)
  | .write name _ _ => inferInstanceAs (Decidable name.Plain)

/-! ## Paths -/

theorem CString.eq_of_bytes {first second : CString}
    (h : first.bytes = second.bytes) : first = second := by
  cases first
  cases second
  simpa using h

theorem split_at_slash {first second name other : List UInt8}
    (hname : slash ∉ name) (hother : slash ∉ other)
    (h : first ++ slash :: name = second ++ slash :: other) :
    first = second ∧ name = other := by
  rcases List.append_eq_append_iff.mp h with
    ⟨between, hsecond, hrest⟩ | ⟨between, hfirst, hrest⟩
  · cases between with
    | nil => simp_all
    | cons byte between =>
        -- The second path would have its last slash inside the name.
        rw [List.cons_append, List.cons.injEq] at hrest
        exact absurd (by simp [hrest.2]) hname
  · cases between with
    | nil => simp_all
    | cons byte between =>
        rw [List.cons_append, List.cons.injEq] at hrest
        exact absurd (by simp [hrest.2]) hother

theorem pathOf_eq_iff {first second name other : CString}
    (hname : name.Plain) (hother : other.Plain) :
    pathOf first name = pathOf second other ↔
      (first, name) = (second, other) := by
  constructor
  · intro h
    obtain ⟨hdirectory, hsame⟩ := split_at_slash hname hother h
    rw [CString.eq_of_bytes hdirectory, CString.eq_of_bytes hsame]
  · intro h
    rw [Prod.mk.injEq] at h
    rw [h.1, h.2]

/-! ## What the static variables stand for -/

structure Abstracts (s : StorageState) (store : DirectoryStore) : Prop where
  inForce : ∀ directory ∈ store.directory, Configured directory s
  unset : store.directory = none → s.pathSet = true →
    storePathSize ≤ s.storePathLen ∧ s.storePathLen < 2147483648
  files : ∀ directory name, CString.Plain name →
    s.files (pathOf directory name) = store.files (directory, name)

theorem admits_eq_some {store : DirectoryStore} {name directory : CString} :
    store.admits name = some directory ↔ store.directory = some directory ∧
      directory.strlen + name.strlen + 1 < storePathSize := by
  simp [DirectoryStore.admits, Option.filter_eq_some_iff]

section Step

variable {s : StorageState} {store : DirectoryStore} {name : CString}

/-- Both guards let a call through that fits exactly if its path does. -/
theorem admits_of_length {admits : Bool} {length : Int}
    (hs : Abstracts s store)
    (hadmits : admits = true ↔
      s.pathSet = true ∧ toSizeT length < storePathSize)
    (hlow : name.strlen + s.storePathLen ≤ length)
    (hhigh : length ≤ 1 + name.strlen + s.storePathLen)
    (hfits : s.pathSet = true → ¬ Wraps length ∧
      (length < storePathSize →
        name.strlen + s.storePathLen + 1 < storePathSize)) :
    admits = true ↔ ∃ directory, store.admits name = some directory := by
  have hname : name.strlen < 4294967296 := name.length_lt
  have hsize : storePathSize = 64 := rfl
  rw [hadmits]
  cases hdirectory : store.directory with
  | none =>
      refine iff_of_false ?_ (by simp [admits_eq_some, hdirectory])
      rintro ⟨hset, hguard⟩
      obtain ⟨hlong, hlt⟩ := hs.unset hdirectory hset
      rw [sizeT_lt_iff (by omega) (by omega)] at hguard
      have hless := hguard.resolve_right (hfits hset).1
      omega
  | some directory =>
      obtain ⟨hshort, hset, hlen, -⟩ := hs.inForce directory hdirectory
      have hnot := hfits hset
      simp only [admits_eq_some, hdirectory, Option.some.injEq, exists_eq_left',
        hset, true_and]
      rw [sizeT_lt_iff (by omega) (by omega), or_iff_left hnot.1]
      omega

theorem readAdmits_abstract (hs : Abstracts s store) {size : Nat} {io : FileIo}
    (hfits : Fits s (.read name size io)) :
    readAdmits name s = true ↔
      ∃ directory, store.admits name = some directory := by
  have hadmits : readAdmits name s = true ↔ s.pathSet = true ∧
      toSizeT (1 + name.strlen + s.storePathLen) < storePathSize := by
    simp [readAdmits]
  apply admits_of_length hs hadmits
  · omega
  · exact le_rfl
  · exact fun hset => ⟨hfits hset, by omega⟩

theorem writeAdmits_abstract (hs : Abstracts s store) {buf : List UInt8}
    {io : FileIo} (hfits : Fits s (.write name buf io)) :
    writeAdmits name s = true ↔
      ∃ directory, store.admits name = some directory := by
  have hsize : storePathSize = 64 := rfl
  have hadmits : writeAdmits name s = true ↔ s.pathSet = true ∧
      toSizeT (name.strlen + s.storePathLen) < storePathSize := by
    simp [writeAdmits]
  apply admits_of_length hs hadmits
  · exact le_rfl
  · omega
  · intro hset
    obtain ⟨hnot, hwraps⟩ := hfits hset
    exact ⟨hwraps, by omega⟩

theorem Abstracts.withPath (hs : Abstracts s store)
    {storePath : Buffer UInt8 storePathSize} {directory : CString}
    (hdirectory : store.directory = some directory)
    (hconfigured : Configured directory { s with storePath }) :
    Abstracts { s with storePath } store := by
  constructor
  case inForce =>
    intro other hother
    rw [hdirectory] at hother
    cases hother
    exact hconfigured
  case unset => simp [hdirectory]
  case files => exact hs.files

/-- The one thing that a read and a write have in common. -/
theorem access_abstract (hs : Abstracts s store)
    {admits : CString → StorageState → Bool}
    {transfer : StorageState → Path → StorageState × StorageResult}
    (hadmits : admits name s = true ↔
      ∃ directory, store.admits name = some directory)
    {t : StorageState} {result : StorageResult}
    (haccess : accessFile admits transfer name s = some (t, result)) :
    (store.admits name = none ∧ t = s ∧ result = refused) ∨
      ∃ directory storePath, store.admits name = some directory ∧
        Abstracts { s with storePath } store ∧
        transfer { s with storePath } (pathOf directory name) =
          (t, result) := by
  cases hstore : store.admits name with
  | none =>
      rw [accessFile_refused (by simp [hadmits, hstore])] at haccess
      cases haccess
      exact .inl ⟨rfl, rfl, rfl⟩
  | some directory =>
      obtain ⟨hdirectory, hroom⟩ := admits_eq_some.mp hstore
      obtain ⟨storePath, hconfigured, hopened⟩ := accessFile_opened transfer
        (hs.inForce directory hdirectory) (hadmits.mpr ⟨directory, hstore⟩)
        (by omega)
      rw [hopened, Option.some.injEq] at haccess
      exact .inr ⟨directory, storePath, rfl,
        hs.withPath hdirectory hconfigured, haccess⟩

theorem config_abstract (hs : Abstracts s store) {directory : CString}
    (hfits : Fits s (.config directory)) {t : StorageState}
    {result : StorageResult}
    (hcall : ocStorageConfig directory s = some (t, result)) :
    (store.configure directory).2 = result ∧
      Abstracts t (store.configure directory).1 := by
  by_cases hshort : directory.strlen < storePathSize
  · obtain ⟨storePath, hconfig, htake⟩ := config_short s hshort
    rw [hconfig] at hcall
    cases hcall
    simp only [DirectoryStore.configure, hshort, if_true, true_and]
    constructor
    case inForce =>
      intro other hother
      cases hother
      exact ⟨hshort, rfl, rfl, htake⟩
    case unset => simp
    case files => exact hs.files
  · rw [config_long s (not_lt.mp hshort) hfits] at hcall
    cases hcall
    simp only [DirectoryStore.configure, hshort, if_false, true_and]
    have hfits' : directory.strlen < 2147483648 := hfits
    have hlong := not_lt.mp hshort
    constructor
    case inForce => simp
    case unset =>
      intro _ _
      dsimp only
      omega
    case files => exact hs.files

theorem read_abstract (hs : Abstracts s store) {size : Nat} {io : FileIo}
    (hname : name.Plain) (hfits : Fits s (.read name size io))
    {t : StorageState} {result : StorageResult}
    (hcall : ocStorageRead name size io s = some (t, result)) :
    (store.read name size io).2 = result ∧
      Abstracts t (store.read name size io).1 := by
  rcases access_abstract hs (readAdmits_abstract hs hfits) hcall with
    ⟨hnone, rfl, rfl⟩ | ⟨directory, storePath, hsome, ht, hread⟩
  · simp [DirectoryStore.read, hnone, hs]
  · have hfile := hs.files directory name hname
    simp only [DirectoryStore.read, hsome, ← hfile]
    unfold readFile at hread
    cases hcontent : if io.opens then s.files (pathOf directory name)
      else none with
    | none =>
        simp only [hcontent] at hread
        cases hread
        exact ⟨rfl, ht⟩
    | some content =>
        simp only [hcontent] at hread
        cases hread
        refine ⟨?_, ht⟩
        simp

theorem write_abstract (hs : Abstracts s store) {buf : List UInt8}
    {io : FileIo} (hname : name.Plain) (hfits : Fits s (.write name buf io))
    {t : StorageState} {result : StorageResult}
    (hcall : ocStorageWrite name buf io s = some (t, result)) :
    (store.write name buf io).2 = result ∧
      Abstracts t (store.write name buf io).1 := by
  rcases access_abstract hs (writeAdmits_abstract hs hfits) hcall with
    ⟨hnone, rfl, rfl⟩ | ⟨directory, storePath, hsome, ht, hwrite⟩
  · simp [DirectoryStore.write, hnone, hs]
  · have hdata : buf.take (min buf.length io.moved) = buf.take io.moved := by
      rw [← List.take_take, List.take_of_length_le (List.length_take_le' _ _)]
    simp only [DirectoryStore.write, hsome]
    unfold writeFile at hwrite
    by_cases hopens : io.opens
    · simp only [hopens, if_true] at hwrite ⊢
      cases hwrite
      refine ⟨by simp [min_comm], ?_⟩
      constructor
      case inForce =>
        intro other hother
        have hother := ht.inForce other hother
        exact ⟨hother.short, hother.pathSet, hother.represents.length,
          hother.represents.prefixed⟩
      case unset => exact ht.unset
      case files =>
        intro other file hfile
        have hkey : pathOf other file = pathOf directory name ↔
            (other, file) = (directory, name) := pathOf_eq_iff hfile hname
        dsimp only
        by_cases hsame : (other, file) = (directory, name)
        · rw [hsame, hkey.mpr hsame, Function.update_self, Function.update_self,
            hdata]
        · rw [Function.update_of_ne hsame,
            Function.update_of_ne (mt hkey.mp hsame)]
          exact hs.files other file hfile
    · simp only [hopens] at hwrite ⊢
      cases hwrite
      exact ⟨rfl, ht⟩

end Step

theorem perform_abstract {s t : StorageState} {store : DirectoryStore}
    (hs : Abstracts s store) {call : StorageCall} (hplain : call.Plain)
    (hfits : Fits s call) {result : StorageResult}
    (hcall : call.perform s = some (t, result)) :
    (store.perform call).2 = result ∧ Abstracts t (store.perform call).1 := by
  cases call with
  | config directory => exact config_abstract hs hfits hcall
  | read name size io => exact read_abstract hs hplain hfits hcall
  | write name buf io => exact write_abstract hs hplain hfits hcall

theorem boot_abstracts (files : Path → Option (List UInt8)) :
    Abstracts (bootStorage files) (DirectoryStore.boot files) := by
  constructor
  case inForce => simp [DirectoryStore.boot]
  case unset => simp [bootStorage]
  case files => exact fun _ _ _ => rfl

theorem storage_follows (files : Path → Option (List UInt8)) :
    (storageMachine files).Follows (DirectoryStore.machine files)
      (fun s x => Abstracts s.1 x.1 ∧ s.2 = x.2)
      (fun s call => call.Plain ∧ Fits s.1 call) := by
  constructor
  case start => exact ⟨boot_abstracts files, rfl⟩
  case next =>
    intro (s, log) (store, log') call (t, later) ⟨hs, hlog⟩ hguard hnext
    obtain ⟨hplain, hfits⟩ := hguard
    obtain ⟨result, hcall, hlater⟩ := Machine.logging_next.mp hnext
    obtain ⟨hresult, ht⟩ := perform_abstract hs hplain hfits hcall
    refine ⟨((store.perform call).1, log' ++ [(call, (store.perform call).2)]),
      rfl, ht, ?_⟩
    dsimp only at hlog hlater ⊢
    rw [hresult, ← hlog, hlater]

theorem storage_runs {files : Path → Option (List UInt8)}
    {calls : List StorageCall}
    (hcalls : (storageMachine files).Throughout
      (fun s call => call.Plain ∧ Fits s.1 call) (bootStorage files, [])
      calls) : ∃ s, (storageMachine files).run calls = some s := by
  apply Machine.Throughout.exists_run
    (I := fun s => StorageInvariant s.1 s.2) ?_ ?_ (boot_invariant files) hcalls
  · exact fun s call t hs _ hnext => storage_invariant_next hs hnext
  · intro s call hs hcall
    obtain ⟨t, result, hperform, -⟩ := (pathSafe_iff_fits hs call).mpr hcall.2
    exact ⟨(t, s.2 ++ [(call, result)]),
      Machine.logging_next.mpr ⟨result, hperform, rfl⟩⟩

/--
Any calls that fit run to their end.  However often the directory is changed and
whatever fails, each call returns, opens and reads what it does in a map from
directories and names to bytes, and the files hold what that map does.
-/
theorem storage_refines {files : Path → Option (List UInt8)}
    {calls : List StorageCall}
    (hcalls : (storageMachine files).Throughout
      (fun s call => call.Plain ∧ Fits s.1 call) (bootStorage files, [])
      calls) :
    ∃ s store, (storageMachine files).run calls = some s ∧
      (DirectoryStore.machine files).run calls = some (store, s.2) ∧
      Abstracts s.1 store := by
  obtain ⟨s, hrun⟩ := storage_runs hcalls
  obtain ⟨⟨store, log⟩, hfollow, hs, hlog⟩ :=
    (storage_follows files).run hcalls hrun
  exact ⟨s, store, hrun, hlog ▸ hfollow, hs⟩

instance : ∀ (s : StorageState) (call : StorageCall), Decidable (Fits s call)
  | _, .config _ => inferInstanceAs (Decidable (_ < _))
  | _, .read _ _ _ => inferInstanceAs (Decidable (_ → ¬ (_ ∧ _)))
  | _, .write _ _ _ => inferInstanceAs (Decidable (_ → _ ∧ ¬ (_ ∧ _)))

def shortLetters (n : Fin 65) : CString :=
  letters n (n.isLt.trans (by decide))

/-- One name in two directories, with a configuration between that fails. -/
def movingCalls : List StorageCall :=
  [.config (shortLetters 1), .write (shortLetters 3) [1, 2] ⟨true, 2⟩,
    .config (shortLetters 64), .read (shortLetters 3) 2 ⟨true, 2⟩,
    .config (shortLetters 2), .write (shortLetters 3) [3, 4] ⟨true, 1⟩,
    .config (shortLetters 1), .read (shortLetters 3) 2 ⟨true, 2⟩]

theorem movingCalls_refine : ∃ s store,
    (storageMachine fun _ => none).run movingCalls = some s ∧
      (DirectoryStore.machine fun _ => none).run movingCalls =
        some (store, s.2) ∧ Abstracts s.1 store :=
  storage_refines (by decide +kernel)

end EspIotivity.Adapter
