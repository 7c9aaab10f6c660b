import EspIotivity.Adapter.CredentialStore

/-!
# After a failed configuration

`oc_storage_config` writes `store_path_len` before it looks at it, and leaves
`path_set` as it was.  A directory configured before is then still set, with a
length that the guards of the later reads and writes refuse.
-/

namespace EspIotivity.Adapter

open EspIotivity.Foundation

/-- `oc_storage_read` or `oc_storage_write`. -/
def StorageCall.Accesses : StorageCall → Prop
  | .config _ => False
  | .read _ _ _ | .write _ _ _ => True

/-- What the calls return and open, in turn, up to one that overruns. -/
def outcomes : List StorageCall → StorageState → List (Option StorageResult)
  | [], _ => []
  | call :: calls, s =>
      match call.perform s with
      | none => [none]
      | some (t, result) => some result :: outcomes calls t

/-- Such calls come out in one state as they do in the other. -/
def OutcomesAgree (names : CString → Prop) (s t : StorageState) : Prop :=
  ∀ calls : List StorageCall,
    (∀ call ∈ calls, call.Accesses ∧ names call.store) →
    outcomes calls s = outcomes calls t

def FailsWithout (names : CString → Prop) (s : StorageState)
    (store : CString) : Prop :=
  ∀ t result, ocStorageConfig store s = some (t, result) →
    result.value = .error .noent → OutcomesAgree names t s

/-- A call of `oc_storage_config` that fails is as good as none. -/
abbrev FailsCleanly : StorageState → CString → Prop :=
  FailsWithout fun _ => True

/-- The strings for which it fails; longer ones overrun `store_path`. -/
def TooLong (store : CString) : Prop :=
  storePathSize ≤ store.strlen ∧ store.strlen < 2147483648

theorem config_noent_iff {s t : StorageState} {store : CString}
    {result : StorageResult}
    (hconfig : ocStorageConfig store s = some (t, result)) :
    result.value = .error .noent ↔ TooLong store := by
  by_cases hshort : store.strlen < storePathSize
  · obtain ⟨storePath, hcall, -⟩ := config_short s hshort
    rw [hcall] at hconfig
    cases hconfig
    simp [TooLong, hshort]
  have hlong := not_lt.mp hshort
  by_cases hhuge : 2147483648 ≤ store.strlen
  · rw [config_huge s hhuge] at hconfig
    cases hconfig
  · rw [config_long s hlong (not_le.mp hhuge)] at hconfig
    cases hconfig
    exact iff_of_true rfl ⟨hlong, not_le.mp hhuge⟩

theorem failsWithout_iff {names : CString → Prop} {s : StorageState}
    {store : CString} :
    FailsWithout names s store ↔ (TooLong store →
      OutcomesAgree names { s with storePathLen := store.strlen } s) := by
  constructor
  · rintro h ⟨hlong, hint⟩
    exact h _ _ (config_long s hlong hint) rfl
  · intro h t result hconfig hvalue
    have hlong := (config_noent_iff hconfig).mp hvalue
    rw [config_long s hlong.1 hlong.2] at hconfig
    cases hconfig
    exact h hlong

/-! ## Calls that are refused -/

def StorageCall.admits (s : StorageState) : StorageCall → Bool
  | .config _ => true
  | .read store _ _ => readAdmits store s
  | .write store _ _ => writeAdmits store s

section Refused

variable {s : StorageState} {call : StorageCall} {calls : List StorageCall}

theorem perform_refused (h : call.admits s = false) :
    call.perform s = some (s, refused) := by
  cases call with
  | config store => cases h
  | read store size io => exact accessFile_refused (Bool.eq_false_iff.mp h)
  | write store buf io => exact accessFile_refused (Bool.eq_false_iff.mp h)

theorem outcomes_refused (h : ∀ call ∈ calls, call.admits s = false) :
    outcomes calls s = calls.map fun _ => some refused := by
  induction calls with
  | nil => rfl
  | cons call calls ih =>
      rw [List.forall_mem_cons] at h
      simp only [outcomes, perform_refused h.1, List.map_cons]
      rw [ih h.2]

theorem not_admits_unset (haccess : call.Accesses) (hset : s.pathSet = false) :
    call.admits s = false := by
  cases call with
  | config store => cases haccess
  | read store size io => simp [StorageCall.admits, readAdmits, hset]
  | write store buf io => simp [StorageCall.admits, writeAdmits, hset]

theorem not_admits_long (haccess : call.Accesses)
    (hlong : storePathSize ≤ s.storePathLen) (hint : s.storePathLen < 2147483648)
    (hname : call.store.strlen < 2147483648) : call.admits s = false := by
  have hsize : storePathSize = 64 := rfl
  have hsum : ∀ length : Int, storePathSize ≤ length → length < 4294967296 →
      ¬ toSizeT length < storePathSize := by
    intro length hlo hhi
    rw [toSizeT_of_lt (by omega) hhi]
    omega
  cases call with
  | config store => cases haccess
  | read store size io =>
      dsimp only [StorageCall.store] at hname
      have hrefuse := hsum (1 + store.strlen + s.storePathLen) (by omega)
        (by omega)
      simp [StorageCall.admits, readAdmits, hrefuse]
  | write store buf io =>
      dsimp only [StorageCall.store] at hname
      have hrefuse := hsum (store.strlen + s.storePathLen) (by omega) (by omega)
      simp [StorageCall.admits, writeAdmits, hrefuse]

end Refused

theorem outcomesAgree_refused {names : CString → Prop} {s t : StorageState}
    (hs : ∀ call : StorageCall, call.Accesses → names call.store →
      call.admits s = false)
    (ht : ∀ call : StorageCall, call.Accesses → names call.store →
      call.admits t = false) : OutcomesAgree names s t := by
  intro calls hcalls
  have hall : ∀ u : StorageState, (∀ call : StorageCall, call.Accesses →
      names call.store → call.admits u = false) →
      outcomes calls u = calls.map fun _ => some refused := by
    intro u hu
    apply outcomes_refused
    intro call hcall
    exact hu call (hcalls call hcall).1 (hcalls call hcall).2
  rw [hall s hs, hall t ht]

/-! ## A write that tells the states apart -/

/-- A write that is let through opens a file, or overruns. -/
theorem outcomes_admitted {s : StorageState} {store : CString}
    (h : writeAdmits store s = true) :
    outcomes [.write store [] ⟨true, 0⟩] s ≠ [some refused] := by
  simp only [outcomes, StorageCall.perform, ocStorageWrite, accessFile, h,
    if_true]
  cases hopen : openPath store s with
  | none => simp
  | some opened =>
      simp [writeFile, refused]

theorem not_outcomesAgree {names : CString → Prop} {s t : StorageState}
    {store : CString} (hname : names store)
    (hne : writeAdmits store s ≠ writeAdmits store t) :
    ¬ OutcomesAgree names s t := by
  intro hagree
  have hsame := hagree [.write store [] ⟨true, 0⟩] (by
    simpa [StorageCall.Accesses, StorageCall.store] using hname)
  have hrefused : ∀ u : StorageState, writeAdmits store u = false →
      outcomes [.write store [] ⟨true, 0⟩] u = [some refused] := by
    intro u hu
    exact outcomes_refused (by simpa [StorageCall.admits] using hu)
  cases hwrite : writeAdmits store s with
  | true =>
      rw [hwrite, ne_comm, ne_eq, Bool.not_eq_true] at hne
      exact outcomes_admitted hwrite (hsame.trans (hrefused t hne))
  | false =>
      rw [hwrite, ne_comm, ne_eq, Bool.not_eq_false] at hne
      exact outcomes_admitted hne (hsame.symm.trans (hrefused s hwrite))

section Distinguish

variable {s t : StorageState}

theorem OutcomesAgree.symm {names : CString → Prop}
    (h : OutcomesAgree names s t) : OutcomesAgree names t s :=
  fun calls hcalls => (h calls hcalls).symm

theorem writeAdmits_letters {n : Nat} (hn : n < 4294967296)
    (hset : s.pathSet = true) :
    writeAdmits (letters n hn) s = true ↔
      toSizeT (n + s.storePathLen) < storePathSize := by
  simp [writeAdmits, hset, letters, CString.strlen]

/-- The write of the empty name tells a length in range from one beyond. -/
theorem not_outcomesAgree_short {names : CString → Prop}
    (hnames : names (letters 0 (by decide))) (hset : t.pathSet = true)
    (hlo : 0 ≤ t.storePathLen) (hshort : t.storePathLen < storePathSize)
    (hset' : s.pathSet = true) (hlong : storePathSize ≤ s.storePathLen)
    (hhi : s.storePathLen < 2147483648) : ¬ OutcomesAgree names s t := by
  have hsize : storePathSize = 64 := rfl
  have hadmitted : writeAdmits (letters 0 (by decide)) t = true := by
    rw [writeAdmits_letters _ hset, toSizeT_of_lt (by omega) (by omega)]
    omega
  have hrefused : ¬ writeAdmits (letters 0 (by decide)) s = true := by
    rw [writeAdmits_letters _ hset', toSizeT_of_lt (by omega) (by omega)]
    omega
  exact not_outcomesAgree hnames fun h => hrefused (h.trans hadmitted)

/-- A name that wraps its sum with the greater of two lengths around to 0. -/
theorem not_outcomesAgree_lt (hset : s.pathSet = true) (hlo : 0 ≤ s.storePathLen)
    (hlt : s.storePathLen < t.storePathLen) (hset' : t.pathSet = true)
    (hhi : t.storePathLen < 2147483648) :
    ¬ OutcomesAgree (fun _ => True) s t := by
  have hsize : storePathSize = 64 := rfl
  have hn : 4294967296 - t.storePathLen.toNat < 4294967296 := by omega
  have hwraps : writeAdmits (letters _ hn) t = true := by
    have hsum : ((4294967296 - t.storePathLen.toNat : Nat) : Int) +
        t.storePathLen = 4294967296 := by
      omega
    rw [writeAdmits_letters _ hset', hsum]
    decide
  have hrefused : ¬ writeAdmits (letters _ hn) s = true := by
    rw [writeAdmits_letters _ hset, toSizeT_of_lt (by omega) (by omega)]
    omega
  exact not_outcomesAgree trivial fun h => hrefused (h.trans hwraps)

end Distinguish

/-! ## When a failed call goes unnoticed -/

theorem outcomesAgree_unset {names : CString → Prop} {s : StorageState}
    (hset : s.pathSet = false) (length : Int) :
    OutcomesAgree names { s with storePathLen := length } s :=
  outcomesAgree_refused (fun _ haccess _ => not_admits_unset haccess hset)
    fun _ haccess _ => not_admits_unset haccess hset

theorem storage_invariant_of_reachable {files : Path → Option (List UInt8)}
    {s : StorageState × List (StorageCall × StorageResult)}
    (hs : (storageMachine files).Reachable s) : StorageInvariant s.1 s.2 :=
  hs.invariant (I := fun s => StorageInvariant s.1 s.2) (boot_invariant files)
    fun _ _ _ => storage_invariant_next

section Reachable

variable {files : Path → Option (List UInt8)}
  {s : StorageState × List (StorageCall × StorageResult)}

/--
A failed call goes unnoticed exactly when no directory was set yet, or when a
call with a string of the same length has failed already.
-/
theorem failsCleanly_iff (hs : (storageMachine files).Reachable s)
    (store : CString) :
    FailsCleanly s.1 store ↔ (TooLong store →
      s.1.pathSet = false ∨ s.1.storePathLen = store.strlen) := by
  obtain ⟨hlo, hhi, -⟩ := storage_invariant_of_reachable hs
  rw [FailsCleanly, failsWithout_iff]
  refine imp_congr_right fun hlong => ?_
  obtain ⟨hlong, hint⟩ := hlong
  constructor
  · intro hagree
    by_contra hnot
    rw [not_or, Bool.not_eq_false] at hnot
    obtain ⟨hset, hne⟩ := hnot
    rcases lt_or_gt_of_ne hne with hlt | hgt
    · exact not_outcomesAgree_lt (t := { s.1 with storePathLen := store.strlen })
        hset hlo hlt hset (by dsimp only; omega) hagree.symm
    · exact not_outcomesAgree_lt (s := { s.1 with storePathLen := store.strlen })
        hset (by dsimp only; omega) hgt hset hhi hagree
  · rintro (hset | hlen)
    · exact outcomesAgree_unset hset _
    · intro calls _
      rw [← hlen]

/-- With names that an `int` can count, any earlier failure will do. -/
theorem failsWithout_short_iff (hs : (storageMachine files).Reachable s)
    (store : CString) :
    FailsWithout (fun name => name.strlen < 2147483648) s.1 store ↔
      (TooLong store →
        s.1.pathSet = false ∨ storePathSize ≤ s.1.storePathLen) := by
  obtain ⟨hlo, hhi, -⟩ := storage_invariant_of_reachable hs
  rw [failsWithout_iff]
  refine imp_congr_right fun hlong => ?_
  obtain ⟨hlong, hint⟩ := hlong
  constructor
  · intro hagree
    by_contra hnot
    rw [not_or, Bool.not_eq_false, not_le] at hnot
    obtain ⟨hset, hshort⟩ := hnot
    exact not_outcomesAgree_short
      (s := { s.1 with storePathLen := store.strlen }) (by decide) hset hlo
      hshort hset (Int.ofNat_le.mpr hlong) (by dsimp only; omega) hagree
  · rintro (hset | hfailed)
    · exact outcomesAgree_unset hset _
    · refine outcomesAgree_refused ?_ ?_
      · intro call haccess hname
        exact not_admits_long haccess (Int.ofNat_le.mpr hlong)
          (by dsimp only; omega) hname
      · intro call haccess hname
        exact not_admits_long haccess hfailed hhi hname

end Reachable

/-- A directory is set, and a string of 64 letters has failed once. -/
theorem refused_failsCleanly : ∃ s,
    (storageMachine fun _ => none).run [.config (letters 1 (by decide)),
        .config (letters 64 (by decide))] = some s ∧
      s.1.pathSet = true ∧ FailsCleanly s.1 (letters 64 (by decide)) := by
  have hset : ((storageMachine fun _ => none).run
      [.config (letters 1 (by decide)), .config (letters 64 (by decide))]).any
        (fun s => s.1.pathSet && decide (s.1.storePathLen = 64)) = true := by
    decide +kernel
  obtain ⟨s, hrun, hs⟩ := (Option.any_eq_true _ _).mp hset
  rw [Bool.and_eq_true, decide_eq_true_eq] at hs
  have hlen : s.1.storePathLen = (letters 64 (by decide)).strlen := hs.2
  exact ⟨s, hrun, hs.1, (failsCleanly_iff ⟨_, hrun⟩ _).mpr fun _ => .inr hlen⟩

theorem failsCleanly_fails :
    ¬ ∀ (files : Path → Option (List UInt8)) s,
      (storageMachine files).Reachable s →
      ∀ store, FailsCleanly s.1 store := by
  intro h
  have hname : (letters 1 (by decide)).strlen < storePathSize := by decide
  obtain ⟨storePath, hconfig, -⟩ :=
    config_short (bootStorage fun _ => none) hname
  let t : StorageState := { bootStorage (fun _ => none) with
    storePath := storePath, storePathLen := 1, pathSet := true }
  let log := [(StorageCall.config (letters 1 (by decide)),
    (⟨.ok 0, none, []⟩ : StorageResult))]
  have hreachable : (storageMachine fun _ => none).Reachable (t, log) := by
    refine ⟨[.config (letters 1 (by decide))], ?_⟩
    have hnext : (storageMachine fun _ => none).next
        (bootStorage fun _ => none, []) (.config (letters 1 (by decide))) =
          some (t, log) :=
      Machine.logging_next.mpr ⟨_, hconfig, rfl⟩
    rw [Machine.run, Machine.runFrom_cons]
    exact congrArg (Option.bind · _) hnext
  have hagree := failsWithout_iff.mp
    (h _ _ hreachable (letters 64 (by decide))) ⟨by decide, by decide⟩
  have hshort : (1 : Int) < storePathSize := by decide
  have hlong : (storePathSize : Int) ≤ 64 := by decide
  have hint : (64 : Int) < 2147483648 := by decide
  exact not_outcomesAgree_short (s := { t with storePathLen := 64 }) trivial rfl
    Int.one_nonneg hshort rfl hlong hint hagree

end EspIotivity.Adapter
