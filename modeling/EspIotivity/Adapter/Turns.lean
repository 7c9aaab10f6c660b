import EspIotivity.Adapter.ExactlyOnce

/-!
# Turns of the ready descriptors

The number of iterations is fixed by `n`, but an iteration whose `recvfrom`
fails leaves its descriptor set, so that the next one serves it again.
-/

namespace EspIotivity.Adapter

open EspIotivity.Foundation

/-! ## The descriptors received from -/

def recvSock (dev : IpContext) : ReceiveEvent → Option Int
  | .attempt role _ => some (dev.sock role)
  | _ => none

/-- The argument of each `recvfrom`, in order. -/
def recvSocks (dev : IpContext) (events : List ReceiveEvent) : List Int :=
  events.filterMap (recvSock dev)

def EachOnce (setfds : Finset Int) (socks : List Int) : Prop :=
  ∀ fd ∈ setfds, socks.count fd = 1

instance (setfds : Finset Int) (socks : List Int) :
    Decidable (EachOnce setfds socks) :=
  inferInstanceAs (Decidable (∀ fd ∈ setfds, socks.count fd = 1))

/-- The descriptors received from in the iterations from `i` on. -/
def loopSocks (cfg : BuildConfig) (dev : IpContext) (env : ReceiveEnv) :
    Nat → Nat → PassVars → List Int
  | 0, _, _ => []
  | remaining + 1, i, v =>
      match env.allocate i with
      | none => []
      | some message =>
          recvSocks dev (loopBody cfg dev env message v).events ++
            loopSocks cfg dev env remaining (i + 1)
              (v.advance i (loopBody cfg dev env message v))

/-- The descriptor of the first branch whose `FD_ISSET` holds. -/
def firstSock (setfds : Finset Int) (list : List ReceiveBranch) : Option Int :=
  (list.find? (·.sock ∈ setfds)).map (·.sock)

section Branches

variable {cfg : BuildConfig} {dev : IpContext} {env : ReceiveEnv}

theorem recvSocks_append (first second : List ReceiveEvent) :
    recvSocks dev (first ++ second) =
      recvSocks dev first ++ recvSocks dev second :=
  List.filterMap_append

theorem recvSocks_failed {branch : ReceiveBranch}
    (hsock : dev.sock branch.role = branch.sock) (v : BodyVars) :
    recvSocks dev (branch.failed v).events =
      recvSocks dev v.events ++ [branch.sock] := by
  simp [ReceiveBranch.failed, recvSocks, recvSock, hsock]

theorem recvSocks_received {branch : ReceiveBranch}
    (hsock : dev.sock branch.role = branch.sock) (datagram : Datagram)
    (v : BodyVars) :
    recvSocks dev (branch.received dev datagram v).events =
      recvSocks dev v.events ++ [branch.sock] := by
  simp [ReceiveBranch.received, recvSocks, recvSock, hsock]

variable (env) in
/-- Only ready descriptors are received from, the first ready one first. -/
theorem runBranches_socks {list : List ReceiveBranch}
    (hlist : ∀ branch ∈ list, dev.sock branch.role = branch.sock)
    (v : BodyVars) :
    ∃ later, recvSocks dev (runBranches env dev list v).2.events =
        recvSocks dev v.events ++ later ∧
      (∀ fd ∈ later, fd ∈ v.setfds) ∧
      later.head? = firstSock v.setfds list ∧
      (runBranches env dev list v).2.setfds ⊆ v.setfds := by
  induction list generalizing v with
  | nil => exact ⟨[], by simp [runBranches, firstSock]⟩
  | cons branch list ih =>
      rw [List.forall_mem_cons] at hlist
      rw [runBranches]
      by_cases hready : branch.sock ∈ v.setfds
      · have hfirst : firstSock v.setfds (branch :: list) = some branch.sock := by
          simp [firstSock, hready]
        rw [hfirst]
        cases hrecv : env.recvfrom v.recvCalls with
        | none =>
            rw [run_failed hready hrecv]
            exact ⟨[branch.sock], recvSocks_failed hlist.1 v,
              by simpa using hready, rfl, subset_rfl⟩
        | some datagram =>
            rw [run_received hready hrecv]
            have hevents := recvSocks_received hlist.1 datagram v
            have herase : (branch.received dev datagram v).setfds ⊆ v.setfds :=
              Finset.erase_subset _ _
            obtain ⟨later, hlater, hsub, -, hset⟩ :=
              ih hlist.2 (branch.received dev datagram v)
            cases branch.after with
            | fallThrough =>
                refine ⟨branch.sock :: later, ?_, ?_, rfl, hset.trans herase⟩
                · simp [hlater, hevents]
                · rw [List.forall_mem_cons]
                  exact ⟨hready, fun fd hfd => herase (hsub fd hfd)⟩
            | common | nextIteration =>
                exact ⟨[branch.sock], hevents, by simpa using hready, rfl,
                  herase⟩
      · rw [run_notReady hready]
        have hfirst : firstSock v.setfds (branch :: list) =
            firstSock v.setfds list := by
          simp [firstSock, hready]
        rw [hfirst]
        exact ih hlist.2 v

theorem receiveLoop_socks (remaining i : Nat) (v : PassVars) :
    recvSocks dev ((receiveLoop cfg dev env remaining i v).trace.map Prod.snd) =
      recvSocks dev (v.trace.map Prod.snd) ++
        loopSocks cfg dev env remaining i v := by
  induction remaining generalizing i v with
  | zero => simp [receiveLoop, loopSocks]
  | succ remaining ih =>
      rw [receiveLoop, loopSocks]
      cases env.allocate i with
      | none => simp
      | some message =>
          simp only [ih, PassVars.advance, List.map_append, List.map_map,
            Function.comp_def, List.map_id', recvSocks_append,
            List.append_assoc]

variable (cfg dev env) in
theorem loopBody_runBranches (message : OcMessage) (v : PassVars) :
    (loopBody cfg dev env message v).setfds =
        (runBranches env dev (branches cfg dev)
          ⟨message, v.setfds, v.client, v.recvCalls, [.acquire]⟩).2.setfds ∧
      recvSocks dev (loopBody cfg dev env message v).events =
        recvSocks dev (runBranches env dev (branches cfg dev)
          ⟨message, v.setfds, v.client, v.recvCalls, [.acquire]⟩).2.events := by
  unfold loopBody
  split
  case h_1 w hrun =>
    rw [hrun]
    exact ⟨rfl, rfl⟩
  case h_2 w hne hrun =>
    rw [hrun]
    exact ⟨rfl, by simp [deliverCommon, recvSocks, recvSock]⟩

variable (cfg dev env) in
theorem loopBody_socks (message : OcMessage) (v : PassVars) :
    (∀ fd ∈ recvSocks dev (loopBody cfg dev env message v).events,
      fd ∈ v.setfds) ∧
      (recvSocks dev (loopBody cfg dev env message v).events).head? =
        firstSock v.setfds (branches cfg dev) ∧
      (loopBody cfg dev env message v).setfds ⊆ v.setfds := by
  obtain ⟨later, hlater, hready, hfirst, hset⟩ := runBranches_socks env
    (branch_sock cfg dev)
    ⟨message, v.setfds, v.client, v.recvCalls, [.acquire]⟩
  rw [show recvSocks dev [.acquire] = [] from rfl, List.nil_append] at hlater
  obtain ⟨hsetfds, hevents⟩ := loopBody_runBranches cfg dev env message v
  rw [hsetfds, hevents, hlater]
  exact ⟨hready, hfirst, hset⟩

variable (cfg dev env) in
theorem loopSocks_ready (remaining i : Nat) (v : PassVars) :
    ∀ fd ∈ loopSocks cfg dev env remaining i v, fd ∈ v.setfds := by
  induction remaining generalizing i v with
  | zero => simp [loopSocks]
  | succ remaining ih =>
      rw [loopSocks]
      cases env.allocate i with
      | none => simp
      | some message =>
          obtain ⟨hready, -, hset⟩ :=
            loopBody_socks cfg dev env message v
          intro fd hfd
          rcases List.mem_append.mp hfd with hnow | hlater
          · exact hready fd hnow
          · exact hset (ih _ _ fd hlater)

end Branches

/-! ## Whose turn it is -/

section Turns

variable {cfg : BuildConfig} {dev : IpContext} {env : ReceiveEnv}
  {setfds : Finset Int} {fd : Int} {socks : List Int}

/-- From the `k`th on, all receives but the last succeed, or all. -/
def EarlySucceed (cfg : BuildConfig) (dev : IpContext)
    (recvfrom : Nat → Option Datagram) (setfds : Finset Int) (k : Nat) : Prop :=
  (∀ j, j + 1 < setfds.card → (recvfrom (k + j)).isSome = true) ∧
    (BothSecure cfg dev setfds →
      (recvfrom (k + (setfds.card - 1))).isSome = true)

theorem eachOnce_cons
    (hsocks : ∀ other ∈ socks, other ∈ setfds.erase fd) :
    EachOnce setfds (fd :: socks) ↔ EachOnce (setfds.erase fd) socks := by
  have hnot : fd ∉ socks := fun h => Finset.notMem_erase fd _ (hsocks fd h)
  constructor
  · intro h other hother
    obtain ⟨hne, hmem⟩ := Finset.mem_erase.mp hother
    rw [← h other hmem, List.count_cons_of_ne hne.symm]
  · intro h other hother
    by_cases heq : other = fd
    · rw [heq, List.count_cons_self, List.count_eq_zero_of_not_mem hnot]
    · rw [List.count_cons_of_ne (Ne.symm heq)]
      exact h other (Finset.mem_erase.mpr ⟨heq, hother⟩)

theorem not_eachOnce (hfd : fd ∈ setfds) (hcount : 2 ≤ socks.count fd) :
    ¬ EachOnce setfds socks := by
  intro h
  rw [h fd hfd] at hcount
  omega

theorem two_le_card_of_bothSecure (h : BothSecure cfg dev setfds) :
    2 ≤ setfds.card := by
  have hpair : {dev.secureSock, dev.secure4Sock} ⊆ setfds := by
    rw [Finset.insert_subset_iff, Finset.singleton_subset_iff]
    exact ⟨(Finset.mem_sdiff.mp h.secure).1, (Finset.mem_sdiff.mp h.secure4).1⟩
  calc 2 = ({dev.secureSock, dev.secure4Sock} : Finset Int).card :=
        (Finset.card_pair h.distinct).symm
    _ ≤ setfds.card := Finset.card_le_card hpair

theorem loopSocks_succ {i : Nat} {message : OcMessage}
    (hmessage : env.allocate i = some message) (remaining : Nat)
    (v : PassVars) :
    loopSocks cfg dev env (remaining + 1) i v =
      recvSocks dev (loopBody cfg dev env message v).events ++
        loopSocks cfg dev env remaining (i + 1)
          (v.advance i (loopBody cfg dev env message v)) := by
  rw [loopSocks, hmessage]

theorem loopSocks_head (remaining : Nat) {i : Nat} {v : PassVars}
    (halloc : (env.allocate i).isSome = true)
    (hfirst : firstSock v.setfds (branches cfg dev) = some fd) :
    ∃ later, loopSocks cfg dev env (remaining + 1) i v = fd :: later := by
  obtain ⟨message, hmessage⟩ := Option.isSome_iff_exists.mp halloc
  obtain ⟨-, hhead, -⟩ := loopBody_socks cfg dev env message v
  rw [hfirst] at hhead
  obtain ⟨later, hlater⟩ := List.head?_eq_some_iff.mp hhead
  rw [loopSocks_succ hmessage, hlater]
  exact ⟨_, List.cons_append⟩

theorem exists_firstSock (hne : setfds.Nonempty)
    (hsub : setfds ⊆ rfds cfg dev) :
    ∃ fd ∈ setfds, firstSock setfds (branches cfg dev) = some fd := by
  obtain ⟨fd, hfd⟩ := hne
  obtain ⟨branch, hbranch, rfl⟩ := mem_rfds.mp (hsub hfd)
  have hfound : ((branches cfg dev).find? (·.sock ∈ setfds)).isSome := by
    rw [List.find?_isSome]
    exact ⟨branch, hbranch, decide_eq_true hfd⟩
  obtain ⟨first, hfirst⟩ := Option.isSome_iff_exists.mp hfound
  have hready := List.find?_some hfirst
  refine ⟨first.sock, of_decide_eq_true hready, ?_⟩
  simp [firstSock, hfirst]

/-- After a failure the same descriptor has the next turn too. -/
theorem failed_turn (halloc : ∀ i, (env.allocate i).isSome = true)
    {v w : PassVars} {remaining i : Nat}
    (hcard : v.setfds.card = remaining + 1) (hfd : fd ∈ v.setfds)
    (hfirst : firstSock v.setfds (branches cfg dev) = some fd)
    (hrecv : env.recvfrom v.recvCalls = none) (hset : w.setfds = v.setfds) :
    EachOnce v.setfds (fd :: loopSocks cfg dev env remaining i w) ↔
      EarlySucceed cfg dev env.recvfrom v.setfds v.recvCalls := by
  cases remaining with
  | zero =>
      obtain ⟨only, honly⟩ := Finset.card_eq_one.mp hcard
      apply iff_of_true
      · intro other hother
        rw [honly, Finset.mem_singleton] at hfd hother
        simp [loopSocks, hfd, hother]
      · refine ⟨fun j hj => by omega, fun hboth => ?_⟩
        have htwo := two_le_card_of_bothSecure hboth
        omega
  | succ remaining =>
      rw [← hset] at hfirst
      obtain ⟨later, hlater⟩ := loopSocks_head remaining (halloc i) hfirst
      apply iff_of_false
      · rw [hlater]
        exact not_eachOnce hfd (by simp)
      · intro h
        have hnow := h.1 0 (by omega)
        rw [Nat.add_zero, hrecv] at hnow
        cases hnow

theorem earlySucceed_erase {recvfrom : Nat → Option Datagram} {k : Nat}
    (hfd : fd ∈ setfds) (hrecv : (recvfrom k).isSome = true)
    (hboth : BothSecure cfg dev (setfds.erase fd) ↔
      BothSecure cfg dev setfds) :
    EarlySucceed cfg dev recvfrom (setfds.erase fd) (k + 1) ↔
      EarlySucceed cfg dev recvfrom setfds k := by
  have hcard := Finset.card_erase_add_one hfd
  unfold EarlySucceed
  rw [hboth]
  apply and_congr
  · constructor
    · intro h j hj
      cases j with
      | zero => exact hrecv
      | succ j =>
          rw [show k + (j + 1) = k + 1 + j by omega]
          exact h j (by omega)
    · intro h j hj
      rw [show k + 1 + j = k + (j + 1) by omega]
      exact h (j + 1) (by omega)
  · refine imp_congr_right fun h => ?_
    have htwo := two_le_card_of_bothSecure (hboth.mpr h)
    rw [show k + 1 + ((setfds.erase fd).card - 1) = k + (setfds.card - 1) by
      omega]

/-- Serving a descriptor does not change whether both secure ones are next. -/
theorem bothSecure_served
    (hboth : setfds ∩ openFds cfg dev = ∅ → ¬ BothSecure cfg dev setfds)
    (hopen : (setfds ∩ openFds cfg dev).Nonempty → fd ∈ openFds cfg dev) :
    BothSecure cfg dev (setfds.erase fd) ↔ BothSecure cfg dev setfds := by
  rcases (setfds ∩ openFds cfg dev).eq_empty_or_nonempty with hempty | hne
  · have hnot := hboth hempty
    exact iff_of_false
      (fun h => hnot (bothSecure_mono (Finset.erase_subset _ _) h)) hnot
  · exact bothSecure_erase (hopen hne)

theorem bothSecure_pair (hboth : BothSecure cfg dev setfds)
    (hopen : setfds ∩ openFds cfg dev = ∅) (hsub : setfds ⊆ rfds cfg dev) :
    setfds = {dev.secureSock, dev.secure4Sock} := by
  ext fd
  rw [Finset.mem_insert, Finset.mem_singleton]
  constructor
  · intro hfd
    have hclosed : fd ∉ openFds cfg dev := by
      intro h
      have hmem := Finset.mem_inter.mpr ⟨hfd, h⟩
      rw [hopen] at hmem
      exact Finset.notMem_empty fd hmem
    obtain ⟨branch, hbranch, rfl⟩ :=
      (mem_rfds_or.mp (hsub hfd)).resolve_left hclosed
    rw [secureBranches_both hboth.ocIpv4 hboth.ocSecurity] at hbranch
    rcases List.mem_pair.mp hbranch with rfl | rfl
    · exact .inl rfl
    · exact .inr rfl
  · rintro (rfl | rfl)
    · exact (Finset.mem_sdiff.mp hboth.secure).1
    · exact (Finset.mem_sdiff.mp hboth.secure4).1

theorem bothSecure_card (hboth : BothSecure cfg dev setfds)
    (hopen : setfds ∩ openFds cfg dev = ∅) (hsub : setfds ⊆ rfds cfg dev) :
    setfds.card = 2 := by
  rw [bothSecure_pair hboth hopen hsub]
  exact Finset.card_pair hboth.distinct

section Collision

variable {v : PassVars}

theorem earlySucceed_bothSecure {first : Datagram}
    (hboth : BothSecure cfg dev v.setfds) (hcard : v.setfds.card = 2)
    (hrecv : env.recvfrom v.recvCalls = some first) :
    EarlySucceed cfg dev env.recvfrom v.setfds v.recvCalls ↔
      (env.recvfrom (v.recvCalls + 1)).isSome = true := by
  unfold EarlySucceed
  rw [hcard]
  constructor
  · exact fun h => h.2 hboth
  · intro h
    refine ⟨fun j hj => ?_, fun _ => h⟩
    obtain rfl : j = 0 := by omega
    simp [hrecv]

/-- The second secure socket, failing, is received from again. -/
theorem lost_turn (halloc : ∀ i, (env.allocate i).isSome = true) {w : PassVars}
    (hboth : BothSecure cfg dev v.setfds)
    (hpair : v.setfds = {dev.secureSock, dev.secure4Sock})
    (hsub : v.setfds ⊆ rfds cfg dev)
    (hset : w.setfds = v.setfds.erase dev.secureSock) (i : Nat) :
    ¬ EachOnce v.setfds (dev.secureSock :: dev.secure4Sock ::
      loopSocks cfg dev env 1 i w) := by
  have hleft : w.setfds = {dev.secure4Sock} := by
    rw [hset, hpair, Finset.erase_insert (by simpa using hboth.distinct)]
  have hsub' : w.setfds ⊆ rfds cfg dev := by
    rw [hset]
    exact (Finset.erase_subset _ _).trans hsub
  obtain ⟨fd, hfd, hfirst⟩ := exists_firstSock (by simp [hleft]) hsub'
  rw [hleft, Finset.mem_singleton] at hfd
  obtain ⟨later, hlater⟩ := loopSocks_head 0 (halloc i) hfirst
  rw [hlater, hfd]
  apply not_eachOnce (Finset.mem_sdiff.mp hboth.secure4).1
  simp [List.count_cons]
  omega

theorem overwritten_turn {w : PassVars} (hboth : BothSecure cfg dev v.setfds)
    (hpair : v.setfds = {dev.secureSock, dev.secure4Sock})
    (hset : w.setfds =
      (v.setfds.erase dev.secureSock).erase dev.secure4Sock) (i : Nat) :
    EachOnce v.setfds (dev.secureSock :: dev.secure4Sock ::
      loopSocks cfg dev env 1 i w) := by
  have hempty : w.setfds = ∅ := by
    rw [hset, hpair, Finset.erase_insert (by simpa using hboth.distinct)]
    simp
  have hnone : loopSocks cfg dev env 1 i w = [] := by
    rw [List.eq_nil_iff_forall_not_mem]
    intro fd hfd
    have hready := loopSocks_ready cfg dev env 1 i w fd hfd
    simp [hempty] at hready
  have hdistinct := hboth.distinct
  rw [hnone, hpair]
  intro fd hfd
  rw [Finset.mem_insert, Finset.mem_singleton] at hfd
  rcases hfd with rfl | rfl
  · simp [hdistinct.symm]
  · simp [hdistinct]

end Collision

variable (cfg dev env) in
theorem loopSocks_eachOnce_iff (halloc : ∀ i, (env.allocate i).isSome = true)
    {remaining i : Nat} {v : PassVars} (hcard : v.setfds.card = remaining)
    (hsub : v.setfds ⊆ rfds cfg dev) :
    EachOnce v.setfds (loopSocks cfg dev env remaining i v) ↔
      EarlySucceed cfg dev env.recvfrom v.setfds v.recvCalls := by
  induction remaining generalizing i v with
  | zero =>
      rw [Finset.card_eq_zero] at hcard
      apply iff_of_true
      · simp [EachOnce, hcard]
      · refine ⟨by simp [hcard], fun hboth => ?_⟩
        have htwo := two_le_card_of_bothSecure hboth
        simp [hcard] at htwo
  | succ remaining ih =>
      obtain ⟨message, hmessage⟩ := Option.isSome_iff_exists.mp (halloc i)
      have hiteration := loopBody_iteration env message hsub
      obtain ⟨-, hhead, -⟩ := loopBody_socks cfg dev env message v
      rw [loopSocks_succ hmessage]
      generalize loopBody cfg dev env message v = w at hiteration hhead ⊢
      cases hiteration with
      | idle _ hidle => simp [hidle] at hcard
      | failed _ branch hbranch hready hrecv =>
          have hsock := branch_sock cfg dev branch hbranch
          have hfirst : firstSock v.setfds (branches cfg dev) =
              some branch.sock := by
            rw [← hhead, ← hsock]
            rfl
          change EachOnce v.setfds (dev.sock branch.role :: _) ↔ _
          rw [hsock]
          exact failed_turn halloc hcard hready hfirst hrecv rfl
      | received _ branch datagram hbranch hready hboth hopen hrecv =>
          have hkeeps := bothSecure_served hboth hopen
          change EachOnce v.setfds (dev.sock branch.role ::
            loopSocks cfg dev env remaining (i + 1) _) ↔ _
          rw [branch_sock cfg dev branch hbranch,
            eachOnce_cons (loopSocks_ready cfg dev env remaining (i + 1) _),
            ← earlySucceed_erase hready (by simp [hrecv]) hkeeps]
          have hcard' : (v.setfds.erase branch.sock).card = remaining :=
            Nat.succ.inj ((Finset.card_erase_add_one hready).trans hcard)
          exact ih (v := v.advance i ⟨_, _, _, _, _⟩) hcard'
            ((Finset.erase_subset _ _).trans hsub)
      | lost _ first hboth hopen hrecv hrecv4 =>
          have hpair := bothSecure_pair hboth hopen hsub
          have htwo := bothSecure_card hboth hopen hsub
          obtain rfl : remaining = 1 := by omega
          rw [earlySucceed_bothSecure hboth htwo hrecv, hrecv4]
          exact iff_of_false (lost_turn halloc hboth hpair hsub rfl _) (by simp)
      | overwritten _ first second hboth hopen hrecv hrecv4 =>
          have hpair := bothSecure_pair hboth hopen hsub
          have htwo := bothSecure_card hboth hopen hsub
          obtain rfl : remaining = 1 := by omega
          rw [earlySucceed_bothSecure hboth htwo hrecv, hrecv4]
          exact iff_of_true (overwritten_turn hboth hpair rfl _) rfl

end Turns

/-! ## The whole pass -/

/-- Each ready descriptor has one turn if and only if the receives succeed. -/
theorem receivePass_eachOnce_iff (cfg : BuildConfig) (dev : IpContext)
    (messages : Nat → OcMessage) (recvfrom : Nat → Option Datagram)
    (ready : Ready cfg dev) (client : SockaddrStorage) :
    EachOnce ready.setfds (recvSocks dev ((receivePass cfg dev
      ⟨fun i => some (messages i), recvfrom⟩ ready client).trace.map Prod.snd)) ↔
      EarlySucceed cfg dev recvfrom ready.setfds 0 := by
  rw [receivePass, receiveLoop_socks]
  exact loopSocks_eachOnce_iff cfg dev ⟨fun i => some (messages i), recvfrom⟩
    (fun _ => rfl) (v := ⟨ready.setfds, client, 0, []⟩) rfl ready.watched

/-- The first receive fails: the second socket never has its turn. -/
theorem receivePass_starves :
    ¬ ∀ (cfg : BuildConfig) (dev : IpContext) (messages : Nat → OcMessage)
      (recvfrom : Nat → Option Datagram) (ready : Ready cfg dev)
      (client : SockaddrStorage), ready.setfds.Nonempty →
      EachOnce ready.setfds (recvSocks dev ((receivePass cfg dev
        ⟨fun i => some (messages i), recvfrom⟩ ready client).trace.map
          Prod.snd)) := by
  intro h
  let cfg : BuildConfig := ⟨false, false, false, false⟩
  let dev : IpContext := { IpContext.zero with serverSock := 3, mcastSock := 4 }
  let ready : Ready cfg dev := ⟨{3, 4}, by decide⟩
  have honce := h cfg dev (fun _ => ⟨0, [], ⟨0, {}, .ipv6 0 0 0⟩⟩)
    (fun j => if j = 0 then none else some ⟨[1], .zero⟩) ready .zero
    (by decide)
  exact absurd honce (by decide +kernel)

end EspIotivity.Adapter
