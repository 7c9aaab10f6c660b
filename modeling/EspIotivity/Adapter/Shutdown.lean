import EspIotivity.Adapter.Turns
import EspIotivity.Adapter.Watched
import EspIotivity.Foundation.Machine

/-!
# Shutdown against the event thread

`oc_connectivity_shutdown` stores `terminate`, closes the sockets and only
then cancels and joins the thread, which tests `terminate` once for each
`select`.  A close is harmless when the thread, going on from where it stands,
does not come back to that descriptor before its next test.
-/

namespace EspIotivity.Adapter

open EspIotivity.Foundation

/-! ## The two parties -/

/--
Where the event thread stands.  `remaining` counts the iterations after the
current one, and `rest` the branches after the one about to receive.
-/
inductive ThreadPoint where
  | testing
  | selecting
  | allocating (remaining : Nat) (setfds : Finset Int)
  | receiving (remaining : Nat) (setfds : Finset Int) (branch : ReceiveBranch)
      (rest : List ReceiveBranch)
  | left
  deriving DecidableEq

/-- A step carries what the call returns; a failing `select` reports nothing. -/
inductive ThreadStep where
  | test
  | select (setfds : Finset Int)
  | allocate (ok : Bool)
  | recvfrom (ok : Bool)
  deriving DecidableEq

inductive ShutdownOp where
  | terminate
  | close (fd : Int)
  | cancel
  | join
  deriving DecidableEq

structure ShutdownState where
  pending : List ShutdownOp
  terminate : Bool
  closed : Finset Int
  cancelled : Bool
  thread : ThreadPoint
  deriving DecidableEq

inductive ShutdownAct where
  | shutdown
  | thread (step : ThreadStep)
  | die
  deriving DecidableEq

/-- The test `i < n`. -/
def loopTest : Nat → Finset Int → ThreadPoint
  | 0, _ => .testing
  | remaining + 1, setfds => .allocating remaining setfds

/-- On to the first `recvfrom` of the branches left, or to the next test. -/
def tryBranches (remaining : Nat) (setfds : Finset Int) :
    List ReceiveBranch → ThreadPoint
  | [] => loopTest remaining setfds
  | branch :: rest =>
      if branch.sock ∈ setfds then .receiving remaining setfds branch rest
      else tryBranches remaining setfds rest

def ThreadPoint.next (cfg : BuildConfig) (dev : IpContext) (terminate : Bool) :
    ThreadPoint → ThreadStep → Option ThreadPoint
  | .testing, .test => some (if terminate then .left else .selecting)
  | .selecting, .select setfds =>
      if setfds ⊆ selectable cfg dev then some (loopTest setfds.card setfds)
      else none
  | .allocating remaining setfds, .allocate ok =>
      some (if ok then tryBranches remaining setfds (branches cfg dev)
        else .testing)
  | .receiving remaining setfds branch rest, .recvfrom ok =>
      some (match ok, branch.after with
        | false, _ => loopTest remaining setfds
        | true, .fallThrough =>
            tryBranches remaining (setfds.erase branch.sock) rest
        | true, _ => loopTest remaining (setfds.erase branch.sock))
  | _, _ => none

section Next

variable {cfg : BuildConfig} {dev : IpContext} {branch : ReceiveBranch}
  {remaining : Nat} {setfds : Finset Int} {rest : List ReceiveBranch}

theorem next_select (hsub : setfds ⊆ selectable cfg dev) (terminate : Bool) :
    ThreadPoint.selecting.next cfg dev terminate (.select setfds) =
      some (loopTest setfds.card setfds) :=
  if_pos hsub

theorem next_secure (hafter : branch.after = .fallThrough) (terminate : Bool) :
    (ThreadPoint.receiving remaining setfds branch rest).next cfg dev terminate
        (.recvfrom true) =
      some (tryBranches remaining (setfds.erase branch.sock) rest) := by
  simp [ThreadPoint.next, hafter]

theorem next_common (hafter : branch.after ≠ .fallThrough) (terminate : Bool) :
    (ThreadPoint.receiving remaining setfds branch rest).next cfg dev terminate
        (.recvfrom true) =
      some (loopTest remaining (setfds.erase branch.sock)) := by
  cases h : branch.after <;> simp_all [ThreadPoint.next]

end Next

def shutdownOps (cfg : BuildConfig) (dev : IpContext) : List ShutdownOp :=
  .terminate :: (closedSocks cfg dev).map .close ++ [.cancel, .join]

/-- `pthread_join` returns once the thread has left. -/
def ShutdownState.perform (s : ShutdownState) :
    ShutdownOp → Option ShutdownState
  | .terminate => some { s with terminate := true }
  | .close fd => some { s with closed := insert fd s.closed }
  | .cancel => some { s with cancelled := true }
  | .join => if s.thread = .left then some s else none

def ShutdownState.next (cfg : BuildConfig) (dev : IpContext)
    (s : ShutdownState) : ShutdownAct → Option ShutdownState
  | .shutdown =>
      match s.pending with
      | [] => none
      | op :: pending => ShutdownState.perform { s with pending } op
  | .thread step =>
      (s.thread.next cfg dev s.terminate step).map fun thread =>
        { s with thread }
  | .die => if s.cancelled then some { s with thread := .left } else none

def shutdownMachine (cfg : BuildConfig) (dev : IpContext) :
    Machine ShutdownState ShutdownAct :=
  ⟨⟨shutdownOps cfg dev, false, ∅, false, .testing⟩,
    ShutdownState.next cfg dev⟩

def ShutdownOp.call (dev : IpContext) : ShutdownOp → Option NetCall
  | .terminate => none
  | .close fd => some (.close fd)
  | .cancel => some (.pthreadCancel dev.eventThread)
  | .join => some (.pthreadJoin dev.eventThread)

theorem shutdownOps_calls (cfg : BuildConfig) (dev : IpContext) :
    (shutdownOps cfg dev).filterMap (ShutdownOp.call dev) =
      (closedSocks cfg dev).map .close ++
        [.pthreadCancel dev.eventThread, .pthreadJoin dev.eventThread] := by
  have hclose : (closedSocks cfg dev).filterMap
      (ShutdownOp.call dev ∘ ShutdownOp.close) =
        (closedSocks cfg dev).map NetCall.close :=
    congrFun (List.filterMap_eq_map (f := NetCall.close)) _
  rw [shutdownOps, List.cons_append, List.filterMap_cons_none rfl,
    List.filterMap_append, List.filterMap_map, hclose]
  rfl

/-- The machine performs what `oc_connectivity_shutdown` does, in its order. -/
theorem ocConnectivityShutdown_ops {cfg : BuildConfig} {device : Int}
    {s t : AdapterState} (h : ocConnectivityShutdown cfg device s = some t) :
    ∃ ref, getIpContextForDevice cfg device s = some ref ∧
      (t.memory ref).terminate = 1 ∧
      t.calls = s.calls ++ (shutdownOps cfg (s.memory ref)).filterMap
        (ShutdownOp.call (s.memory ref)) := by
  obtain ⟨ref, hget, rfl⟩ := Option.map_eq_some_iff.mp h
  refine ⟨ref, hget, by simp, ?_⟩
  rw [shutdownOps_calls, ← List.append_assoc]

/-! ## The thread runs the receive loop -/

/-- The thread gets from one point to another by receiving from `socks`. -/
inductive Receives (cfg : BuildConfig) (dev : IpContext) (terminate : Bool) :
    ThreadPoint → List Int → ThreadPoint → Prop
  | refl (point : ThreadPoint) : Receives cfg dev terminate point [] point
  | allocate {point next last : ThreadPoint} {socks : List Int} (ok : Bool)
      (hnext : point.next cfg dev terminate (.allocate ok) = some next)
      (hrest : Receives cfg dev terminate next socks last) :
      Receives cfg dev terminate point socks last
  | recvfrom {remaining : Nat} {setfds : Finset Int} {branch : ReceiveBranch}
      {rest : List ReceiveBranch} {next last : ThreadPoint} {socks : List Int}
      (ok : Bool)
      (hnext : (ThreadPoint.receiving remaining setfds branch rest).next cfg dev
        terminate (.recvfrom ok) = some next)
      (hrest : Receives cfg dev terminate next socks last) :
      Receives cfg dev terminate (.receiving remaining setfds branch rest)
        (branch.sock :: socks) last

section Loop

variable {cfg : BuildConfig} {dev : IpContext} {env : ReceiveEnv}
  {terminate : Bool}

theorem Receives.trans {first second third : ThreadPoint}
    {socks later : List Int} (h : Receives cfg dev terminate first socks second)
    (hlater : Receives cfg dev terminate second later third) :
    Receives cfg dev terminate first (socks ++ later) third := by
  induction h with
  | refl point => exact hlater
  | allocate ok hnext _ ih => exact .allocate ok hnext (ih hlater)
  | recvfrom ok hnext _ ih => exact .recvfrom ok hnext (ih hlater)

variable (env) in
theorem receives_runBranches {list : List ReceiveBranch} (remaining : Nat)
    (hlist : ∀ branch ∈ list, dev.sock branch.role = branch.sock)
    (v : BodyVars) :
    ∃ later, recvSocks dev (runBranches env dev list v).2.events =
        recvSocks dev v.events ++ later ∧
      Receives cfg dev terminate (tryBranches remaining v.setfds list) later
        (loopTest remaining (runBranches env dev list v).2.setfds) := by
  induction list generalizing v with
  | nil => exact ⟨[], by simp [runBranches], .refl _⟩
  | cons branch list ih =>
      rw [List.forall_mem_cons] at hlist
      rw [runBranches, tryBranches]
      by_cases hready : branch.sock ∈ v.setfds
      · rw [if_pos hready]
        cases hrecv : env.recvfrom v.recvCalls with
        | none =>
            rw [run_failed hready hrecv]
            exact ⟨[branch.sock], recvSocks_failed hlist.1 v,
              .recvfrom false rfl (.refl _)⟩
        | some datagram =>
            rw [run_received hready hrecv]
            have hevents := recvSocks_received hlist.1 datagram v
            obtain ⟨later, hlater, hreceives⟩ :=
              ih hlist.2 (branch.received dev datagram v)
            cases hafter : branch.after with
            | fallThrough =>
                exact ⟨branch.sock :: later, by simp [hlater, hevents],
                  .recvfrom true (next_secure hafter terminate) hreceives⟩
            | common | nextIteration =>
                have hstays : branch.after ≠ .fallThrough := by simp [hafter]
                exact ⟨[branch.sock], hevents,
                  .recvfrom true (next_common hstays terminate) (.refl _)⟩
      · rw [if_neg hready, run_notReady hready]
        exact ih hlist.2 v

/-- Each pass of the loop is a run of the thread from `select` to the test. -/
theorem receives_receiveLoop (remaining i : Nat) (v : PassVars) :
    Receives cfg dev terminate (loopTest remaining v.setfds)
      (loopSocks cfg dev env remaining i v) .testing := by
  induction remaining generalizing i v with
  | zero => exact .refl _
  | succ remaining ih =>
      rw [loopSocks]
      cases env.allocate i with
      | none => exact .allocate false rfl (.refl _)
      | some message =>
          obtain ⟨later, hlater, hreceives⟩ := receives_runBranches env
            remaining (branch_sock cfg dev)
            ⟨message, v.setfds, v.client, v.recvCalls, [.acquire]⟩
          obtain ⟨hsetfds, hevents⟩ := loopBody_runBranches cfg dev env message v
          rw [show recvSocks dev [.acquire] = [] from rfl, List.nil_append,
            ← hevents] at hlater
          rw [← hsetfds] at hreceives
          subst hlater
          exact .allocate true rfl (hreceives.trans
            (ih (i + 1) (v.advance i (loopBody cfg dev env message v))))

end Loop

/-! ## The use of a closed descriptor -/

/--
The descriptors that the call made by this step is about; `select` looks at
none from `maxfd + 1` on.
-/
def usedBy (cfg : BuildConfig) (dev : IpContext) :
    ThreadPoint → ThreadStep → Finset Int
  | .selecting, .select _ => selectable cfg dev
  | .receiving _ _ branch _, .recvfrom _ => {branch.sock}
  | _, _ => ∅

/-- The step is no call on a descriptor that shutdown has closed. -/
def IoSafe (cfg : BuildConfig) (dev : IpContext) (s : ShutdownState) :
    ShutdownAct → Prop
  | .thread step => Disjoint (usedBy cfg dev s.thread step) s.closed
  | _ => True

/-- The descriptors of the non-secure branches tried before that of `fd`. -/
def openBefore (cfg : BuildConfig) (dev : IpContext) (fd : Int) : Finset Int :=
  (((openBranches cfg dev).map (·.sock)).takeWhile (· ≠ fd)).toFinset

/-- `remaining` iterations are enough to come to `fd`. -/
def InReach (cfg : BuildConfig) (dev : IpContext) (remaining : Nat)
    (setfds : Finset Int) (fd : Int) : Prop :=
  fd ∈ setfds ∧ (setfds ∩ openBefore cfg dev fd).card < remaining

/-- The thread can use `fd` before it tests `terminate` again. -/
def MayUse (cfg : BuildConfig) (dev : IpContext) (fd : Int) :
    ThreadPoint → Prop
  | .testing => False
  | .selecting => fd ∈ selectable cfg dev
  | .allocating remaining setfds =>
      InReach cfg dev (remaining + 1) setfds fd
  | .receiving remaining setfds branch rest =>
      fd = branch.sock ∨
        (branch.after = .fallThrough ∧ fd ∈ setfds ∧
          ∃ other ∈ rest, other.sock = fd) ∨
        InReach cfg dev remaining (setfds.erase branch.sock) fd
  | .left => False

/-- A descriptor is closed only while the thread cannot use it. -/
def Settled (cfg : BuildConfig) (dev : IpContext) (s : ShutdownState) :
    ShutdownAct → Prop
  | .shutdown => ∀ fd, s.pending.head? = some (.close fd) →
      ¬ MayUse cfg dev fd s.thread
  | _ => True

instance (cfg : BuildConfig) (dev : IpContext) (remaining : Nat)
    (setfds : Finset Int) (fd : Int) :
    Decidable (InReach cfg dev remaining setfds fd) :=
  inferInstanceAs (Decidable (_ ∧ _))

instance (cfg : BuildConfig) (dev : IpContext) (fd : Int) :
    ∀ point, Decidable (MayUse cfg dev fd point)
  | .testing => .isFalse id
  | .selecting => inferInstanceAs (Decidable (fd ∈ selectable cfg dev))
  | .allocating remaining setfds =>
      inferInstanceAs (Decidable (InReach cfg dev (remaining + 1) setfds fd))
  | .receiving _ _ _ _ => inferInstanceAs (Decidable (_ ∨ (_ ∧ _ ∧ _) ∨ _))
  | .left => .isFalse id

instance (cfg : BuildConfig) (dev : IpContext) (s : ShutdownState) :
    ∀ act, Decidable (Settled cfg dev s act)
  | .shutdown =>
      match h : s.pending.head? with
      | some (.close fd) =>
          decidable_of_iff (¬ MayUse cfg dev fd s.thread)
            (by simp [Settled, h])
      | some .terminate => .isTrue (by simp [Settled, h])
      | some .cancel => .isTrue (by simp [Settled, h])
      | some .join => .isTrue (by simp [Settled, h])
      | none => .isTrue (by simp [Settled, h])
  | .thread _ => .isTrue trivial
  | .die => .isTrue trivial

instance (cfg : BuildConfig) (dev : IpContext) (s : ShutdownState) :
    ∀ act, Decidable (IoSafe cfg dev s act)
  | .thread _ => inferInstanceAs (Decidable (Disjoint _ _))
  | .shutdown => .isTrue trivial
  | .die => .isTrue trivial

/-! ## Where the thread can stand -/

/-- No branch before the one about to receive was ready. -/
def WellPlaced (cfg : BuildConfig) (dev : IpContext) : ThreadPoint → Prop
  | .allocating _ setfds => setfds ⊆ rfds cfg dev
  | .receiving _ setfds branch rest =>
      setfds ⊆ rfds cfg dev ∧ branch.sock ∈ setfds ∧
        ∃ before, branches cfg dev = before ++ branch :: rest ∧
          ∀ other ∈ before, other.sock ∉ setfds
  | _ => True

section Thread

variable {cfg : BuildConfig} {dev : IpContext} {fd : Int} {remaining : Nat}
  {setfds : Finset Int} {branch : ReceiveBranch} {rest : List ReceiveBranch}

theorem mayUse_loopTest :
    MayUse cfg dev fd (loopTest remaining setfds) ↔
      InReach cfg dev remaining setfds fd := by
  cases remaining with
  | zero => simp [loopTest, MayUse, InReach]
  | succ remaining => rfl

theorem wellPlaced_loopTest (hsub : setfds ⊆ rfds cfg dev) :
    WellPlaced cfg dev (loopTest remaining setfds) := by
  cases remaining with
  | zero => trivial
  | succ remaining => exact hsub

theorem tryBranches_cases (remaining : Nat) (setfds : Finset Int)
    (list : List ReceiveBranch) :
    (tryBranches remaining setfds list = loopTest remaining setfds ∧
        ∀ branch ∈ list, branch.sock ∉ setfds) ∨
      ∃ before branch rest, list = before ++ branch :: rest ∧
        (∀ other ∈ before, other.sock ∉ setfds) ∧ branch.sock ∈ setfds ∧
        tryBranches remaining setfds list =
          .receiving remaining setfds branch rest := by
  induction list with
  | nil => exact .inl ⟨rfl, by simp⟩
  | cons branch list ih =>
      rw [tryBranches]
      by_cases hready : branch.sock ∈ setfds
      · rw [if_pos hready]
        exact .inr ⟨[], branch, list, rfl, by simp, hready, rfl⟩
      · rw [if_neg hready]
        rcases ih with ⟨htest, hnone⟩ |
          ⟨before, found, rest, rfl, hbefore, hfound, htry⟩
        · exact .inl ⟨htest, List.forall_mem_cons.mpr ⟨hready, hnone⟩⟩
        · exact .inr ⟨branch :: before, found, rest, rfl,
            List.forall_mem_cons.mpr ⟨hready, hbefore⟩, hfound, htry⟩

theorem wellPlaced_tryBranches {passed list : List ReceiveBranch}
    (hsub : setfds ⊆ rfds cfg dev)
    (hsplit : branches cfg dev = passed ++ list)
    (hpassed : ∀ other ∈ passed, other.sock ∉ setfds) :
    WellPlaced cfg dev (tryBranches remaining setfds list) := by
  rcases tryBranches_cases remaining setfds list with ⟨htest, -⟩ |
    ⟨before, found, rest, rfl, hbefore, hfound, htry⟩
  · rw [htest]
    exact wellPlaced_loopTest hsub
  · rw [htry]
    refine ⟨hsub, hfound, passed ++ before, by simp [hsplit], ?_⟩
    intro other hother
    rcases List.mem_append.mp hother with h | h
    · exact hpassed other h
    · exact hbefore other h

theorem mem_of_mem_takeWhile {α : Type} {p : α → Bool} {a b : α}
    {first second before rest : List α}
    (hsplit : first ++ second = before ++ a :: rest) (ha : p a = false)
    (hb : b ∈ first.takeWhile p) : b ∈ before := by
  induction before generalizing first with
  | nil =>
      cases first with
      | nil => cases hb
      | cons c first =>
          obtain ⟨rfl, -⟩ := List.cons.inj hsplit
          simp [ha] at hb
  | cons c before ih =>
      cases first with
      | nil => cases hb
      | cons d first =>
          obtain ⟨rfl, hrest⟩ := List.cons.inj hsplit
          rw [List.takeWhile_cons] at hb
          split at hb
          · rcases List.mem_cons.mp hb with rfl | hb
            · exact List.mem_cons_self
            · exact List.mem_cons_of_mem d (ih hrest hb)
          · cases hb

theorem secureBranches_after (h : branch ∈ secureBranches cfg dev) :
    branch.after = .fallThrough := by
  unfold secureBranches at h
  cases hs : cfg.ocSecurity <;> cases h4 : cfg.ocIpv4
  all_goals
    simp only [hs, h4, if_true, if_false, Bool.false_eq_true, List.mem_cons,
      List.not_mem_nil, or_false] at h
  all_goals aesop

/-- A branch that jumps to `common` is an open one, the others are secure. -/
theorem branches_split {before : List ReceiveBranch}
    (hsplit : branches cfg dev = before ++ branch :: rest) :
    (branch.after = .common ∧
        ∃ mid, openBranches cfg dev = before ++ branch :: mid) ∨
      branch.after = .fallThrough ∧
        ∃ mid, before = openBranches cfg dev ++ mid ∧
          secureBranches cfg dev = mid ++ branch :: rest := by
  have hsecure : ∀ mid, secureBranches cfg dev = mid ++ branch :: rest →
      branch.after = .fallThrough := by
    intro mid hmid
    exact secureBranches_after (by rw [hmid]; simp)
  rcases List.append_eq_append_iff.mp hsplit with
    ⟨mid, hbefore, hlast⟩ | ⟨mid, hopen, hlast⟩
  · exact .inr ⟨hsecure mid hlast, mid, hbefore, hlast⟩
  · cases mid with
    | nil =>
        refine .inr ⟨hsecure [] hlast.symm, [], ?_, hlast.symm⟩
        simpa using hopen.symm
    | cons first mid =>
        obtain ⟨rfl, -⟩ := List.cons.inj hlast
        exact .inl ⟨openBranches_after (by rw [hopen]; simp), mid, hopen⟩

theorem mem_openBefore_of_split {before : List ReceiveBranch}
    (hsplit : branches cfg dev = before ++ branch :: rest)
    (hmem : fd ∈ openBefore cfg dev branch.sock) :
    ∃ other ∈ before, other.sock = fd := by
  rw [openBefore, List.mem_toFinset] at hmem
  have hsocks : (openBranches cfg dev).map (·.sock) ++
      (secureBranches cfg dev).map (·.sock) =
        before.map (·.sock) ++ branch.sock :: rest.map (·.sock) := by
    rw [← List.map_append, ← branches, hsplit, List.map_append, List.map_cons]
  have hbefore := mem_of_mem_takeWhile hsocks (by simp) hmem
  simpa using hbefore

theorem mem_openFds_of_before {other : Int}
    (hmem : other ∈ openBefore cfg dev fd) : other ∈ openFds cfg dev := by
  rw [openBefore, List.mem_toFinset] at hmem
  rw [mem_openFds]
  simpa using List.takeWhile_subset _ hmem

/-- Once a secure branch is reached, no other socket is left to receive from. -/
theorem inter_openBefore_of_secure
    (hplaced : WellPlaced cfg dev (.receiving remaining setfds branch rest))
    (hafter : branch.after = .fallThrough) (fd : Int) :
    setfds ∩ openBefore cfg dev fd = ∅ := by
  obtain ⟨-, -, before, hsplit, hbefore⟩ := hplaced
  rw [← Finset.disjoint_iff_inter_eq_empty, Finset.disjoint_right]
  intro sock hsock
  obtain ⟨other, hother, rfl⟩ := mem_openFds.mp (mem_openFds_of_before hsock)
  rcases branches_split hsplit with ⟨hcommon, -⟩ | ⟨-, mid, rfl, -⟩
  · simp [hafter] at hcommon
  · exact hbefore other (List.mem_append_left mid hother)

theorem inter_openBefore_self
    (hplaced : WellPlaced cfg dev (.receiving remaining setfds branch rest)) :
    setfds ∩ openBefore cfg dev branch.sock = ∅ := by
  obtain ⟨-, -, before, hsplit, hbefore⟩ := hplaced
  rw [← Finset.disjoint_iff_inter_eq_empty, Finset.disjoint_right]
  intro sock hsock
  obtain ⟨other, hother, rfl⟩ := mem_openBefore_of_split hsplit hsock
  exact hbefore other hother

/-! ## What one step of the thread leaves in reach -/

theorem inReach_of_inter (hmem : fd ∈ setfds)
    (hinter : setfds ∩ openBefore cfg dev fd = ∅) (hpos : 0 < remaining) :
    InReach cfg dev remaining setfds fd := by
  refine ⟨hmem, ?_⟩
  rw [hinter]
  exact hpos

theorem inReach_of_erase {sock : Int}
    (h : InReach cfg dev remaining (setfds.erase sock) fd) :
    InReach cfg dev (remaining + 1) setfds fd := by
  obtain ⟨hmem, hcard⟩ := h
  refine ⟨Finset.mem_of_mem_erase hmem, ?_⟩
  rw [Finset.erase_inter] at hcard
  have hpred := Finset.pred_card_le_card_erase
    (s := setfds ∩ openBefore cfg dev fd) (a := sock)
  omega

theorem inReach_erase {sock : Int} (hne : fd ≠ sock)
    (h : InReach cfg dev remaining setfds fd) :
    InReach cfg dev remaining (setfds.erase sock) fd := by
  obtain ⟨hmem, hcard⟩ := h
  refine ⟨Finset.mem_erase.mpr ⟨hne, hmem⟩, hcard.trans_le' ?_⟩
  exact Finset.card_le_card
    (Finset.inter_subset_inter_right (Finset.erase_subset sock setfds))

theorem inReach_of_receiving
    (hplaced : WellPlaced cfg dev (.receiving remaining setfds branch rest))
    (h : MayUse cfg dev fd (.receiving remaining setfds branch rest)) :
    InReach cfg dev (remaining + 1) setfds fd := by
  rcases h with rfl | ⟨hafter, hmem, -⟩ | hreach
  · exact inReach_of_inter hplaced.2.1 (inter_openBefore_self hplaced)
      remaining.succ_pos
  · exact inReach_of_inter hmem (inter_openBefore_of_secure hplaced hafter fd)
      remaining.succ_pos
  · exact inReach_of_erase hreach

theorem mayUse_branches (hsub : setfds ⊆ rfds cfg dev)
    (h : MayUse cfg dev fd
      (tryBranches remaining setfds (branches cfg dev))) :
    InReach cfg dev (remaining + 1) setfds fd := by
  have hplaced : WellPlaced cfg dev
      (tryBranches remaining setfds (branches cfg dev)) :=
    wellPlaced_tryBranches hsub (List.nil_append _).symm (by simp)
  rcases tryBranches_cases remaining setfds (branches cfg dev) with
    ⟨htest, -⟩ | ⟨before, branch, rest, -, -, -, htry⟩
  · rw [htest, mayUse_loopTest] at h
    exact ⟨h.1, h.2.trans remaining.lt_succ_self⟩
  · rw [htry] at h hplaced
    exact inReach_of_receiving hplaced h

theorem mayUse_rest
    (hplaced : WellPlaced cfg dev (.receiving remaining setfds branch rest))
    (hafter : branch.after = .fallThrough)
    (h : MayUse cfg dev fd
      (tryBranches remaining (setfds.erase branch.sock) rest)) :
    MayUse cfg dev fd (.receiving remaining setfds branch rest) := by
  rcases tryBranches_cases remaining (setfds.erase branch.sock) rest with
    ⟨htest, -⟩ | ⟨before, next, later, rfl, -, hnext, htry⟩
  · rw [htest, mayUse_loopTest] at h
    exact .inr (.inr h)
  · rw [htry] at h
    rcases h with rfl | ⟨-, hmem, other, hother, rfl⟩ | ⟨hmem, hcard⟩
    · exact .inr (.inl ⟨hafter, Finset.mem_of_mem_erase hnext, next, by simp,
        rfl⟩)
    · exact .inr (.inl ⟨hafter, Finset.mem_of_mem_erase hmem, other,
        by simp [hother], rfl⟩)
    · right; right
      refine inReach_of_inter (Finset.mem_of_mem_erase hmem) ?_
        (Nat.zero_lt_of_lt hcard)
      rw [Finset.erase_inter, inter_openBefore_of_secure hplaced hafter,
        Finset.erase_empty]

theorem next_cases {terminate : Bool} {point next : ThreadPoint}
    {step : ThreadStep} (h : point.next cfg dev terminate step = some next) :
    (point = .testing ∧ step = .test ∧
        next = if terminate then .left else .selecting) ∨
      (∃ setfds, point = .selecting ∧ step = .select setfds ∧
        setfds ⊆ selectable cfg dev ∧ next = loopTest setfds.card setfds) ∨
      (∃ remaining setfds ok, point = .allocating remaining setfds ∧
        step = .allocate ok ∧
        next = if ok then tryBranches remaining setfds (branches cfg dev)
          else .testing) ∨
      ∃ remaining setfds branch rest ok,
        point = .receiving remaining setfds branch rest ∧
        step = .recvfrom ok ∧
        (ok = false ∧ next = loopTest remaining setfds ∨
          ok = true ∧ branch.after = .fallThrough ∧
            next = tryBranches remaining (setfds.erase branch.sock) rest ∨
          ok = true ∧ branch.after ≠ .fallThrough ∧
            next = loopTest remaining (setfds.erase branch.sock)) := by
  unfold ThreadPoint.next at h
  split at h
  case h_1 =>
    exact .inl ⟨rfl, rfl, (Option.some.inj h).symm⟩
  case h_2 setfds =>
    rw [Option.ite_none_right_eq_some, Option.some.injEq] at h
    exact .inr (.inl ⟨setfds, rfl, rfl, h.1, h.2.symm⟩)
  case h_3 remaining setfds ok =>
    exact .inr (.inr (.inl ⟨remaining, setfds, ok, rfl, rfl,
      (Option.some.inj h).symm⟩))
  case h_4 remaining setfds branch rest ok =>
    refine .inr (.inr (.inr ⟨remaining, setfds, branch, rest, ok, rfl, rfl,
      ?_⟩))
    cases ok with
    | false => exact .inl ⟨rfl, (Option.some.inj h).symm⟩
    | true =>
        cases hafter : branch.after
        all_goals
          simp only [hafter, Option.some.injEq] at h
          simp [h]
  case h_5 => cases h

theorem selectable_subset : selectable cfg dev ⊆ rfds cfg dev :=
  Finset.filter_subset _ _

theorem wellPlaced_next {terminate : Bool} {point next : ThreadPoint}
    {step : ThreadStep} (hplaced : WellPlaced cfg dev point)
    (h : point.next cfg dev terminate step = some next) :
    WellPlaced cfg dev next := by
  rcases next_cases h with ⟨rfl, rfl, rfl⟩ | ⟨setfds, rfl, rfl, hsub, rfl⟩ |
    ⟨remaining, setfds, ok, rfl, rfl, rfl⟩ |
    ⟨remaining, setfds, branch, rest, ok, rfl, rfl, hlast⟩
  · cases terminate <;> trivial
  · exact wellPlaced_loopTest (hsub.trans selectable_subset)
  · cases ok with
    | false => trivial
    | true =>
        exact wellPlaced_tryBranches hplaced (List.nil_append _).symm (by simp)
  · obtain ⟨hsub, hready, before, hsplit, hbefore⟩ := hplaced
    have hless := (Finset.erase_subset branch.sock setfds).trans hsub
    rcases hlast with ⟨-, rfl⟩ | ⟨-, -, rfl⟩ | ⟨-, -, rfl⟩
    · exact wellPlaced_loopTest hsub
    · have hpassed : branches cfg dev = before ++ [branch] ++ rest := by
        simp [hsplit]
      refine wellPlaced_tryBranches hless hpassed ?_
      simp only [List.mem_append, List.mem_singleton, Finset.mem_erase]
      rintro other (hother | rfl)
      · exact fun h => hbefore other hother h.2
      · exact fun h => h.1 rfl
    · exact wellPlaced_loopTest hless

/-- Only a test that goes on to `select` brings descriptors into reach. -/
theorem mayUse_of_next {terminate : Bool} {point next : ThreadPoint}
    {step : ThreadStep} (hplaced : WellPlaced cfg dev point)
    (hterminate : terminate = true)
    (h : point.next cfg dev terminate step = some next)
    (huse : MayUse cfg dev fd next) : MayUse cfg dev fd point := by
  rcases next_cases h with ⟨rfl, rfl, rfl⟩ | ⟨setfds, rfl, rfl, hsub, rfl⟩ |
    ⟨remaining, setfds, ok, rfl, rfl, rfl⟩ |
    ⟨remaining, setfds, branch, rest, ok, rfl, rfl, hlast⟩
  · rw [if_pos hterminate] at huse
    exact huse
  · exact hsub (mayUse_loopTest.mp huse).1
  · cases ok with
    | false => exact huse.elim
    | true => exact mayUse_branches hplaced huse
  · rcases hlast with ⟨-, rfl⟩ | ⟨-, hafter, rfl⟩ | ⟨-, -, rfl⟩
    · have hreach := mayUse_loopTest.mp huse
      by_cases hfd : fd = branch.sock
      · exact .inl hfd
      · exact .inr (.inr (inReach_erase hfd hreach))
    · exact mayUse_rest hplaced hafter huse
    · exact .inr (.inr (mayUse_loopTest.mp huse))

theorem mayUse_of_used {point : ThreadPoint} {step : ThreadStep}
    (h : fd ∈ usedBy cfg dev point step) : MayUse cfg dev fd point := by
  unfold usedBy at h
  split at h
  case h_1 => exact h
  case h_2 => exact .inl (Finset.mem_singleton.mp h)
  case h_3 => exact absurd h (Finset.notMem_empty fd)

/-! ## The invariant -/

structure ShutdownInvariant (cfg : BuildConfig) (dev : IpContext)
    (s : ShutdownState) : Prop where
  placed : WellPlaced cfg dev s.thread
  untold : s.terminate = false →
    s.pending = shutdownOps cfg dev ∧ s.closed = ∅
  away : ∀ fd ∈ s.closed, ¬ MayUse cfg dev fd s.thread

theorem invariant_perform {s t : ShutdownState} {op : ShutdownOp}
    {pending : List ShutdownOp} (hs : ShutdownInvariant cfg dev s)
    (hpending : s.pending = op :: pending)
    (hsettled : ∀ fd, op = .close fd → ¬ MayUse cfg dev fd s.thread)
    (hnext : ShutdownState.perform { s with pending } op = some t) :
    ShutdownInvariant cfg dev t := by
  obtain ⟨hplaced, huntold, haway⟩ := hs
  have htold : op ≠ .terminate → s.terminate = true := by
    intro hop
    by_contra hfalse
    have hops := (huntold (Bool.eq_false_iff.mpr hfalse)).1
    rw [hpending, shutdownOps, List.cons_append] at hops
    exact hop (List.cons.inj hops).1
  cases op with
  | terminate =>
      cases hnext
      exact ⟨hplaced, nofun, haway⟩
  | close fd =>
      cases hnext
      refine ⟨hplaced, fun h => ?_, ?_⟩
      · simp [htold nofun] at h
      · intro closed hclosed
        rcases Finset.mem_insert.mp hclosed with rfl | hclosed
        · exact hsettled closed rfl
        · exact haway closed hclosed
  | cancel =>
      cases hnext
      refine ⟨hplaced, fun h => ?_, haway⟩
      simp [htold nofun] at h
  | join =>
      obtain ⟨-, hsame⟩ := Option.ite_none_right_eq_some.mp hnext
      cases hsame
      refine ⟨hplaced, fun h => ?_, haway⟩
      simp [htold nofun] at h

theorem invariant_next {s t : ShutdownState} {act : ShutdownAct}
    (hs : ShutdownInvariant cfg dev s) (hsettled : Settled cfg dev s act)
    (hnext : s.next cfg dev act = some t) : ShutdownInvariant cfg dev t := by
  cases act with
  | shutdown =>
      rw [ShutdownState.next] at hnext
      cases hpending : s.pending with
      | nil => simp [hpending] at hnext
      | cons op pending =>
          rw [hpending] at hnext
          refine invariant_perform hs hpending ?_ hnext
          rintro fd rfl
          exact hsettled fd (by rw [hpending]; rfl)
  | thread step =>
      obtain ⟨point, hpoint, rfl⟩ := Option.map_eq_some_iff.mp hnext
      refine ⟨wellPlaced_next hs.placed hpoint, hs.untold, ?_⟩
      intro fd hclosed huse
      have hterminate : s.terminate = true := by
        by_contra hfalse
        have hnone := (hs.untold (Bool.eq_false_iff.mpr hfalse)).2
        exact absurd hclosed (by simp [hnone])
      exact hs.away fd hclosed (mayUse_of_next hs.placed hterminate hpoint huse)
  | die =>
      obtain ⟨-, hleft⟩ := Option.ite_none_right_eq_some.mp hnext
      cases hleft
      exact ⟨trivial, hs.untold, fun _ _ => id⟩

theorem invariant_ioSafe {s : ShutdownState}
    (hs : ShutdownInvariant cfg dev s) (act : ShutdownAct) :
    IoSafe cfg dev s act := by
  cases act with
  | shutdown => trivial
  | die => trivial
  | thread step =>
      refine Finset.disjoint_right.mpr fun fd hclosed hused => ?_
      exact hs.away fd hclosed (mayUse_of_used hused)

theorem invariant_start :
    ShutdownInvariant cfg dev (shutdownMachine cfg dev).start :=
  ⟨trivial, fun _ => ⟨rfl, rfl⟩, fun _ _ => id⟩

/-- A call on a descriptor that has been closed can come next. -/
def MisuseNext (cfg : BuildConfig) (dev : IpContext) (s : ShutdownState) :
    Prop :=
  ∃ act t, (shutdownMachine cfg dev).next s act = some t ∧
    ¬ IoSafe cfg dev s act

theorem invariant_not_misuseNext {s : ShutdownState}
    (hs : ShutdownInvariant cfg dev s) : ¬ MisuseNext cfg dev s := by
  rintro ⟨act, -, -, hsafe⟩
  exact hsafe (invariant_ioSafe hs act)

theorem invariant_of_settled {acts : List ShutdownAct} {s : ShutdownState}
    (hsettled : (shutdownMachine cfg dev).Throughout (Settled cfg dev)
      (shutdownMachine cfg dev).start acts)
    (hrun : (shutdownMachine cfg dev).run acts = some s) :
    ShutdownInvariant cfg dev s := by
  refine Machine.Throughout.invariant ?_ invariant_start hsettled hrun
  exact fun _ _ _ hs ha hnext => invariant_next hs ha hnext

theorem ioSafe_of_settled {acts : List ShutdownAct}
    (hsettled : (shutdownMachine cfg dev).Throughout (Settled cfg dev)
      (shutdownMachine cfg dev).start acts) :
    (shutdownMachine cfg dev).Throughout (IoSafe cfg dev)
      (shutdownMachine cfg dev).start acts :=
  Machine.Throughout.mono (I := ShutdownInvariant cfg dev)
    (fun _ _ _ hs ha hnext => invariant_next hs ha hnext)
    (fun _ act hs _ => invariant_ioSafe hs act) invariant_start hsettled

/-! ## What an unsettled close leads to -/

/-- Some steps without a test that goes on to `select` come to use `fd`. -/
inductive ComesTo (cfg : BuildConfig) (dev : IpContext) (fd : Int) :
    ThreadPoint → Prop
  | here (step : ThreadStep) {point next : ThreadPoint}
      (hnext : ∀ terminate, point.next cfg dev terminate step = some next)
      (hused : fd ∈ usedBy cfg dev point step) : ComesTo cfg dev fd point
  | later (step : ThreadStep) {point next : ThreadPoint}
      (hnext : ∀ terminate, point.next cfg dev terminate step = some next)
      (hcomes : ComesTo cfg dev fd next) : ComesTo cfg dev fd point

theorem comesTo_receiving :
    ComesTo cfg dev branch.sock (.receiving remaining setfds branch rest) :=
  .here (.recvfrom false) (fun _ => rfl) (Finset.mem_singleton_self _)

theorem comesTo_secure {list : List ReceiveBranch}
    (hlist : ∀ branch ∈ list, branch.after = .fallThrough)
    (hmem : fd ∈ setfds) (hfd : ∃ branch ∈ list, branch.sock = fd) :
    ComesTo cfg dev fd (tryBranches remaining setfds list) := by
  induction list generalizing setfds with
  | nil => simp at hfd
  | cons branch list ih =>
      rw [List.forall_mem_cons] at hlist
      rw [tryBranches]
      by_cases hsock : branch.sock = fd
      · rw [if_pos (hsock ▸ hmem), ← hsock]
        exact comesTo_receiving
      · have hlater : ∃ other ∈ list, other.sock = fd := by
          simpa [hsock] using hfd
        split
        · apply ComesTo.later (.recvfrom true) (next_secure hlist.1)
          exact ih hlist.2 (Finset.mem_erase.mpr ⟨Ne.symm hsock, hmem⟩) hlater
        · exact ih hlist.2 hmem hlater

theorem sock_mem_rest {before : List ReceiveBranch}
    (hsub : setfds ⊆ rfds cfg dev)
    (hsplit : branches cfg dev = before ++ branch :: rest)
    (hbefore : ∀ other ∈ before, other.sock ∉ setfds)
    (hmem : fd ∈ setfds) (hne : fd ≠ branch.sock) :
    ∃ other ∈ rest, other.sock = fd := by
  obtain ⟨other, hother, rfl⟩ := mem_rfds.mp (hsub hmem)
  rw [hsplit, List.mem_append, List.mem_cons] at hother
  rcases hother with h | rfl | h
  · exact absurd hmem (hbefore other h)
  · exact absurd rfl hne
  · exact ⟨other, h, rfl⟩

theorem comesTo_rest {before : List ReceiveBranch}
    (hsub : setfds ⊆ rfds cfg dev)
    (hsplit : branches cfg dev = before ++ branch :: rest)
    (hbefore : ∀ other ∈ before, other.sock ∉ setfds)
    (hafter : branch.after = .fallThrough) (hmem : fd ∈ setfds) :
    ComesTo cfg dev fd (.receiving remaining setfds branch rest) := by
  by_cases hne : fd = branch.sock
  · rw [hne]
    exact comesTo_receiving
  · apply ComesTo.later (.recvfrom true) (next_secure hafter)
    rcases branches_split hsplit with ⟨hcommon, -⟩ | ⟨-, mid, -, hsecure⟩
    · simp [hafter] at hcommon
    · apply comesTo_secure
      · intro other hother
        have hmem : other ∈ secureBranches cfg dev := by
          rw [hsecure]
          simp [hother]
        exact secureBranches_after hmem
      · exact Finset.mem_erase.mpr ⟨hne, hmem⟩
      · exact sock_mem_rest hsub hsplit hbefore hmem hne

theorem inReach_common {before mid : List ReceiveBranch}
    (hopen : openBranches cfg dev = before ++ branch :: mid)
    (hready : branch.sock ∈ setfds)
    (hbefore : ∀ other ∈ before, other.sock ∉ setfds)
    (hne : fd ≠ branch.sock)
    (h : InReach cfg dev (remaining + 1) setfds fd) :
    InReach cfg dev remaining (setfds.erase branch.sock) fd := by
  obtain ⟨hmem, hcard⟩ := h
  refine ⟨Finset.mem_erase.mpr ⟨hne, hmem⟩, ?_⟩
  have hpassed : branch.sock ∈ openBefore cfg dev fd := by
    rw [openBefore, hopen, List.mem_toFinset, List.map_append,
      List.takeWhile_append_of_pos]
    · simp [Ne.symm hne]
    · intro sock hsock
      obtain ⟨other, hother, rfl⟩ := List.mem_map.mp hsock
      have hother : other.sock ≠ fd := fun h => hbefore other hother (h ▸ hmem)
      simpa using hother
  have hinter := Finset.mem_inter.mpr ⟨hready, hpassed⟩
  have hpos := Finset.card_pos.mpr ⟨branch.sock, hinter⟩
  rw [Finset.erase_inter, Finset.card_erase_of_mem hinter]
  omega

theorem comesTo_loopTest (hsub : setfds ⊆ rfds cfg dev)
    (h : InReach cfg dev remaining setfds fd) :
    ComesTo cfg dev fd (loopTest remaining setfds) := by
  induction remaining generalizing setfds with
  | zero => exact absurd h.2 (Nat.not_lt_zero _)
  | succ remaining ih =>
      apply ComesTo.later (.allocate true) (fun _ => rfl)
      rw [if_pos rfl]
      rcases tryBranches_cases remaining setfds (branches cfg dev) with
        ⟨-, hnone⟩ | ⟨before, branch, rest, hsplit, hbefore, hready, htry⟩
      · obtain ⟨branch, hbranch, rfl⟩ := mem_rfds.mp (hsub h.1)
        exact absurd h.1 (hnone branch hbranch)
      · rw [htry]
        rcases branches_split hsplit with ⟨hafter, mid, hopen⟩ | ⟨hafter, -⟩
        · by_cases hne : fd = branch.sock
          · rw [hne]
            exact comesTo_receiving
          · apply ComesTo.later (.recvfrom true) (next_common (by simp [hafter]))
            exact ih ((Finset.erase_subset branch.sock setfds).trans hsub)
              (inReach_common hopen hready hbefore hne h)
        · exact comesTo_rest hsub hsplit hbefore hafter h.1

theorem comesTo_of_mayUse {point : ThreadPoint}
    (hplaced : WellPlaced cfg dev point) (h : MayUse cfg dev fd point) :
    ComesTo cfg dev fd point := by
  cases point with
  | testing => exact h.elim
  | left => exact h.elim
  | selecting =>
      exact .here (.select ∅) (next_select (Finset.empty_subset _)) h
  | allocating remaining setfds => exact comesTo_loopTest hplaced h
  | receiving remaining setfds branch rest =>
      obtain ⟨hsub, hready, before, hsplit, hbefore⟩ := hplaced
      rcases h with rfl | ⟨hafter, hmem, -⟩ | hreach
      · exact comesTo_receiving
      · exact comesTo_rest hsub hsplit hbefore hafter hmem
      · rcases branches_split hsplit with ⟨hafter, -⟩ | ⟨hafter, -⟩
        · apply ComesTo.later (.recvfrom true) (next_common (by simp [hafter]))
          exact comesTo_loopTest
            ((Finset.erase_subset branch.sock setfds).trans hsub) hreach
        · exact comesTo_rest hsub hsplit hbefore hafter
            (Finset.mem_of_mem_erase hreach.1)

/--
The thread by itself, with nothing further closed, can come to make a call on a
descriptor that has been closed.
-/
def LeadsToMisuse (cfg : BuildConfig) (dev : IpContext) (s : ShutdownState) :
    Prop :=
  (shutdownMachine cfg dev).LeadsTo (fun _ act => ∃ step, act = .thread step)
    (MisuseNext cfg dev) s

theorem next_thread {s : ShutdownState} {point : ThreadPoint}
    {step : ThreadStep}
    (h : s.thread.next cfg dev s.terminate step = some point) :
    (shutdownMachine cfg dev).next s (.thread step) =
      some { s with thread := point } := by
  simp [shutdownMachine, ShutdownState.next, h]

theorem leadsToMisuse_of_comesTo {point : ThreadPoint}
    (h : ComesTo cfg dev fd point) {s : ShutdownState}
    (hpoint : s.thread = point) (hclosed : fd ∈ s.closed) :
    LeadsToMisuse cfg dev s := by
  induction h generalizing s with
  | here step hnext hused =>
      subst hpoint
      refine Machine.leadsTo_here
        ⟨.thread step, _, next_thread (hnext s.terminate), ?_⟩
      exact fun hsafe => Finset.disjoint_left.mp hsafe hused hclosed
  | later step hnext _ ih =>
      subst hpoint
      exact Machine.leadsTo_of_next ⟨step, rfl⟩
        (next_thread (hnext s.terminate))
        (ih (s := { s with thread := _ }) rfl hclosed)

theorem perform_cases {s t : ShutdownState} {op : ShutdownOp}
    (h : s.perform op = some t) :
    t.thread = s.thread ∧ ∀ fd, op = .close fd → fd ∈ t.closed := by
  cases op with
  | terminate | cancel =>
      cases h
      exact ⟨rfl, nofun⟩
  | close fd =>
      cases h
      refine ⟨rfl, ?_⟩
      rintro _ ⟨rfl⟩
      exact Finset.mem_insert_self fd s.closed
  | join =>
      obtain ⟨-, hsame⟩ := Option.ite_none_right_eq_some.mp h
      cases hsame
      exact ⟨rfl, nofun⟩

theorem next_shutdown {s t : ShutdownState}
    (h : s.next cfg dev .shutdown = some t) :
    t.thread = s.thread ∧
      ∀ fd, s.pending.head? = some (.close fd) → fd ∈ t.closed := by
  rw [ShutdownState.next] at h
  cases hpending : s.pending with
  | nil => simp [hpending] at h
  | cons op pending =>
      rw [hpending] at h
      obtain ⟨hthread, hclosed⟩ := perform_cases h
      refine ⟨hthread, fun fd hfd => hclosed fd ?_⟩
      simpa using hfd

theorem wellPlaced_step {s t : ShutdownState} {act : ShutdownAct}
    (hs : WellPlaced cfg dev s.thread) (hnext : s.next cfg dev act = some t) :
    WellPlaced cfg dev t.thread := by
  cases act with
  | shutdown =>
      rw [(next_shutdown hnext).1]
      exact hs
  | thread step =>
      obtain ⟨point, hpoint, rfl⟩ := Option.map_eq_some_iff.mp hnext
      exact wellPlaced_next hs hpoint
  | die =>
      obtain ⟨-, hleft⟩ := Option.ite_none_right_eq_some.mp hnext
      cases hleft
      trivial

theorem leadsToMisuse_of_unsettled {s t : ShutdownState} {act : ShutdownAct}
    (hplaced : WellPlaced cfg dev s.thread)
    (hunsettled : ¬ Settled cfg dev s act)
    (hnext : s.next cfg dev act = some t) : LeadsToMisuse cfg dev t := by
  cases act with
  | shutdown =>
      simp only [Settled, Classical.not_forall, not_not] at hunsettled
      obtain ⟨fd, hhead, huse⟩ := hunsettled
      obtain ⟨hthread, hclosed⟩ := next_shutdown hnext
      exact leadsToMisuse_of_comesTo (comesTo_of_mayUse hplaced huse) hthread
        (hclosed fd hhead)
  | thread step => exact absurd trivial hunsettled
  | die => exact absurd trivial hunsettled

/--
A run whose closes are all settled makes no call on a closed descriptor, and
its next close is settled exactly if the thread by itself can make none
afterwards.  After any other close of any run it can.
-/
theorem settled_ioSafe {acts : List ShutdownAct} {s : ShutdownState}
    (hrun : (shutdownMachine cfg dev).run acts = some s) :
    ((shutdownMachine cfg dev).Throughout (Settled cfg dev)
        (shutdownMachine cfg dev).start acts →
      (shutdownMachine cfg dev).Throughout (IoSafe cfg dev)
          (shutdownMachine cfg dev).start acts ∧
        ∀ act t, (shutdownMachine cfg dev).next s act = some t →
          (Settled cfg dev s act ↔ ¬ LeadsToMisuse cfg dev t)) ∧
      ∀ act t, ¬ Settled cfg dev s act →
        (shutdownMachine cfg dev).next s act = some t →
        LeadsToMisuse cfg dev t := by
  have hplaced : WellPlaced cfg dev s.thread :=
    Machine.Reachable.invariant (M := shutdownMachine cfg dev)
      (I := fun s => WellPlaced cfg dev s.thread) trivial
      (fun _ _ _ hs h => wellPlaced_step hs h) ⟨acts, hrun⟩
  constructor
  · intro hsettled
    refine ⟨ioSafe_of_settled hsettled, fun act t hnext => ?_⟩
    apply Machine.guard_iff_not_leadsTo (I := ShutdownInvariant cfg dev)
    case hstep => exact fun _ _ _ hs ha hnext => invariant_next hs ha hnext
    case hgood => exact fun _ => invariant_not_misuseNext
    case himp =>
      rintro s act ⟨step, rfl⟩
      trivial
    case hs => exact invariant_of_settled hsettled hrun
    case hnext => exact hnext
    case hblame =>
      exact fun hclose => leadsToMisuse_of_unsettled hplaced hclose hnext
  · exact fun act t hclose hnext =>
      leadsToMisuse_of_unsettled hplaced hclose hnext

end Thread

/-- The context that an init leaves when every call works. -/
def inTurnContext : IpContext :=
  { IpContext.zero with serverSock := 3, mcastSock := 4, secureSock := 5 }

/-- The sockets are closed after the thread's pass, but before it has left. -/
def afterPass : List ShutdownAct :=
  [.thread .test, .thread (.select {3}), .shutdown, .thread (.allocate true),
    .thread (.recvfrom true), .shutdown, .shutdown, .shutdown, .thread .test,
    .shutdown, .shutdown]

theorem afterPass_ioSafe :
    ((shutdownMachine secureBuild inTurnContext).run afterPass).isSome = true ∧
      (shutdownMachine secureBuild inTurnContext).Throughout
        (IoSafe secureBuild inTurnContext)
        (shutdownMachine secureBuild inTurnContext).start afterPass := by
  have hsome : ((shutdownMachine secureBuild inTurnContext).run
      afterPass).isSome = true := by
    decide +kernel
  obtain ⟨s, hrun⟩ := Option.isSome_iff_exists.mp hsome
  exact ⟨hsome, ((settled_ioSafe hrun).1 (by decide +kernel)).1⟩

def AlwaysIoSafe (cfg : BuildConfig) (dev : IpContext) : Prop :=
  ∀ acts, (shutdownMachine cfg dev).Throughout (IoSafe cfg dev)
    (shutdownMachine cfg dev).start acts

/-- `terminate` is tested just before it is stored. -/
theorem ioSafe_fails :
    ¬ ∀ (cfg : BuildConfig) (env : InitEnv) (device : Int) (s t : AdapterState)
        (ref : ContextRef), env.everyCall cfg = true →
        ocConnectivityInit cfg env device s = some (t, 0) →
        newContext cfg env device = some ref →
        AlwaysIoSafe cfg (t.memory ref) := by
  intro h
  have hsafe := h secureBuild (workingEnv inTurn) 0 bootAdapter _ (.slot 0)
    (by decide) rfl rfl
    [.thread .test, .shutdown, .shutdown, .thread (.select ∅)]
  exact absurd hsafe (by decide +kernel)

end EspIotivity.Adapter
