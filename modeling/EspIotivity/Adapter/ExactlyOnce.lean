import EspIotivity.Adapter.Receive

/-!
# Exactly-once delivery by the receive loop

Every iteration with a message serves one ready descriptor, except when both
secure sockets are the next to be served: then the second is received over the
first.  The branch decides how a source address is read, so it is the
datagram's own where the source has the family of that branch's socket.
-/

namespace EspIotivity.Adapter

open EspIotivity.Foundation

/-! ## What a delivered message should hold -/

def SocketRole.flags : SocketRole → TransportFlags
  | .server => { ipv6 := true }
  | .mcast => { ipv6 := true, multicast := true }
  | .server4 => { ipv4 := true }
  | .mcast4 => { ipv4 := true, multicast := true }
  | .secure => { ipv6 := true, secured := true }
  | .secure4 => { ipv4 := true, secured := true }

def SocketRole.address (role : SocketRole) (client : SockaddrStorage) :
    DevAddr :=
  if role.flags.ipv4 then .ipv4 client.sinAddr (ntohs client.port)
  else .ipv6 client.sin6Addr (ntohs client.port) 0

/-- The message is what the branch of `role` makes of the datagram. -/
structure FilledBy (dev : IpContext) (role : SocketRole) (datagram : Datagram)
    (message : OcMessage) : Prop where
  length : message.length = datagram.bytes.length
  data : message.data.take message.length = datagram.bytes
  flags : message.endpoint.flags = role.flags
  device : message.endpoint.device = dev.device
  addr : message.endpoint.addr = role.address datagram.client

/-- A source's address and port, as its own family has them. -/
def SockaddrStorage.peer (client : SockaddrStorage) : Option DevAddr :=
  match client.family with
  | .unspec => none
  | .inet => some (.ipv4 client.sinAddr (ntohs client.port))
  | .inet6 => some (.ipv6 client.sin6Addr (ntohs client.port) 0)

/-- The message holds the datagram and names the datagram's own source. -/
structure Carries (dev : IpContext) (role : SocketRole) (datagram : Datagram)
    (message : OcMessage) : Prop extends
    FilledBy dev role datagram message where
  source : datagram.client.peer = some message.endpoint.addr

theorem FilledBy.carries_iff {dev : IpContext} {role : SocketRole}
    {datagram : Datagram} {message : OcMessage}
    (h : FilledBy dev role datagram message) :
    Carries dev role datagram message ↔
      datagram.client.family = role.family := by
  have hsource : datagram.client.peer = some message.endpoint.addr ↔
      datagram.client.family = role.family := by
    rw [h.addr, SockaddrStorage.peer]
    cases hfamily : datagram.client.family <;> cases role <;>
      simp [SocketRole.address, SocketRole.flags, SocketRole.family]
  exact ⟨fun hcarries => hsource.mp hcarries.source,
    fun hfamily => ⟨h, hsource.mpr hfamily⟩⟩

/-! ## When two datagrams meet in one message -/

/-- The descriptors whose branches jump to `common`. -/
def openFds (cfg : BuildConfig) (dev : IpContext) : Finset Int :=
  {dev.serverSock, dev.mcastSock} ∪
    if cfg.ocIpv4 then {dev.server4Sock, dev.mcast4Sock} else ∅

/-- Both secure sockets are ready, and only their own branches see them. -/
structure BothSecure (cfg : BuildConfig) (dev : IpContext)
    (setfds : Finset Int) : Prop where
  ocIpv4 : cfg.ocIpv4 = true
  ocSecurity : cfg.ocSecurity = true
  distinct : dev.secureSock ≠ dev.secure4Sock
  secure : dev.secureSock ∈ setfds \ openFds cfg dev
  secure4 : dev.secure4Sock ∈ setfds \ openFds cfg dev

/--
How many datagrams are received in the iterations from `i` on, when each that
gets a message calls `recvfrom` once.
-/
def receivedInTurn (env : ReceiveEnv) : Nat → Nat → Nat
  | 0, _ => 0
  | remaining + 1, i =>
      if (env.allocate i).isSome then
        (if (env.recvfrom i).isSome then 1 else 0) +
          receivedInTurn env remaining (i + 1)
      else 0

/-- The pass receives from one secure socket while the other is ready. -/
def SecureCollision (cfg : BuildConfig) (dev : IpContext) (env : ReceiveEnv)
    (setfds : Finset Int) (remaining i : Nat) : Prop :=
  BothSecure cfg dev setfds ∧
    (setfds ∩ openFds cfg dev).card < receivedInTurn env remaining i

/-! ## Which branch receives which datagram -/

/-- The branches that come to serve a descriptor, in turn. -/
def servingBranches : List ReceiveBranch → Finset Int → List ReceiveBranch
  | [], _ => []
  | branch :: rest, setfds =>
      if branch.sock ∈ setfds then
        branch :: servingBranches rest (setfds.erase branch.sock)
      else servingBranches rest setfds

/-- What is received in the iterations that `receivedInTurn` counts. -/
def datagramsInTurn (env : ReceiveEnv) : Nat → Nat → List Datagram
  | 0, _ => []
  | remaining + 1, i =>
      if (env.allocate i).isSome then
        (env.recvfrom i).toList ++ datagramsInTurn env remaining (i + 1)
      else []

/-- The datagrams suit the branches whose turn it is. -/
def EachInTurn (Suits : SocketRole → Datagram → Prop) (cfg : BuildConfig)
    (dev : IpContext) (env : ReceiveEnv) (setfds : Finset Int)
    (remaining i : Nat) : Prop :=
  ∀ pair ∈ (servingBranches (branches cfg dev) setfds).zip
      (datagramsInTurn env remaining i),
    Suits pair.1.role pair.2

def SameFamily (role : SocketRole) (datagram : Datagram) : Prop :=
  datagram.client.family = role.family

/-- In turn, each source has the family of the socket it is received on. -/
abbrev SourcesFit (cfg : BuildConfig) (dev : IpContext) (env : ReceiveEnv)
    (setfds : Finset Int) (remaining i : Nat) : Prop :=
  EachInTurn SameFamily cfg dev env setfds remaining i

/-- `FilledBy`, from a datagram that suits the branch. -/
def FilledSuitably (Suits : SocketRole → Datagram → Prop) (dev : IpContext)
    (role : SocketRole) (datagram : Datagram) (message : OcMessage) : Prop :=
  FilledBy dev role datagram message ∧ Suits role datagram

theorem carries_eq (dev : IpContext) :
    Carries dev = FilledSuitably SameFamily dev := by
  funext role datagram message
  rw [FilledSuitably, SameFamily, eq_iff_iff]
  constructor
  · exact fun h => ⟨h.toFilledBy, h.carries_iff.mp h⟩
  · exact fun ⟨h, hfamily⟩ => h.carries_iff.mpr hfamily

theorem filledBy_eq (dev : IpContext) :
    FilledBy dev = FilledSuitably (fun _ _ => True) dev := by
  funext role datagram message
  rw [FilledSuitably, and_true]

theorem eachInTurn_true {cfg : BuildConfig} {dev : IpContext}
    {env : ReceiveEnv} {setfds : Finset Int} {remaining i : Nat} :
    EachInTurn (fun _ _ => True) cfg dev env setfds remaining i :=
  fun _ _ => trivial

section InTurn

variable {cfg : BuildConfig} {dev : IpContext} {env : ReceiveEnv}
  {Suits : SocketRole → Datagram → Prop} {setfds : Finset Int}
  {branch : ReceiveBranch} {before after : List ReceiveBranch}

theorem servingBranches_skip (hbefore : ∀ other ∈ before, other.sock ∉ setfds)
    (rest : List ReceiveBranch) :
    servingBranches (before ++ rest) setfds = servingBranches rest setfds := by
  induction before with
  | nil => rfl
  | cons other before ih =>
      rw [List.forall_mem_cons] at hbefore
      rw [List.cons_append, servingBranches, if_neg hbefore.1]
      exact ih hbefore.2

theorem servingBranches_first
    (hsplit : branches cfg dev = before ++ branch :: after)
    (hbefore : ∀ other ∈ before, other.sock ∉ setfds)
    (hready : branch.sock ∈ setfds) :
    servingBranches (branches cfg dev) setfds = branch ::
      servingBranches (branches cfg dev) (setfds.erase branch.sock) := by
  have hlater : ∀ other ∈ before, other.sock ∉ setfds.erase branch.sock :=
    fun other hother h => hbefore other hother (Finset.mem_of_mem_erase h)
  rw [hsplit, servingBranches_skip hbefore, servingBranches_skip hlater,
    servingBranches, servingBranches, if_pos hready,
    if_neg (Finset.notMem_erase _ _)]

theorem eachInTurn_received {remaining i : Nat} {message : OcMessage}
    {datagram : Datagram} (halloc : env.allocate i = some message)
    (hrecv : env.recvfrom i = some datagram)
    (hsplit : branches cfg dev = before ++ branch :: after)
    (hbefore : ∀ other ∈ before, other.sock ∉ setfds)
    (hready : branch.sock ∈ setfds) :
    EachInTurn Suits cfg dev env setfds (remaining + 1) i ↔
      Suits branch.role datagram ∧
        EachInTurn Suits cfg dev env (setfds.erase branch.sock) remaining
          (i + 1) := by
  have hdatagrams : datagramsInTurn env (remaining + 1) i =
      datagram :: datagramsInTurn env remaining (i + 1) := by
    simp [datagramsInTurn, halloc, hrecv]
  rw [EachInTurn, EachInTurn, hdatagrams,
    servingBranches_first hsplit hbefore hready, List.zip_cons_cons,
    List.forall_mem_cons]

theorem eachInTurn_failed {remaining i : Nat} {message : OcMessage}
    (halloc : env.allocate i = some message) (hrecv : env.recvfrom i = none) :
    EachInTurn Suits cfg dev env setfds (remaining + 1) i ↔
      EachInTurn Suits cfg dev env setfds remaining (i + 1) := by
  have hdatagrams : datagramsInTurn env (remaining + 1) i =
      datagramsInTurn env remaining (i + 1) := by
    simp [datagramsInTurn, halloc, hrecv]
  rw [EachInTurn, EachInTurn, hdatagrams]

end InTurn

/-! ## One branch and the branches after it -/

section Branches

variable {env : ReceiveEnv} {dev : IpContext} {branch : ReceiveBranch}
  {v : BodyVars}

theorem run_notReady (h : branch.sock ∉ v.setfds) :
    branch.run env dev v = (.fallThrough, v) := if_neg h

theorem run_failed (h : branch.sock ∈ v.setfds)
    (hrecv : env.recvfrom v.recvCalls = none) :
    branch.run env dev v = (.nextIteration, branch.failed v) := by
  rw [ReceiveBranch.run, if_pos h, hrecv]

theorem run_received {datagram : Datagram} (h : branch.sock ∈ v.setfds)
    (hrecv : env.recvfrom v.recvCalls = some datagram) :
    branch.run env dev v =
      (branch.after, branch.received dev datagram v) := by
  rw [ReceiveBranch.run, if_pos h, hrecv]

theorem runBranches_skip {before : List ReceiveBranch}
    (h : ∀ branch ∈ before, branch.sock ∉ v.setfds)
    (rest : List ReceiveBranch) :
    runBranches env dev (before ++ rest) v = runBranches env dev rest v := by
  induction before with
  | nil => rfl
  | cons branch before ih =>
      rw [List.forall_mem_cons] at h
      rw [List.cons_append, runBranches, run_notReady h.1]
      exact ih h.2

theorem runBranches_notReady {rest : List ReceiveBranch}
    (h : ∀ branch ∈ rest, branch.sock ∉ v.setfds) :
    runBranches env dev rest v = (.common, v) := by
  have hskip : runBranches env dev (rest ++ []) v = runBranches env dev [] v :=
    runBranches_skip h []
  rwa [List.append_nil] at hskip

end Branches

/--
`branch` is the first that is ready, and once it has received nothing else
runs before `common`.
-/
structure Serves (cfg : BuildConfig) (dev : IpContext) (setfds : Finset Int)
    (branch : ReceiveBranch) : Prop where
  ready : branch.sock ∈ setfds
  first : ∃ before after, branches cfg dev = before ++ branch :: after ∧
    (∀ other ∈ before, other.sock ∉ setfds) ∧
    (branch.after = .common ∨ branch.after = .fallThrough ∧
      ∀ other ∈ after, other.sock ∉ setfds.erase branch.sock)

theorem mem_openFds {cfg : BuildConfig} {dev : IpContext} {fd : Int} :
    fd ∈ openFds cfg dev ↔
      ∃ branch ∈ openBranches cfg dev, branch.sock = fd := by
  unfold openFds openBranches
  cases cfg.ocIpv4 with
  | false => simp [serverBranch, mcastBranch, eq_comm]
  | true =>
      simp [serverBranch, mcastBranch, server4Branch, mcast4Branch, eq_comm]
      tauto

theorem mem_rfds_or {cfg : BuildConfig} {dev : IpContext} {fd : Int} :
    fd ∈ rfds cfg dev ↔ fd ∈ openFds cfg dev ∨
      ∃ branch ∈ secureBranches cfg dev, branch.sock = fd := by
  unfold rfds openFds secureBranches
  cases cfg.ocIpv4 <;> cases cfg.ocSecurity
  all_goals simp only [secureBranch, secure4Branch, Bool.false_eq_true, if_true,
    if_false, Finset.mem_union, Finset.mem_insert, Finset.mem_singleton,
    Finset.notMem_empty, List.mem_cons, List.not_mem_nil, or_false,
    exists_eq_or_imp, exists_eq_left, eq_comm (a := fd), false_and,
    exists_false]
  tauto

theorem mem_rfds {cfg : BuildConfig} {dev : IpContext} {fd : Int} :
    fd ∈ rfds cfg dev ↔ ∃ branch ∈ branches cfg dev, branch.sock = fd := by
  rw [mem_rfds_or, mem_openFds]
  simp only [branches, List.mem_append, or_and_right, exists_or]

theorem secureBranches_both {cfg : BuildConfig} {dev : IpContext}
    (hipv4 : cfg.ocIpv4 = true) (hsecurity : cfg.ocSecurity = true) :
    secureBranches cfg dev = [secureBranch dev, secure4Branch dev] := by
  simp [secureBranches, hipv4, hsecurity]

theorem openBranches_after {cfg : BuildConfig} {dev : IpContext}
    {branch : ReceiveBranch} (h : branch ∈ openBranches cfg dev) :
    branch.after = .common := by
  unfold openBranches at h
  split at h
  all_goals
    simp only [List.mem_append, List.mem_cons, List.not_mem_nil, or_false] at h
    aesop

section Serving

variable {cfg : BuildConfig} {dev : IpContext} {setfds : Finset Int}

theorem exists_firstReady {list : List ReceiveBranch}
    (h : ∃ branch ∈ list, branch.sock ∈ setfds) :
    ∃ before branch after, list = before ++ branch :: after ∧
      branch.sock ∈ setfds ∧ ∀ other ∈ before, other.sock ∉ setfds := by
  have hfound : (list.find? (·.sock ∈ setfds)).isSome := by
    rw [List.find?_isSome]
    simpa using h
  obtain ⟨branch, hbranch⟩ := Option.isSome_iff_exists.mp hfound
  obtain ⟨hready, before, after, hsplit, hbefore⟩ :=
    List.find?_eq_some_iff_append.mp hbranch
  exact ⟨before, branch, after, hsplit, of_decide_eq_true hready,
    by simpa using hbefore⟩

theorem serves_open
    (h : ∃ branch ∈ openBranches cfg dev, branch.sock ∈ setfds) :
    ∃ branch ∈ openBranches cfg dev, Serves cfg dev setfds branch := by
  obtain ⟨before, branch, after, hsplit, hready, hbefore⟩ :=
    exists_firstReady h
  have hmem : branch ∈ openBranches cfg dev := by simp [hsplit]
  refine ⟨branch, hmem, hready, before, after ++ secureBranches cfg dev, ?_,
    hbefore, .inl (openBranches_after hmem)⟩
  simp [branches, hsplit]

theorem serves_last {before : List ReceiveBranch} {branch : ReceiveBranch}
    (hsplit : branches cfg dev = before ++ [branch])
    (hready : branch.sock ∈ setfds)
    (hbefore : ∀ other ∈ before, other.sock ∉ setfds)
    (hafter : branch.after = .fallThrough) :
    Serves cfg dev setfds branch :=
  ⟨hready, before, [], hsplit, hbefore, .inr ⟨hafter, by simp⟩⟩

/-- Where both secure branches are built, the first that is ready serves. -/
theorem serves_either (hipv4 : cfg.ocIpv4 = true)
    (hsecurity : cfg.ocSecurity = true)
    (hopen : ∀ branch ∈ openBranches cfg dev, branch.sock ∉ setfds)
    (hready : dev.secureSock ∈ setfds ∨ dev.secure4Sock ∈ setfds)
    (halone : dev.secureSock ≠ dev.secure4Sock → dev.secureSock ∈ setfds →
      dev.secure4Sock ∉ setfds) :
    Serves cfg dev setfds (secureBranch dev) ∨
      Serves cfg dev setfds (secure4Branch dev) := by
  have hlist := @secureBranches_both _ dev hipv4 hsecurity
  by_cases hsecure : dev.secureSock ∈ setfds
  · left
    refine ⟨hsecure, openBranches cfg dev, [secure4Branch dev], ?_, hopen,
      .inr ⟨rfl, ?_⟩⟩
    · rw [branches, hlist]
    · intro other hother hstill
      rw [List.mem_singleton] at hother
      subst hother
      obtain ⟨hne, hsecure4⟩ := Finset.mem_erase.mp hstill
      exact halone hne.symm hsecure hsecure4
  · right
    have hsplit : branches cfg dev =
        (openBranches cfg dev ++ [secureBranch dev]) ++ [secure4Branch dev] := by
      simp [branches, hlist]
    apply serves_last hsplit
    case hready => exact hready.resolve_left hsecure
    case hbefore =>
      intro other hother
      rcases List.mem_append.mp hother with hother | hother
      · exact hopen other hother
      · rw [List.mem_singleton.mp hother]
        exact hsecure
    case hafter => rfl

theorem serves_secure (hne : setfds.Nonempty) (hsub : setfds ⊆ rfds cfg dev)
    (hopen : ∀ branch ∈ openBranches cfg dev, branch.sock ∉ setfds)
    (hboth : ¬ BothSecure cfg dev setfds) :
    ∃ branch ∈ secureBranches cfg dev, Serves cfg dev setfds branch := by
  have hclosed : ∀ fd ∈ setfds, fd ∉ openFds cfg dev := by
    intro fd hfd hmem
    obtain ⟨branch, hbranch, rfl⟩ := mem_openFds.mp hmem
    exact hopen branch hbranch hfd
  obtain ⟨fd, hfd⟩ := hne
  obtain ⟨branch, hbranch, rfl⟩ :=
    (mem_rfds_or.mp (hsub hfd)).resolve_left (hclosed fd hfd)
  cases hsecurity : cfg.ocSecurity with
  | false => simp [secureBranches, hsecurity] at hbranch
  | true =>
      cases hipv4 : cfg.ocIpv4 with
      | false =>
          have hlist : secureBranches cfg dev = [secureBranch dev] := by
            simp [secureBranches, hsecurity, hipv4]
          rw [hlist, List.mem_singleton] at hbranch
          subst hbranch
          refine ⟨secureBranch dev, by simp [hlist], ?_⟩
          exact serves_last (by rw [branches, hlist]) hfd hopen rfl
      | true =>
          rw [secureBranches_both hipv4 hsecurity] at hbranch ⊢
          have hready : dev.secureSock ∈ setfds ∨ dev.secure4Sock ∈ setfds := by
            rcases List.mem_pair.mp hbranch with rfl | rfl
            · exact .inl hfd
            · exact .inr hfd
          have halone : dev.secureSock ≠ dev.secure4Sock →
              dev.secureSock ∈ setfds → dev.secure4Sock ∉ setfds := by
            intro hne hsecure hsecure4
            exact hboth ⟨hipv4, hsecurity, hne,
              Finset.mem_sdiff.mpr ⟨hsecure, hclosed _ hsecure⟩,
              Finset.mem_sdiff.mpr ⟨hsecure4, hclosed _ hsecure4⟩⟩
          rcases serves_either hipv4 hsecurity hopen hready halone with h | h
          · exact ⟨_, List.mem_cons_self, h⟩
          · exact ⟨_, List.mem_cons_of_mem _ List.mem_cons_self, h⟩

theorem exists_serves (hne : setfds.Nonempty) (hsub : setfds ⊆ rfds cfg dev)
    (hboth : setfds ∩ openFds cfg dev = ∅ → ¬ BothSecure cfg dev setfds) :
    ∃ branch ∈ branches cfg dev, Serves cfg dev setfds branch ∧
      ((setfds ∩ openFds cfg dev).Nonempty →
        branch.sock ∈ openFds cfg dev) := by
  by_cases hopen : ∃ branch ∈ openBranches cfg dev, branch.sock ∈ setfds
  · obtain ⟨branch, hmem, hserves⟩ := serves_open hopen
    exact ⟨branch, List.mem_append_left _ hmem, hserves,
      fun _ => mem_openFds.mpr ⟨branch, hmem, rfl⟩⟩
  · have hclosed : ∀ branch ∈ openBranches cfg dev, branch.sock ∉ setfds := by
      intro branch hbranch hready
      exact hopen ⟨branch, hbranch, hready⟩
    have hempty : setfds ∩ openFds cfg dev = ∅ := by
      rw [Finset.eq_empty_iff_forall_notMem]
      intro fd hfd
      obtain ⟨hready, hmem⟩ := Finset.mem_inter.mp hfd
      obtain ⟨branch, hbranch, rfl⟩ := mem_openFds.mp hmem
      exact hclosed branch hbranch hready
    obtain ⟨branch, hmem, hserves⟩ :=
      serves_secure hne hsub hclosed (hboth hempty)
    refine ⟨branch, List.mem_append_right _ hmem, hserves, fun h => ?_⟩
    rw [hempty] at h
    exact absurd h Finset.not_nonempty_empty

end Serving

/-! ## One iteration -/

section Iteration

variable {cfg : BuildConfig} {dev : IpContext} {env : ReceiveEnv}
  {branch : ReceiveBranch}

theorem runBranches_failed {v : BodyVars} (hne : v.setfds.Nonempty)
    (hsub : v.setfds ⊆ rfds cfg dev)
    (hrecv : env.recvfrom v.recvCalls = none) :
    ∃ branch ∈ branches cfg dev, branch.sock ∈ v.setfds ∧
      runBranches env dev (branches cfg dev) v =
        (.nextIteration, branch.failed v) := by
  obtain ⟨fd, hfd⟩ := hne
  obtain ⟨watched, hwatched, rfl⟩ := mem_rfds.mp (hsub hfd)
  obtain ⟨before, branch, after, hsplit, hready, hbefore⟩ :=
    exists_firstReady ⟨watched, hwatched, hfd⟩
  refine ⟨branch, by simp [hsplit], hready, ?_⟩
  rw [hsplit, runBranches_skip hbefore, runBranches, run_failed hready hrecv]

theorem runBranches_received {v : BodyVars} {datagram : Datagram}
    (hserves : Serves cfg dev v.setfds branch)
    (hrecv : env.recvfrom v.recvCalls = some datagram) :
    runBranches env dev (branches cfg dev) v =
      (.common, branch.received dev datagram v) := by
  obtain ⟨hready, before, after, hsplit, hbefore, hafter⟩ := hserves
  rw [hsplit, runBranches_skip hbefore, runBranches, run_received hready hrecv]
  rcases hafter with hcommon | ⟨hfall, hclosed⟩
  · rw [hcommon]
  · rw [hfall]
    exact runBranches_notReady (v := branch.received dev datagram v) hclosed

theorem branch_flags (hbranch : branch ∈ branches cfg dev) :
    branch.flags = branch.role.flags ∧
      (branch.role.flags.ipv4 = true → cfg.ocIpv4 = true) ∧
      (branch.role.flags.secured = true → cfg.ocSecurity = true) ∧
      branch.role.flags.ipv6 = !branch.role.flags.ipv4 := by
  revert branch
  unfold branches openBranches secureBranches
  cases cfg.ocIpv4 <;> cases cfg.ocSecurity
  all_goals simp [serverBranch, mcastBranch, server4Branch, mcast4Branch,
    secureBranch, secure4Branch, SocketRole.flags]

variable (cfg dev) in
theorem branch_sock : ∀ branch ∈ branches cfg dev,
    dev.sock branch.role = branch.sock := by
  unfold branches openBranches secureBranches
  cases cfg.ocIpv4 <;> cases cfg.ocSecurity
  all_goals simp [serverBranch, mcastBranch, server4Branch, mcast4Branch,
    secureBranch, secure4Branch, IpContext.sock]

theorem filledBy_received (hbranch : branch ∈ branches cfg dev)
    (datagram : Datagram) (v : BodyVars) :
    FilledBy dev branch.role datagram
      (deliverCommon cfg (branch.received dev datagram v)).message := by
  obtain ⟨hflags, hipv4, -, hipv6⟩ := branch_flags hbranch
  constructor
  · rfl
  · exact List.take_left
  · exact hflags
  · rfl
  · change endpointAddr cfg (v.message.receive branch.flags dev.device datagram)
      datagram.client = _
    rw [endpointAddr, OcMessage.receive, SocketRole.address, hflags]
    cases h : branch.role.flags.ipv4 with
    | true => simp [hipv4 h]
    | false =>
        have h6 : branch.role.flags.ipv6 = true := by rw [hipv6, h]; rfl
        simp [h6]

/-- With both secure sockets next, the second branch runs after the first. -/
theorem runBranches_bothSecure {v : BodyVars} {datagram : Datagram}
    (hboth : BothSecure cfg dev v.setfds)
    (hopen : v.setfds ∩ openFds cfg dev = ∅)
    (hrecv : env.recvfrom v.recvCalls = some datagram) :
    (secure4Branch dev).sock ∈
        ((secureBranch dev).received dev datagram v).setfds ∧
      runBranches env dev (branches cfg dev) v =
        runBranches env dev [secure4Branch dev]
          ((secureBranch dev).received dev datagram v) := by
  have hskip : ∀ branch ∈ openBranches cfg dev, branch.sock ∉ v.setfds := by
    intro branch hbranch hready
    have hmem : branch.sock ∈ v.setfds ∩ openFds cfg dev :=
      Finset.mem_inter.mpr ⟨hready, mem_openFds.mpr ⟨branch, hbranch, rfl⟩⟩
    rw [hopen] at hmem
    exact absurd hmem (Finset.notMem_empty _)
  have hlist := @secureBranches_both _ dev hboth.ocIpv4 hboth.ocSecurity
  have hsecure : (secureBranch dev).sock ∈ v.setfds :=
    (Finset.mem_sdiff.mp hboth.secure).1
  constructor
  · exact Finset.mem_erase.mpr
      ⟨hboth.distinct.symm, (Finset.mem_sdiff.mp hboth.secure4).1⟩
  · rw [branches, hlist, runBranches_skip hskip, runBranches,
      run_received hsecure hrecv]
    rfl

/--
What an iteration from `v` can do.  Where both secure sockets are next, the
second datagram is received over the first, or loses it by failing.
-/
inductive Iteration (cfg : BuildConfig) (dev : IpContext) (env : ReceiveEnv)
    (v : PassVars) : BodyVars → Prop where
  | idle (message : OcMessage) (hidle : v.setfds = ∅) :
      Iteration cfg dev env v ⟨message, v.setfds, v.client, v.recvCalls,
        [.acquire, .deliver message]⟩
  | failed (message : OcMessage) (branch : ReceiveBranch)
      (hbranch : branch ∈ branches cfg dev) (hready : branch.sock ∈ v.setfds)
      (hrecv : env.recvfrom v.recvCalls = none) :
      Iteration cfg dev env v ⟨message, v.setfds, v.client, v.recvCalls + 1,
        [.acquire, .attempt branch.role none, .release]⟩
  | received (message : OcMessage) (branch : ReceiveBranch)
      (datagram : Datagram) (hbranch : branch ∈ branches cfg dev)
      (hready : branch.sock ∈ v.setfds)
      (hboth : v.setfds ∩ openFds cfg dev = ∅ →
        ¬ BothSecure cfg dev v.setfds)
      (hopen : (v.setfds ∩ openFds cfg dev).Nonempty →
        branch.sock ∈ openFds cfg dev)
      (hrecv : env.recvfrom v.recvCalls = some datagram)
      (hfilled : FilledBy dev branch.role datagram message)
      (hfirst : ∃ before after, branches cfg dev = before ++ branch :: after ∧
        ∀ other ∈ before, other.sock ∉ v.setfds) :
      Iteration cfg dev env v ⟨message, v.setfds.erase branch.sock,
        datagram.client, v.recvCalls + 1,
        [.acquire, .attempt branch.role (some datagram), .deliver message]⟩
  | lost (message : OcMessage) (first : Datagram)
      (hboth : BothSecure cfg dev v.setfds)
      (hopen : v.setfds ∩ openFds cfg dev = ∅)
      (hrecv : env.recvfrom v.recvCalls = some first)
      (hrecv4 : env.recvfrom (v.recvCalls + 1) = none) :
      Iteration cfg dev env v ⟨message, v.setfds.erase dev.secureSock,
        first.client, v.recvCalls + 2,
        [.acquire, .attempt .secure (some first), .attempt .secure4 none,
          .release]⟩
  | overwritten (message : OcMessage) (first second : Datagram)
      (hboth : BothSecure cfg dev v.setfds)
      (hopen : v.setfds ∩ openFds cfg dev = ∅)
      (hrecv : env.recvfrom v.recvCalls = some first)
      (hrecv4 : env.recvfrom (v.recvCalls + 1) = some second)
      (hfilled : FilledBy dev .secure4 second message) :
      Iteration cfg dev env v ⟨message,
        (v.setfds.erase dev.secureSock).erase dev.secure4Sock, second.client,
        v.recvCalls + 2,
        [.acquire, .attempt .secure (some first),
          .attempt .secure4 (some second), .deliver message]⟩

theorem iteration_collision (message : OcMessage) {v : PassVars}
    {first : Datagram} (hboth : BothSecure cfg dev v.setfds)
    (hopen : v.setfds ∩ openFds cfg dev = ∅)
    (hrecv : env.recvfrom v.recvCalls = some first) :
    Iteration cfg dev env v (loopBody cfg dev env message v) := by
  let start : BodyVars :=
    ⟨message, v.setfds, v.client, v.recvCalls, [.acquire]⟩
  obtain ⟨hsecure4, hrun⟩ :=
    runBranches_bothSecure (v := start) hboth hopen hrecv
  have hmem : secure4Branch dev ∈ branches cfg dev := by
    simp [branches, secureBranches_both hboth.ocIpv4 hboth.ocSecurity]
  rw [loopBody, hrun, runBranches]
  cases hrecv4 : env.recvfrom (v.recvCalls + 1) with
  | none =>
      rw [run_failed hsecure4 hrecv4]
      exact .lost _ first hboth hopen hrecv hrecv4
  | some second =>
      rw [run_received hsecure4 hrecv4]
      exact .overwritten _ first second hboth hopen hrecv hrecv4
        (filledBy_received hmem second
          ((secureBranch dev).received dev first start))

variable (env) in
theorem loopBody_iteration (message : OcMessage) {v : PassVars}
    (hsub : v.setfds ⊆ rfds cfg dev) :
    Iteration cfg dev env v (loopBody cfg dev env message v) := by
  let start : BodyVars :=
    ⟨message, v.setfds, v.client, v.recvCalls, [.acquire]⟩
  rcases v.setfds.eq_empty_or_nonempty with hidle | hne
  · have hnone : ∀ branch ∈ branches cfg dev, branch.sock ∉ start.setfds := by
      intro branch _ hready
      change branch.sock ∈ v.setfds at hready
      rw [hidle] at hready
      exact Finset.notMem_empty _ hready
    rw [loopBody, runBranches_notReady hnone]
    exact .idle _ hidle
  cases hrecv : env.recvfrom v.recvCalls with
  | none =>
      obtain ⟨branch, hbranch, hready, hrun⟩ :=
        runBranches_failed (v := start) hne hsub hrecv
      rw [loopBody, hrun]
      exact .failed _ branch hbranch hready hrecv
  | some datagram =>
      by_cases hclash : v.setfds ∩ openFds cfg dev = ∅ ∧
          BothSecure cfg dev v.setfds
      · exact iteration_collision message hclash.2 hclash.1 hrecv
      · have hboth : v.setfds ∩ openFds cfg dev = ∅ →
            ¬ BothSecure cfg dev v.setfds := fun hempty h => hclash ⟨hempty, h⟩
        obtain ⟨branch, hbranch, hserves, hopen⟩ := exists_serves hne hsub hboth
        obtain ⟨before, after, hsplit, hbefore, -⟩ := hserves.first
        rw [loopBody, runBranches_received (v := start) hserves hrecv]
        exact .received _ branch datagram hbranch hserves.ready hboth hopen
          hrecv (filledBy_received hbranch datagram start)
          ⟨before, after, hsplit, hbefore⟩

end Iteration

/-! ## The whole pass -/

section Pass

variable {cfg : BuildConfig} {dev : IpContext} {env : ReceiveEnv}

variable (cfg dev env) in
theorem receiveLoop_later (remaining i : Nat) (v : PassVars) :
    ∃ later, (receiveLoop cfg dev env remaining i v).trace = v.trace ++ later ∧
      ∀ event ∈ later, i ≤ event.1 := by
  induction remaining generalizing i v with
  | zero => exact ⟨[], by simp [receiveLoop]⟩
  | succ remaining ih =>
      rw [receiveLoop]
      cases env.allocate i with
      | none => exact ⟨[], by simp⟩
      | some message =>
          obtain ⟨later, htrace, hlater⟩ := ih (i + 1) _
          refine ⟨_, htrace.trans (List.append_assoc _ _ _), ?_⟩
          intro event hevent
          rcases List.mem_append.mp hevent with hnow | hafter
          · obtain ⟨e, -, rfl⟩ := List.mem_map.mp hnow
            exact le_rfl
          · exact (Nat.le_succ i).trans (hlater event hafter)

theorem bothSecure_erase {setfds : Finset Int} {fd : Int}
    (hfd : fd ∈ openFds cfg dev) :
    BothSecure cfg dev (setfds.erase fd) ↔ BothSecure cfg dev setfds := by
  have hmem : ∀ other, other ∈ setfds.erase fd \ openFds cfg dev ↔
      other ∈ setfds \ openFds cfg dev := by
    intro other
    simp only [Finset.mem_sdiff, Finset.mem_erase]
    constructor
    · rintro ⟨⟨-, hother⟩, hclosed⟩
      exact ⟨hother, hclosed⟩
    · rintro ⟨hother, hclosed⟩
      exact ⟨⟨fun h => hclosed (h ▸ hfd), hother⟩, hclosed⟩
  constructor
  · rintro ⟨hipv4, hsecurity, hne, hsecure, hsecure4⟩
    exact ⟨hipv4, hsecurity, hne, (hmem _).mp hsecure, (hmem _).mp hsecure4⟩
  · rintro ⟨hipv4, hsecurity, hne, hsecure, hsecure4⟩
    exact ⟨hipv4, hsecurity, hne, (hmem _).mpr hsecure, (hmem _).mpr hsecure4⟩

theorem bothSecure_mono {setfds larger : Finset Int} (hsub : setfds ⊆ larger)
    (h : BothSecure cfg dev setfds) : BothSecure cfg dev larger := by
  have hsub := Finset.sdiff_subset_sdiff hsub (subset_refl (openFds cfg dev))
  exact ⟨h.ocIpv4, h.ocSecurity, h.distinct, hsub h.secure, hsub h.secure4⟩

theorem collision_received {setfds : Finset Int} {fd : Int} {remaining i : Nat}
    {message : OcMessage} {datagram : Datagram}
    (halloc : env.allocate i = some message)
    (hrecv : env.recvfrom i = some datagram) (hfd : fd ∈ setfds)
    (hboth : setfds ∩ openFds cfg dev = ∅ → ¬ BothSecure cfg dev setfds)
    (hopen : (setfds ∩ openFds cfg dev).Nonempty → fd ∈ openFds cfg dev) :
    SecureCollision cfg dev env (setfds.erase fd) remaining (i + 1) ↔
      SecureCollision cfg dev env setfds (remaining + 1) i := by
  have hturn : receivedInTurn env (remaining + 1) i =
      1 + receivedInTurn env remaining (i + 1) := by
    simp [receivedInTurn, halloc, hrecv]
  unfold SecureCollision
  rw [hturn]
  by_cases hempty : setfds ∩ openFds cfg dev = ∅
  · have hnot := hboth hempty
    have herase := Finset.erase_subset fd setfds
    exact iff_of_false (fun h => hnot (bothSecure_mono herase h.1))
      (fun h => hnot h.1)
  · have hmem := hopen (Finset.nonempty_iff_ne_empty.mpr hempty)
    have hcard : ((setfds.erase fd) ∩ openFds cfg dev).card + 1 =
        (setfds ∩ openFds cfg dev).card := by
      rw [Finset.erase_inter]
      exact Finset.card_erase_add_one (Finset.mem_inter.mpr ⟨hfd, hmem⟩)
    rw [bothSecure_erase hmem, ← hcard]
    exact and_congr_right fun _ => by omega

theorem collision_failed {setfds : Finset Int} {remaining i : Nat}
    {message : OcMessage} (halloc : env.allocate i = some message)
    (hrecv : env.recvfrom i = none) :
    SecureCollision cfg dev env setfds remaining (i + 1) ↔
      SecureCollision cfg dev env setfds (remaining + 1) i := by
  have hturn : receivedInTurn env (remaining + 1) i =
      receivedInTurn env remaining (i + 1) := by
    simp [receivedInTurn, halloc, hrecv]
  rw [SecureCollision, SecureCollision, hturn]

theorem advance_trace_lt {v : PassVars} {i : Nat} {w : BodyVars}
    (htrace : ∀ event ∈ v.trace, event.1 < i) :
    ∀ event ∈ (v.advance i w).trace, event.1 < i + 1 := by
  intro event hevent
  rcases List.mem_append.mp hevent with hold | hnow
  · exact Nat.lt_succ_of_lt (htrace event hold)
  · obtain ⟨e, -, rfl⟩ := List.mem_map.mp hnow
    exact Nat.lt_succ_self i

/-- The events of one object are those of one iteration. -/
theorem receiveLoop_history {I : Finset Int → Prop}
    (hstep : ∀ v message, I v.setfds →
      I (loopBody cfg dev env message v).setfds)
    (remaining : Nat) {i : Nat} {v : PassVars} (hv : I v.setfds)
    (htrace : ∀ event ∈ v.trace, event.1 < i) {object : Nat}
    (hobject : i ≤ object) :
    history object (receiveLoop cfg dev env remaining i v).trace = [] ∨
      ∃ w message, I w.setfds ∧
        history object (receiveLoop cfg dev env remaining i v).trace =
          (loopBody cfg dev env message w).events := by
  have hold : ∀ j, i ≤ j → history j v.trace = [] := by
    intro j hj
    exact history_of_ne fun event hevent => ((htrace event hevent).trans_le hj).ne
  induction remaining generalizing i v with
  | zero => exact .inl (hold object hobject)
  | succ remaining ih =>
      rw [receiveLoop]
      cases env.allocate i with
      | none => exact .inl (hold object hobject)
      | some message =>
          dsimp only
          have hnext : ∀ event ∈ (v.advance i
              (loopBody cfg dev env message v)).trace, event.1 < i + 1 :=
            advance_trace_lt htrace
          rcases hobject.eq_or_lt with rfl | hlater
          · right
            obtain ⟨later, hafter, hids⟩ := receiveLoop_later cfg dev env
              remaining (i + 1) (v.advance i (loopBody cfg dev env message v))
            have hlaterNone : history i later = [] :=
              history_of_ne fun event hevent =>
                (Nat.lt_of_succ_le (hids event hevent)).ne'
            refine ⟨v, message, hv, ?_⟩
            rw [hafter, history_append, hlaterNone, List.append_nil,
              PassVars.advance, history_append, hold i le_rfl, history_tagged,
              List.nil_append]
          · exact ih (hstep v message hv) hnext hlater fun j hj =>
              history_of_ne fun event hevent =>
                ((hnext event hevent).trans_le hj).ne

section Suitably

variable {Suits : SocketRole → Datagram → Prop}

/-- No collision is to come, and each datagram suits the branch it comes to. -/
structure Clear (Suits : SocketRole → Datagram → Prop) (cfg : BuildConfig)
    (dev : IpContext) (env : ReceiveEnv) (setfds : Finset Int)
    (remaining i : Nat) : Prop where
  apart : ¬ SecureCollision cfg dev env setfds remaining i
  suits : EachInTurn Suits cfg dev env setfds remaining i

theorem clear_iff {setfds : Finset Int} {remaining i : Nat} :
    Clear Suits cfg dev env setfds remaining i ↔
      ¬ SecureCollision cfg dev env setfds remaining i ∧
        EachInTurn Suits cfg dev env setfds remaining i :=
  ⟨fun h => ⟨h.apart, h.suits⟩, fun h => ⟨h.1, h.2⟩⟩

theorem clear_true_iff {setfds : Finset Int} {remaining i : Nat} :
    Clear (fun _ _ => True) cfg dev env setfds remaining i ↔
      ¬ SecureCollision cfg dev env setfds remaining i :=
  clear_iff.trans (and_iff_left eachInTurn_true)

theorem clear_idle {setfds : Finset Int} {remaining i : Nat}
    (hcount : receivedInTurn env remaining i = 0)
    (hdatagrams : datagramsInTurn env remaining i = []) :
    Clear Suits cfg dev env setfds remaining i :=
  ⟨fun h => by simp [SecureCollision, hcount] at h,
    by simp [EachInTurn, hdatagrams]⟩

theorem clear_failed {setfds : Finset Int} {remaining i : Nat}
    {message : OcMessage} (halloc : env.allocate i = some message)
    (hrecv : env.recvfrom i = none) :
    Clear Suits cfg dev env setfds (remaining + 1) i ↔
      Clear Suits cfg dev env setfds remaining (i + 1) := by
  rw [clear_iff, clear_iff]
  exact and_congr (collision_failed halloc hrecv).symm.not
    (eachInTurn_failed halloc hrecv)

/-- An iteration that is itself in order, and leaves the pass to the rest. -/
structure Proper (Suits : SocketRole → Datagram → Prop) (cfg : BuildConfig)
    (dev : IpContext) (env : ReceiveEnv) (v : PassVars) (i : Nat)
    (w : BodyVars) : Prop where
  orderly : Orderly (FilledSuitably Suits dev) w.events
  sub : w.setfds ⊆ v.setfds
  card : v.setfds.card ≤ w.setfds.card + 1
  calls : w.recvCalls = v.recvCalls + 1
  clear : ∀ remaining, Clear Suits cfg dev env v.setfds (remaining + 1) i ↔
    Clear Suits cfg dev env w.setfds remaining (i + 1)

variable (Suits) in
/-- An iteration is proper, or it is where something goes wrong. -/
theorem loopBody_cases {v : PassVars} {message : OcMessage}
    (halloc : env.allocate v.recvCalls = some message)
    (hne : v.setfds.Nonempty) (hsub : v.setfds ⊆ rfds cfg dev) :
    Proper Suits cfg dev env v v.recvCalls (loopBody cfg dev env message v) ∨
      ¬ Orderly (FilledSuitably Suits dev)
          (loopBody cfg dev env message v).events ∧
        ∀ remaining, ¬ Clear Suits cfg dev env v.setfds (remaining + 1)
          v.recvCalls := by
  have hiteration := loopBody_iteration env message hsub
  generalize loopBody cfg dev env message v = w at hiteration ⊢
  cases hiteration with
  | idle _ hidle => exact absurd hidle hne.ne_empty
  | failed _ branch hbranch hready hrecv =>
      left
      constructor
      case orderly => exact orderly_released branch.role
      case sub => exact subset_rfl
      case card => exact Nat.le_succ _
      case calls => rfl
      case clear => exact fun _ => clear_failed halloc hrecv
  | received _ branch datagram hbranch hready hboth hopen hrecv hfilled
      hfirst =>
      obtain ⟨before, after, hsplit, hbefore⟩ := hfirst
      have hturn : ∀ remaining,
          EachInTurn Suits cfg dev env v.setfds (remaining + 1) v.recvCalls ↔
            Suits branch.role datagram ∧ EachInTurn Suits cfg dev env
              (v.setfds.erase branch.sock) remaining (v.recvCalls + 1) :=
        fun _ => eachInTurn_received halloc hrecv hsplit hbefore hready
      by_cases hsuits : Suits branch.role datagram
      · left
        constructor
        case orderly => exact orderly_delivered ⟨hfilled, hsuits⟩
        case sub => exact Finset.erase_subset _ _
        case card => exact (Finset.card_erase_add_one hready).ge
        case calls => rfl
        case clear =>
          intro remaining
          have hcollision : SecureCollision cfg dev env
              (v.setfds.erase branch.sock) remaining (v.recvCalls + 1) ↔
                SecureCollision cfg dev env v.setfds (remaining + 1)
                  v.recvCalls :=
            collision_received halloc hrecv hready hboth hopen
          rw [clear_iff, clear_iff, ← hcollision, hturn, and_iff_right hsuits]
      · right
        constructor
        · exact fun horderly => hsuits horderly.holds.2
        · exact fun _ hclear => hsuits ((hturn _).mp hclear.suits).1
  | lost _ first hboth hopen hrecv =>
      refine .inr ⟨not_orderly_lost (.inl rfl),
        fun remaining hclear => hclear.apart ⟨hboth, ?_⟩⟩
      simp [hopen, receivedInTurn, halloc, hrecv]
  | overwritten _ first second hboth hopen hrecv =>
      refine .inr ⟨not_orderly_lost (.inr ?_),
        fun remaining hclear => hclear.apart ⟨hboth, ?_⟩⟩
      · change _ :: _ ≠ []
        exact List.cons_ne_nil _ _
      · simp [hopen, receivedInTurn, halloc, hrecv]

/-- Later iterations do not mend an iteration gone wrong. -/
theorem receiveLoop_not_exactlyOnce {v : PassVars} {remaining i : Nat}
    {w : BodyVars} (htrace : ∀ event ∈ v.trace, event.1 < i)
    (hbad : ¬ Orderly (FilledSuitably Suits dev) w.events) :
    ¬ ExactlyOnce (FilledSuitably Suits dev)
      (receiveLoop cfg dev env remaining (i + 1) (v.advance i w)).trace := by
  obtain ⟨later, hlater, hids⟩ := receiveLoop_later cfg dev env remaining
    (i + 1) (v.advance i w)
  intro h
  apply hbad
  have hlaterNone : history i later = [] :=
    history_of_ne fun event hevent =>
      (Nat.lt_of_succ_le (hids event hevent)).ne'
  have hbefore : history i v.trace = [] :=
    history_of_ne fun event hevent => (htrace event hevent).ne
  have hi := h i
  rwa [hlater, history_append, hlaterNone, List.append_nil, PassVars.advance,
    history_append, hbefore, history_tagged, List.nil_append] at hi

variable (env Suits) in
theorem receiveLoop_exactlyOnce_iff {remaining : Nat} {v : PassVars}
    (hcount : remaining ≤ v.setfds.card) (hsub : v.setfds ⊆ rfds cfg dev)
    (htrace : ∀ event ∈ v.trace, event.1 < v.recvCalls) :
    ExactlyOnce (FilledSuitably Suits dev)
        (receiveLoop cfg dev env remaining v.recvCalls v).trace ↔
      ExactlyOnce (FilledSuitably Suits dev) v.trace ∧
        Clear Suits cfg dev env v.setfds remaining v.recvCalls := by
  induction remaining generalizing v with
  | zero => exact (and_iff_left (clear_idle rfl rfl)).symm
  | succ remaining ih =>
      have hne : v.setfds.Nonempty := Finset.card_pos.mp (by omega)
      rw [receiveLoop]
      cases halloc : env.allocate v.recvCalls with
      | none =>
          exact (and_iff_left (clear_idle (by simp [receivedInTurn, halloc])
            (by simp [datagramsInTurn, halloc]))).symm
      | some message =>
          dsimp only
          rcases loopBody_cases Suits halloc hne hsub with
            hproper | ⟨hbad, hwrong⟩
          · generalize loopBody cfg dev env message v = w at hproper
            have hcalls : (v.advance v.recvCalls w).recvCalls =
                v.recvCalls + 1 := hproper.calls
            have hiter : ExactlyOnce (FilledSuitably Suits dev)
                (v.advance v.recvCalls w).trace ↔
                  ExactlyOnce (FilledSuitably Suits dev) v.trace := by
              rw [PassVars.advance, exactlyOnce_append]
              case hnew => exact fun event hevent => (htrace event hevent).ne
              exact and_iff_left hproper.orderly
            rw [← hcalls, ih, hiter, hcalls]
            case hcount =>
              exact Nat.le_of_succ_le_succ (hcount.trans hproper.card)
            case hsub => exact hproper.sub.trans hsub
            case htrace =>
              rw [hcalls]
              exact advance_trace_lt htrace
            rw [hproper.clear]
            rfl
          · exact iff_of_false (receiveLoop_not_exactlyOnce htrace hbad)
              fun h => hwrong remaining h.2

variable (env Suits) in
theorem receivePass_suitably_iff (ready : Ready cfg dev)
    (client : SockaddrStorage) :
    ExactlyOnce (FilledSuitably Suits dev)
        (receivePass cfg dev env ready client).trace ↔
      Clear Suits cfg dev env ready.setfds ready.setfds.card 0 := by
  have hloop := receiveLoop_exactlyOnce_iff env Suits
    (v := ⟨ready.setfds, client, 0, []⟩) le_rfl ready.watched
    (fun event hevent => absurd hevent List.not_mem_nil)
  exact hloop.trans (and_iff_right exactlyOnce_nil)

end Suitably

end Pass

/--
A pass delivers exactly once unless the secure sockets collide or a source does
not have the family of the socket whose branch receives from it; in the latter
case only the address is misread.
-/
theorem receivePass_exactlyOnce_iff (cfg : BuildConfig) (dev : IpContext)
    (env : ReceiveEnv) (ready : Ready cfg dev) (client : SockaddrStorage) :
    (ExactlyOnce (Carries dev) (receivePass cfg dev env ready client).trace ↔
        ¬ SecureCollision cfg dev env ready.setfds ready.setfds.card 0 ∧
          SourcesFit cfg dev env ready.setfds ready.setfds.card 0) ∧
      (ExactlyOnce (FilledBy dev)
          (receivePass cfg dev env ready client).trace ↔
        ¬ SecureCollision cfg dev env ready.setfds ready.setfds.card 0) := by
  rw [carries_eq, filledBy_eq, receivePass_suitably_iff,
    receivePass_suitably_iff]
  exact ⟨clear_iff, clear_true_iff⟩

/-- Each of the two datagrams comes from a source of its socket's family. -/
theorem receivePass_loses :
    ¬ ∀ (cfg : BuildConfig) (dev : IpContext) (env : ReceiveEnv)
      (ready : Ready cfg dev) (client : SockaddrStorage),
      ExactlyOnce (Carries dev) (receivePass cfg dev env ready client).trace := by
  intro h
  let cfg : BuildConfig := ⟨true, true, false, false⟩
  let dev : IpContext :=
    { IpContext.zero with
      secureSock := 3, secure4Sock := 4, server4Sock := 5, mcast4Sock := 6 }
  let source (family : AddressFamily) : SockaddrStorage :=
    { SockaddrStorage.zero with family }
  let env : ReceiveEnv :=
    ⟨fun _ => some ⟨0, [], ⟨0, {}, .ipv4 0 0⟩⟩,
      fun j => some ⟨[1], source (if j = 0 then .inet6 else .inet)⟩⟩
  let ready : Ready cfg dev := ⟨{3, 4}, by decide⟩
  have hboth : BothSecure cfg dev ready.setfds := by
    constructor <;> decide
  have hclear := (receivePass_suitably_iff env SameFamily ready .zero).mp
    (carries_eq dev ▸ h cfg dev env ready .zero)
  exact hclear.apart ⟨hboth, by decide⟩

end EspIotivity.Adapter
