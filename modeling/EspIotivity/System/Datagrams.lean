import EspIotivity.Adapter.Host
import EspIotivity.Foundation.Network

/-!
# Hosts on one link

The datagrams of any number of hosts, which the network may lose, repeat and
reorder.  A host learns of another only by what it receives: where a message
came from is read off the datagram's source address, and a reply goes there.
-/

namespace EspIotivity.System

open EspIotivity.Adapter
open EspIotivity.Foundation

/-! ## The link -/

structure Packet where
  source : SockaddrStorage
  target : SockaddrStorage
  bytes : List UInt8
  deriving DecidableEq, Repr

/--
The hosts' UDP stacks: the source address of what a descriptor sends, and
whether what is sent to an address can be received from a descriptor.
-/
structure Link (Node : Type) where
  name : Node → Int → SockaddrStorage
  arrives : Node → Int → SockaddrStorage → Bool
  pduSize : Nat

/-- `recvfrom` drops what is beyond `OC_PDU_SIZE`. -/
def Packet.datagram (pduSize : Nat) (packet : Packet) : Datagram :=
  ⟨packet.bytes.take pduSize, packet.source⟩

abbrev LinkWorld (Node : Type) := World (fun _ : Node => HostState) Packet

section Network

variable {Node : Type} {cfg : BuildConfig}

/-- What is received was sent to an address of the socket. -/
def Link.supplies (link : Link Node) (n : Node) (dev : IpContext)
    (sent : List Packet) : ReceiveEvent → Bool
  | .attempt role (some datagram) =>
      sent.any fun packet => link.arrives n (dev.sock role) packet.target &&
        packet.datagram link.pduSize = datagram
  | _ => true

/-- The packets that the calls put on the link. -/
def Link.carried (link : Link Node) (n : Node) (message : OcMessage)
    (results : List Int) (calls : List SendCall) : Option (List Packet) :=
  if message.length ≤ message.data.length ∧
      ∀ pair ∈ calls.zip results, pair.1.whole pair.2 = true then
    some ((succeeded calls results).map fun call =>
      ⟨link.name n call.sock, call.receiver, call.bytes⟩)
  else none

variable (link : Link Node) (union : AddrUnion) (hosts : Node → Host cfg)

def hostStep (n : Node) : HostAct cfg (hosts n).dev → List Packet →
    HostState → Option (HostState × List Packet)
  | .send message results, _, s =>
      if message.endpoint.device = (hosts n).dev.device then
        (ocSendBuffer cfg union (hosts n).adapter message results).bind
          fun calls => (link.carried n message results calls).map
            fun out => ({ s with sent := s.sent ++ [message] }, out)
      else none
  | .discover env message results, _, s =>
      if message.endpoint.device = (hosts n).dev.device then
        (ocSendDiscoveryRequest cfg union env (hosts n).adapter message
          results).bind fun (interface, calls) =>
            (link.carried n message results calls).map fun out =>
              ({ s with
                sent := s.sent ++ [message]
                interfaces := s.interfaces ++ [interface] }, out)
      else none
  | .pass env ready, sent, s =>
      let v := receivePass cfg (hosts n).dev env ready s.client
      if v.trace.all fun event => link.supplies n (hosts n).dev sent event.2
      then some ({ s with
        client := v.client
        handed := s.handed ++ deliveries (v.trace.map Prod.snd) }, [])
      else none

def linkNetwork : Network (fun _ : Node => HostState) Packet
    (fun n => HostAct cfg (hosts n).dev) where
  start _ := .boot
  step := hostStep link union hosts

/-! ## What a step does -/

/-- The datagram that carries the message. -/
def wirePacket (n : Node) (message : OcMessage) : Packet where
  source := link.name n
    ((hosts n).dev.sock (sendRole cfg message.endpoint.flags))
  target := receiverOf cfg union message.endpoint
  bytes := message.bytes

/--
The packet arrived at the host, which handed it on in the message.  The source
is read right if it has the family of the socket at which it arrived.
-/
structure Received (n : Node) (packet : Packet) (branch : ReceiveBranch)
    (message : OcMessage) : Prop where
  watched : branch ∈ branches cfg (hosts n).dev
  arrived : link.arrives n ((hosts n).dev.sock branch.role) packet.target = true
  filled : FilledBy (hosts n).dev branch.role (packet.datagram link.pduSize)
    message
  carries : packet.source.family = branch.role.family →
    Carries (hosts n).dev branch.role (packet.datagram link.pduSize) message

variable {link union hosts} {n : Node}

theorem carried_cases {message : OcMessage} {results : List Int}
    {calls : List SendCall} {out : List Packet}
    (hdevice : message.endpoint.device = (hosts n).dev.device)
    (hcalls : ocSendBuffer cfg union (hosts n).adapter message results =
      some calls)
    (hcarried : link.carried n message results calls = some out) :
    ∀ packet ∈ out, packet = wirePacket link union hosts n message := by
  unfold Link.carried at hcarried
  split at hcarried
  case isFalse => cases hcarried
  case isTrue h =>
    cases hcarried
    have hcontext : getIpContextForDevice cfg message.endpoint.device
        (hosts n).adapter = some (hosts n).ref := by
      rw [hdevice]
      exact getIpContext_only (hosts n).only
    rw [ocSendBuffer, hcontext, Option.map_some, Option.some.injEq] at hcalls
    subst hcalls
    intro packet hpacket
    obtain ⟨call, hcall, rfl⟩ := List.mem_map.mp hpacket
    obtain rfl := sendLoop_whole h.1 h.2 call hcall
    rw [sendSock_eq]
    rfl

/-- What is sent carries the message, and nothing is handed on. -/
theorem hostStep_sends {act : HostAct cfg (hosts n).dev} {message : OcMessage}
    {sent out : List Packet} {s t : HostState}
    (hact : act.message? = some message)
    (hstep : hostStep link union hosts n act sent s = some (t, out)) :
    t.sent = s.sent ++ [message] ∧ t.handed = s.handed ∧
      ∀ packet ∈ out, packet = wirePacket link union hosts n message := by
  cases act with
  | pass env ready => cases hact
  | send posted results =>
      cases hact
      simp only [hostStep] at hstep
      split at hstep
      case isFalse => cases hstep
      case isTrue hdevice =>
        obtain ⟨calls, hcalls, hout⟩ := Option.bind_eq_some_iff.mp hstep
        obtain ⟨packets, hcarried, hresult⟩ := Option.map_eq_some_iff.mp hout
        cases hresult
        exact ⟨rfl, rfl, carried_cases hdevice hcalls hcarried⟩
  | discover env posted results =>
      cases hact
      simp only [hostStep] at hstep
      split at hstep
      case isFalse => cases hstep
      case isTrue hdevice =>
        obtain ⟨⟨interface, calls⟩, hrequest, hout⟩ :=
          Option.bind_eq_some_iff.mp hstep
        obtain ⟨packets, hcarried, hresult⟩ := Option.map_eq_some_iff.mp hout
        cases hresult
        exact ⟨rfl, rfl,
          carried_cases hdevice (ocSendDiscoveryRequest_calls hrequest)
            hcarried⟩

theorem hostStep_passes
    (hone : cfg.ocIpv4 = false ∨ cfg.ocSecurity = false)
    {act : HostAct cfg (hosts n).dev} {sent out : List Packet}
    {s t : HostState} (hact : act.message? = none)
    (hstep : hostStep link union hosts n act sent s = some (t, out)) :
    out = [] ∧ t.sent = s.sent ∧ ∃ new, t.handed = s.handed ++ new ∧
      ∀ message ∈ new, ∃ packet ∈ sent, ∃ branch,
        Received link hosts n packet branch message := by
  cases act with
  | send | discover => cases hact
  | pass env ready =>
      simp only [hostStep] at hstep
      split at hstep
      case isFalse => cases hstep
      case isTrue hsupplied =>
        cases hstep
        refine ⟨rfl, rfl, _, rfl, fun message hmessage => ?_⟩
        obtain ⟨⟨object, event⟩, hevent, rfl⟩ :=
          List.mem_map.mp (deliver_mem.mp hmessage)
        have hboth : ¬ BothSecure cfg (hosts n).dev ready.setfds := by
          rintro ⟨h4, hs, -⟩
          simp [h4, hs] at hone
        obtain ⟨branch, hbranch, datagram, hattempt, hfilled⟩ :=
          pass_handsOn hboth (mem_history.mpr hevent)
        have hall := List.all_eq_true.mp hsupplied _ (mem_history.mp hattempt)
        obtain ⟨packet, hpacket, hfits⟩ := List.any_eq_true.mp hall
        rw [Bool.and_eq_true, decide_eq_true_eq] at hfits
        obtain ⟨harrives, rfl⟩ := hfits
        exact ⟨packet, hpacket, branch, hbranch, harrives, hfilled,
          hfilled.carries_iff.mpr⟩

/-! ## Where what is handed on comes from -/

/-- What the host handed on is what the sender's packet carried. -/
structure CameFrom (link : Link Node) (union : AddrUnion)
    (hosts : Node → Host cfg) (world : LinkWorld Node) (n : Node)
    (handed : OcMessage) (sender : Node) (message : OcMessage)
    (branch : ReceiveBranch) : Prop where
  sent : message ∈ (world.parties sender).sent
  received : Received link hosts n (wirePacket link union hosts sender message)
    branch handed

structure Traced (link : Link Node) (union : AddrUnion)
    (hosts : Node → Host cfg) (world : LinkWorld Node) : Prop where
  packets : ∀ packet ∈ world.sent, ∃ sender,
    ∃ message ∈ (world.parties sender).sent,
      packet = wirePacket link union hosts sender message
  handed : ∀ n, ∀ handed ∈ (world.parties n).handed,
    ∃ sender message branch,
      CameFrom link union hosts world n handed sender message branch

variable [DecidableEq Node]
  {before after : LinkWorld Node}
  {label : Σ n, HostAct cfg (hosts n).dev}

/-- What a host has sent and handed on is kept. -/
theorem next_grows (hone : cfg.ocIpv4 = false ∨ cfg.ocSecurity = false)
    (hnext : (linkNetwork link union hosts).machine.next before label =
      some after) (m : Node) :
    (before.parties m).sent ⊆ (after.parties m).sent ∧
      (before.parties m).handed ⊆ (after.parties m).handed := by
  obtain ⟨n, act⟩ := label
  by_cases hm : m = n
  case neg =>
    rw [Network.next_other hnext hm]
    exact ⟨List.Subset.refl _, List.Subset.refl _⟩
  case pos =>
    subst hm
    obtain ⟨state, out, hstep, hparties, -⟩ := Network.next_eq hnext
    rw [hparties, Function.update_self]
    cases hact : act.message? with
    | some message =>
        obtain ⟨hsent, hhanded, -⟩ := hostStep_sends hact hstep
        rw [hsent, hhanded]
        exact ⟨List.subset_append_left _ _, List.Subset.refl _⟩
    | none =>
        obtain ⟨-, hsent, new, hhanded, -⟩ := hostStep_passes hone hact hstep
        rw [hsent, hhanded]
        exact ⟨List.Subset.refl _, List.subset_append_left _ _⟩

theorem Traced.next (hone : cfg.ocIpv4 = false ∨ cfg.ocSecurity = false)
    (h : Traced link union hosts before)
    (hnext : (linkNetwork link union hosts).machine.next before label =
      some after) : Traced link union hosts after := by
  have hgrows := next_grows hone hnext
  have hkept : ∀ n, ∀ handed ∈ (before.parties n).handed,
      ∃ sender message branch,
        CameFrom link union hosts after n handed sender message branch := by
    intro n handed hhanded
    obtain ⟨sender, message, branch, hcame⟩ := h.handed n handed hhanded
    exact ⟨sender, message, branch, (hgrows sender).1 hcame.sent,
      hcame.received⟩
  have hpackets : ∀ packet ∈ before.sent, ∃ sender,
      ∃ message ∈ (after.parties sender).sent,
        packet = wirePacket link union hosts sender message := by
    intro packet hpacket
    obtain ⟨sender, message, hmessage, rfl⟩ := h.packets packet hpacket
    exact ⟨sender, message, (hgrows sender).1 hmessage, rfl⟩
  obtain ⟨n, act⟩ := label
  obtain ⟨state, out, hstep, hparties, hsent⟩ := Network.next_eq hnext
  have hstate : after.parties n = state := by
    rw [hparties, Function.update_self]
  have hothers : ∀ m, m ≠ n → after.parties m = before.parties m :=
    fun m hm => Network.next_other hnext hm
  cases hact : act.message? with
  | some message =>
      obtain ⟨hlog, hhanded, hout⟩ := hostStep_sends hact hstep
      constructor
      case packets =>
        rw [hsent, List.forall_mem_append]
        refine ⟨hpackets, fun packet hpacket => ⟨n, message, ?_, ?_⟩⟩
        · rw [hstate, hlog]
          simp
        · exact hout packet hpacket
      case handed =>
        intro m handed hmem
        apply hkept m handed
        by_cases hm : m = n
        · subst hm
          rwa [hstate, hhanded] at hmem
        · rwa [hothers m hm] at hmem
  | none =>
      obtain ⟨rfl, -, new, hhanded, hnew⟩ := hostStep_passes hone hact hstep
      constructor
      case packets =>
        rw [hsent, List.append_nil]
        exact hpackets
      case handed =>
        intro m handed hmem
        by_cases hm : m = n
        case neg =>
          rw [hothers m hm] at hmem
          exact hkept m handed hmem
        case pos =>
          subst hm
          rw [hstate, hhanded] at hmem
          rcases List.mem_append.mp hmem with hold | hnow
          · exact hkept m handed hold
          · obtain ⟨packet, hpacket, branch, hreceived⟩ := hnew handed hnow
            obtain ⟨sender, message, hmessage, rfl⟩ := hpackets packet hpacket
            exact ⟨sender, message, branch, hmessage, hreceived⟩

theorem reachable_traced
    (hone : cfg.ocIpv4 = false ∨ cfg.ocSecurity = false)
    {world : LinkWorld Node}
    (hworld : (linkNetwork link union hosts).machine.Reachable world) :
    Traced link union hosts world := by
  refine hworld.invariant (I := Traced link union hosts) ?_
    fun _ _ _ hbefore hnext => hbefore.next hone hnext
  constructor
  · exact fun packet hpacket => absurd hpacket List.not_mem_nil
  · exact fun m handed hmem => absurd hmem List.not_mem_nil

/-- In every run, what a host hands on is one message that a host has sent. -/
theorem handed_sent (hone : cfg.ocIpv4 = false ∨ cfg.ocSecurity = false)
    {world : LinkWorld Node}
    (hworld : (linkNetwork link union hosts).machine.Reachable world)
    {n : Node} {handed : OcMessage}
    (hhanded : handed ∈ (world.parties n).handed) :
    ∃ sender message branch,
      CameFrom link union hosts world n handed sender message branch :=
  (reachable_traced hone hworld).handed n handed hhanded

/-! ## The way back -/

/-- Nothing but the socket receives what is sent to the endpoint. -/
def Reaches (link : Link Node) (union : AddrUnion) (cfg : BuildConfig)
    (endpoint : OcEndpoint) (n : Node) (sock : Int) : Prop :=
  ∀ m fd, link.arrives m fd (receiverOf cfg union endpoint) = true ↔
    m = n ∧ fd = sock

/--
Sockets are bound once: a unicast socket has a name of its family, and what is
sent to that name arrives there and nowhere else.
-/
structure Link.Sound (link : Link Node) (hosts : Node → Host cfg) : Prop where
  distinct : ∀ n role other, role.OpenedBy cfg → other.OpenedBy cfg →
    (hosts n).dev.sock role = (hosts n).dev.sock other → role = other
  arrival : ∀ n role target,
    link.arrives n ((hosts n).dev.sock role) target = true →
      role.OpenedBy cfg ∧ target.family = role.family
  family : ∀ n role, role.OpenedBy cfg → role.replyRole = role →
    (link.name n ((hosts n).dev.sock role)).family = role.family
  unicast : ∀ n role target, role.OpenedBy cfg → role.replyRole = role →
    SamePeer target (link.name n ((hosts n).dev.sock role)) →
      ∀ m fd, link.arrives m fd target = true ↔
        m = n ∧ fd = (hosts n).dev.sock role

omit [DecidableEq Node] in
theorem Received.sender_opened (hsound : link.Sound hosts) {sender : Node}
    {message handed : OcMessage} {branch : ReceiveBranch}
    (h : Received link hosts n (wirePacket link union hosts sender message)
      branch handed) :
    (sendRole cfg message.endpoint.flags).OpenedBy cfg ∧
      (sendRole cfg message.endpoint.flags).family = branch.role.family := by
  obtain ⟨hopened, hfamily⟩ := hsound.arrival _ _ _ h.arrived
  have hsent : (sendRole cfg message.endpoint.flags).family =
      branch.role.family := by
    rw [← receiverOf_family cfg union]
    exact hfamily
  exact ⟨sendRole_opened hopened hsent, hsent⟩

omit [DecidableEq Node] in
theorem Received.source_family (hsound : link.Sound hosts) {sender : Node}
    {message handed : OcMessage} {branch : ReceiveBranch}
    (h : Received link hosts n (wirePacket link union hosts sender message)
      branch handed) :
    (wirePacket link union hosts sender message).source.family =
      branch.role.family := by
  obtain ⟨hopened, hfamily⟩ := h.sender_opened hsound
  have hreply := sendRole_replyRole cfg message.endpoint.flags
  exact (hsound.family sender _ hopened hreply).trans hfamily

omit [DecidableEq Node] in
/-- A message names the socket that it was sent from. -/
theorem Received.reaches (hsound : link.Sound hosts) {sender : Node}
    {message handed : OcMessage} {branch : ReceiveBranch}
    (h : Received link hosts n (wirePacket link union hosts sender message)
      branch handed) :
    Reaches link union cfg handed.endpoint sender
      ((hosts sender).dev.sock (sendRole cfg message.endpoint.flags)) := by
  obtain ⟨hopened, -⟩ := h.sender_opened hsound
  obtain ⟨-, hipv4, -, -⟩ := branch_flags h.watched
  have hreply := sendRole_replyRole cfg message.endpoint.flags
  apply hsound.unicast sender _ _ hopened hreply
  exact samePeer_role union hipv4 (h.source_family hsound) h.filled.flags
    h.filled.addr

omit [DecidableEq Node] in
/-- An answer arrives where the message that it answers came from. -/
theorem CameFrom.answered (hsound : link.Sound hosts)
    {world : LinkWorld Node} {m sender : Node}
    {handed message answer answered : OcMessage}
    {branch other : ReceiveBranch}
    (hcame : CameFrom link union hosts world n handed sender message branch)
    (hendpoint : answer.endpoint = handed.endpoint)
    (hanswered : CameFrom link union hosts world m answered n answer other) :
    m = sender ∧ other.role = sendRole cfg message.endpoint.flags := by
  have harrived := hanswered.received.arrived
  change link.arrives m ((hosts m).dev.sock other.role)
    (receiverOf cfg union answer.endpoint) = true at harrived
  rw [hendpoint] at harrived
  obtain ⟨rfl, hsock⟩ := (hcame.received.reaches hsound _ _).mp harrived
  exact ⟨rfl, hsound.distinct m _ _ (hsound.arrival _ _ _ harrived).1
    (hcame.received.sender_opened hsound).1 hsock⟩

/--
A message that was handed on names its own source.  What answers it arrives at
the socket that the message came from and nowhere else, and its own answer goes
to the socket that answers for the one at which the first message arrived.
-/
theorem answers_return (hone : cfg.ocIpv4 = false ∨ cfg.ocSecurity = false)
    (hsound : link.Sound hosts)
    {world : LinkWorld Node}
    (hworld : (linkNetwork link union hosts).machine.Reachable world)
    {n : Node} {handed : OcMessage}
    (hhanded : handed ∈ (world.parties n).handed) :
    ∃ sender message branch,
      CameFrom link union hosts world n handed sender message branch ∧
        Carries (hosts n).dev branch.role
          ((wirePacket link union hosts sender message).datagram link.pduSize)
          handed ∧
        ∀ m answer answered other, answer.endpoint = handed.endpoint →
          CameFrom link union hosts world m answered n answer other →
            m = sender ∧ other.role = sendRole cfg message.endpoint.flags ∧
              answered.endpoint.flags.multicast = false ∧
              Reaches link union cfg answered.endpoint n
                ((hosts n).dev.sock branch.role.replyRole) := by
  obtain ⟨sender, message, branch, hcame⟩ :=
    (reachable_traced hone hworld).handed n handed hhanded
  refine ⟨sender, message, branch, hcame,
    hcame.received.carries (hcame.received.source_family hsound), ?_⟩
  intro m answer answered other hendpoint hanswered
  obtain ⟨hback, hrole⟩ := hcame.answered hsound hendpoint hanswered
  refine ⟨hback, hrole, ?_, ?_⟩
  · rw [hanswered.received.filled.flags, hrole, sendRole_multicast]
  · have hreaches := hanswered.received.reaches hsound
    obtain ⟨-, hipv4, hsecured, -⟩ := branch_flags hcame.received.watched
    rwa [hendpoint, hcame.received.filled.flags,
      sendRole_role hipv4 hsecured] at hreaches

/-! ## Conversations -/

def Addressed (known : List OcEndpoint)
    (world : LinkWorld Node) (n : Node)
    (message : OcMessage) : Prop :=
  message.endpoint ∈ known ∨
    ∃ handed ∈ (world.parties n).handed, handed.endpoint = message.endpoint

/-- A host sends to the known endpoints, or answers what it has handed on. -/
def Answers (known : List OcEndpoint)
    (world : LinkWorld Node)
    (label : Σ n, HostAct cfg (hosts n).dev) : Prop :=
  ∀ message ∈ label.2.message?, Addressed known world label.1 message

instance (known : List OcEndpoint) (world : LinkWorld Node)
    (label : Σ n, HostAct cfg (hosts n).dev) :
    Decidable (Answers known world label) :=
  inferInstanceAs (Decidable (∀ message ∈ label.2.message?,
    message.endpoint ∈ known ∨ ∃ handed ∈ (world.parties label.1).handed,
      handed.endpoint = message.endpoint))

variable {known : List OcEndpoint}

theorem next_addressed (hone : cfg.ocIpv4 = false ∨ cfg.ocSecurity = false)
    (hbefore : ∀ m, ∀ message ∈ (before.parties m).sent,
      Addressed known before m message)
    (hanswers : Answers known before label)
    (hnext : (linkNetwork link union hosts).machine.next before label =
      some after) :
    ∀ m, ∀ message ∈ (after.parties m).sent,
      Addressed known after m message := by
  have hkept : ∀ m message, Addressed known before m message →
      Addressed known after m message := by
    intro m message h
    refine h.imp_right fun ⟨handed, hhanded, hendpoint⟩ => ?_
    exact ⟨handed, (next_grows hone hnext m).2 hhanded, hendpoint⟩
  intro m message hmessage
  apply hkept
  obtain ⟨n, act⟩ := label
  obtain ⟨state, out, hstep, hparties, -⟩ := Network.next_eq hnext
  by_cases hm : m = n
  case neg =>
    rw [Network.next_other hnext hm] at hmessage
    exact hbefore m message hmessage
  case pos =>
    subst hm
    rw [hparties, Function.update_self] at hmessage
    cases hact : act.message? with
    | some posted =>
        obtain ⟨hsent, -, -⟩ := hostStep_sends hact hstep
        rw [hsent] at hmessage
        rcases List.mem_append.mp hmessage with hold | hnow
        · exact hbefore m message hold
        · rw [List.mem_singleton.mp hnow]
          exact hanswers posted hact
    | none =>
        obtain ⟨-, hsent, -⟩ := hostStep_passes hone hact hstep
        rw [hsent] at hmessage
        exact hbefore m message hmessage

theorem run_addressed (hone : cfg.ocIpv4 = false ∨ cfg.ocSecurity = false)
    {labels : List (Σ n, HostAct cfg (hosts n).dev)}
    {world : LinkWorld Node}
    (hanswers : (linkNetwork link union hosts).machine.Throughout
      (Answers known) (linkNetwork link union hosts).machine.start labels)
    (hrun : (linkNetwork link union hosts).machine.run labels = some world) :
    ∀ m, ∀ message ∈ (world.parties m).sent,
      Addressed known world m message := by
  refine hanswers.invariant (I := fun world => ∀ m,
    ∀ message ∈ (world.parties m).sent, Addressed known world m message)
    ?_ ?_ hrun
  · intro _ _ _ hbefore hguard hnext
    exact next_addressed hone hbefore hguard hnext
  · exact fun m message hmessage => absurd hmessage List.not_mem_nil

/--
Where hosts send to the known endpoints and otherwise only answer, a host hands
on what was sent to a known endpoint, or an answer to what it has itself sent,
on the socket that it was sent from.
-/
theorem handed_answers (hone : cfg.ocIpv4 = false ∨ cfg.ocSecurity = false)
    (hsound : link.Sound hosts)
    {labels : List (Σ n, HostAct cfg (hosts n).dev)}
    {world : LinkWorld Node}
    (hanswers : (linkNetwork link union hosts).machine.Throughout
      (Answers known) (linkNetwork link union hosts).machine.start labels)
    (hrun : (linkNetwork link union hosts).machine.run labels = some world)
    {n : Node} {handed : OcMessage}
    (hhanded : handed ∈ (world.parties n).handed) :
    ∃ sender message branch,
      CameFrom link union hosts world n handed sender message branch ∧
        (message.endpoint ∈ known ∨ ∃ question asked other,
          asked.endpoint = message.endpoint ∧
            CameFrom link union hosts world sender asked n question other ∧
            branch.role = sendRole cfg question.endpoint.flags) := by
  have htraced := reachable_traced hone ⟨labels, hrun⟩
  obtain ⟨sender, message, branch, hcame⟩ := htraced.handed n handed hhanded
  refine ⟨sender, message, branch, hcame, ?_⟩
  rcases run_addressed hone hanswers hrun sender message hcame.sent with
    hknown | ⟨asked, hasked, hendpoint⟩
  · exact .inl hknown
  · right
    obtain ⟨asker, question, other, hfrom⟩ :=
      htraced.handed sender asked hasked
    obtain ⟨rfl, hrole⟩ := hfrom.answered hsound hendpoint.symm hcame
    exact ⟨question, asked, other, hendpoint, hfrom, hrole⟩

end Network

/-! ## A request and its answer -/

def twoHosts (_ : Bool) : Host ipv6Build where
  adapter :=
    ⟨fun _ => { IpContext.zero with serverSock := 54, mcastSock := 55 }, [], []⟩
  ref := .slot 0
  only := ⟨fun _ => rfl, fun h => absurd h (by decide)⟩

def allOcfNodes : BitVec 128 := 0xff020000000000000000000000000158

/-- Both unicast sockets are bound to port 49152, at addresses 1 and 2. -/
def twoLink : Link Bool where
  name n _ := { SockaddrStorage.zero with
    family := .inet6, port := htons 49152, sin6Addr := if n then 2 else 1 }
  arrives n fd target :=
    target.family = .inet6 &&
      (fd = 54 && target.port = htons 49152 &&
          target.sin6Addr = (if n then 2 else 1) ||
        fd = 55 && target.port = htons ocfPortUnsecured &&
          target.sin6Addr = allOcfNodes)
  pduSize := 1024

theorem twoLink_sound : twoLink.Sound twoHosts := by
  constructor
  case distinct =>
    intro n role other hrole hother hsock
    cases role <;> cases other <;>
      simp_all [SocketRole.OpenedBy, SocketRole.flags, ipv6Build, twoHosts,
        Host.dev, IpContext.sock]
  case arrival =>
    intro n role target harrives
    cases role <;>
      simp_all [SocketRole.OpenedBy, SocketRole.flags, ipv6Build, twoHosts,
        twoLink, Host.dev, IpContext.sock, IpContext.zero, SocketRole.family]
  case family =>
    intro n role hrole hreply
    cases role <;>
      simp_all [SocketRole.OpenedBy, SocketRole.flags, ipv6Build,
        SocketRole.replyRole, SocketRole.family, twoLink]
  case unicast =>
    intro n role target hrole hreply hpeer m fd
    have hserver : role = .server := by
      cases role <;>
        simp_all [SocketRole.OpenedBy, SocketRole.flags, ipv6Build,
          SocketRole.replyRole]
    subst hserver
    have hfamily : target.family = .inet6 := hpeer.family
    have hport : target.port = htons 49152 := hpeer.port
    have haddr : target.sin6Addr = if n then 2 else 1 := hpeer.inet6 rfl
    have hother : htons 49152 ≠ htons ocfPortUnsecured := by decide
    cases n <;> cases m <;>
      simp_all [twoLink, twoHosts, Host.dev, IpContext.sock]

def discoveryRequest : OcMessage :=
  ⟨1, [7], ⟨0, { ipv6 := true, multicast := true },
    .ipv6 allOcfNodes ocfPortUnsecured 0⟩⟩

def discoveryReply : OcMessage :=
  ⟨2, [8, 9], ⟨0, { ipv6 := true, multicast := true }, .ipv6 1 49152 0⟩⟩

def receiving (bytes : List UInt8) (sender : Bool) : ReceiveEnv where
  allocate _ := some ⟨0, [], ⟨0, {}, .ipv4 0 0⟩⟩
  recvfrom _ := some ⟨bytes, twoLink.name sender 54⟩

/-- A discovery request, which arrives twice, and one answer. -/
def discoveryLabels : List (Σ n, HostAct ipv6Build (twoHosts n).dev) :=
  [⟨false, .discover ⟨⟨some 1, none⟩, true⟩ discoveryRequest [1]⟩,
    ⟨true, .pass (receiving [7] false) ⟨{55}, by decide⟩⟩,
    ⟨true, .pass (receiving [7] false) ⟨{55}, by decide⟩⟩,
    ⟨true, .send discoveryReply [2]⟩,
    ⟨false, .pass (receiving [8, 9] true) ⟨{54}, by decide⟩⟩]

def handedReply : OcMessage :=
  ⟨2, [8, 9], ⟨0, { ipv6 := true }, .ipv6 2 49152 0⟩⟩

theorem discovery_run : ∃ world,
    (linkNetwork twoLink overlaid twoHosts).machine.run discoveryLabels =
        some world ∧ handedReply ∈ (world.parties false).handed := by
  have hhanded : ((linkNetwork twoLink overlaid twoHosts).machine.run
      discoveryLabels).any
        (fun world => decide (handedReply ∈ (world.parties false).handed)) =
          true := by
    decide +kernel
  obtain ⟨world, hrun, hmem⟩ := (Option.any_eq_true _ _).mp hhanded
  exact ⟨world, hrun, of_decide_eq_true hmem⟩

theorem discovery_sent : ∃ world,
    handedReply ∈ (world.parties false).handed ∧ ∃ sender message branch,
      CameFrom twoLink overlaid twoHosts world false handedReply sender message
        branch := by
  obtain ⟨world, hrun, hmem⟩ := discovery_run
  exact ⟨world, hmem, handed_sent (.inl rfl) ⟨_, hrun⟩ hmem⟩

theorem discovery_returns : ∃ world,
    handedReply ∈ (world.parties false).handed ∧ ∃ sender message branch,
      CameFrom twoLink overlaid twoHosts world false handedReply sender message
          branch ∧
        Carries (twoHosts false).dev branch.role
          ((wirePacket twoLink overlaid twoHosts sender message).datagram
            twoLink.pduSize) handedReply ∧
        ∀ m answer back other, answer.endpoint = handedReply.endpoint →
          CameFrom twoLink overlaid twoHosts world m back false answer other →
            m = sender ∧
              other.role = sendRole ipv6Build message.endpoint.flags ∧
              back.endpoint.flags.multicast = false ∧
              Reaches twoLink overlaid ipv6Build back.endpoint false
                ((twoHosts false).dev.sock branch.role.replyRole) := by
  obtain ⟨world, hrun, hmem⟩ := discovery_run
  exact ⟨world, hmem,
    answers_return (.inl rfl) twoLink_sound ⟨_, hrun⟩ hmem⟩

theorem discovery_answers : ∃ world,
    handedReply ∈ (world.parties false).handed ∧ ∃ sender message branch,
      CameFrom twoLink overlaid twoHosts world false handedReply sender message
          branch ∧
        (message.endpoint ∈ [discoveryRequest.endpoint] ∨
          ∃ question asked other, asked.endpoint = message.endpoint ∧
            CameFrom twoLink overlaid twoHosts world sender asked false question
              other ∧
            branch.role = sendRole ipv6Build question.endpoint.flags) := by
  obtain ⟨world, hrun, hmem⟩ := discovery_run
  have hguard : (linkNetwork twoLink overlaid twoHosts).machine.Throughout
      (Answers [discoveryRequest.endpoint])
      (linkNetwork twoLink overlaid twoHosts).machine.start
      discoveryLabels := by
    decide +kernel
  exact ⟨world, hmem, handed_answers (.inl rfl) twoLink_sound hguard hrun hmem⟩

end EspIotivity.System
