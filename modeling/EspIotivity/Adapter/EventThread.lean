import EspIotivity.Adapter.Turns

/-!
# The event thread, pass after pass

`network_event_thread` keeps `client` from one pass to the next and uses one
buffer for each iteration.  Over any number of passes it hands on what it has
received in the order in which it received it.
-/

namespace EspIotivity.Adapter

open EspIotivity.Foundation

/-- What one turn of the while-loop meets. -/
structure ThreadPass (cfg : BuildConfig) (dev : IpContext) where
  env : ReceiveEnv
  ready : Ready cfg dev

/-- The passes made until `terminate` is seen to be 1. -/
def networkEventThread (cfg : BuildConfig) (dev : IpContext) :
    List (ThreadPass cfg dev) → SockaddrStorage → List ReceiveEvent
  | [], _ => []
  | pass :: passes, client =>
      let v := receivePass cfg dev pass.env pass.ready client
      v.trace.map Prod.snd ++ networkEventThread cfg dev passes v.client

/-- The pass receives from one secure socket while the other is ready. -/
def ThreadPass.Collides {cfg : BuildConfig} {dev : IpContext}
    (pass : ThreadPass cfg dev) : Prop :=
  SecureCollision cfg dev pass.env pass.ready.setfds pass.ready.setfds.card 0

/-- In turn, its sources have the families of the sockets that receive. -/
def ThreadPass.SourcesFit {cfg : BuildConfig} {dev : IpContext}
    (pass : ThreadPass cfg dev) : Prop :=
  Adapter.SourcesFit cfg dev pass.env pass.ready.setfds pass.ready.setfds.card 0

/-! ## The events of a loop -/

section Loop

variable {cfg : BuildConfig} {dev : IpContext} {env : ReceiveEnv}

variable (cfg dev env) in
/-- What the iterations from `i` on do. -/
def loopEvents : Nat → Nat → PassVars → List ReceiveEvent
  | 0, _, _ => []
  | remaining + 1, i, v =>
      match env.allocate i with
      | none => []
      | some message =>
          (loopBody cfg dev env message v).events ++
            loopEvents remaining (i + 1)
              (v.advance i (loopBody cfg dev env message v))

theorem receiveLoop_events (remaining i : Nat) (v : PassVars) :
    (receiveLoop cfg dev env remaining i v).trace.map Prod.snd =
      v.trace.map Prod.snd ++ loopEvents cfg dev env remaining i v := by
  induction remaining generalizing i v with
  | zero => simp [receiveLoop, loopEvents]
  | succ remaining ih =>
      rw [receiveLoop, loopEvents]
      cases env.allocate i with
      | none => simp
      | some message => simp [ih, PassVars.advance, Function.comp_def]

theorem loopEvents_succ (remaining : Nat) {i : Nat} {message : OcMessage}
    (halloc : env.allocate i = some message) (v : PassVars) :
    loopEvents cfg dev env (remaining + 1) i v =
      (loopBody cfg dev env message v).events ++
        loopEvents cfg dev env remaining (i + 1)
          (v.advance i (loopBody cfg dev env message v)) := by
  rw [loopEvents, halloc]

/-! ## One iteration -/

section Suitably

variable {Suits : SocketRole → Datagram → Prop}

/--
The datagram from the first secure socket is lost, or received over, or a
datagram does not suit the branch that receives it.
-/
inductive Misses (Suits : SocketRole → Datagram → Prop) (v : PassVars)
    (w : BodyVars) : Prop where
  | lost (first : Datagram) (hfills : fills w.events = [(.secure, first)])
      (hnone : deliveries w.events = [])
      (hcard : w.setfds.card + 1 = v.setfds.card)
  | overwritten (first second : Datagram) (message : OcMessage)
      (hfills : fills w.events = [(.secure, first), (.secure4, second)])
      (hitem : deliveries w.events = [message])
      (hflags : message.endpoint.flags = SocketRole.secure4.flags)
  | unsuited (role : SocketRole) (datagram : Datagram) (message : OcMessage)
      (hfills : fills w.events = [(role, datagram)])
      (hitem : deliveries w.events = [message])
      (hnot : ¬ Suits role datagram)

variable (Suits) in
/-- An iteration forwards what it receives, or misses it. -/
theorem iteration_forwards {v : PassVars} {w : BodyVars}
    (hiteration : Iteration cfg dev env v w) (hne : v.setfds.Nonempty) :
    Orderly (FilledSuitably Suits dev) w.events ∧
        Forwards (FilledSuitably Suits dev) w.events ∨
      ¬ Orderly (FilledSuitably Suits dev) w.events ∧ Misses Suits v w := by
  cases hiteration with
  | idle _ hidle => exact absurd hidle hne.ne_empty
  | failed _ branch =>
      exact .inl ⟨orderly_released branch.role, .nil⟩
  | received message branch datagram _ _ _ _ _ hfilled =>
      by_cases hsuits : Suits branch.role datagram
      · exact .inl ⟨orderly_delivered ⟨hfilled, hsuits⟩,
          .cons ⟨hfilled, hsuits⟩ .nil⟩
      · exact .inr ⟨fun horderly => hsuits horderly.holds.2,
          .unsuited branch.role datagram message rfl rfl hsuits⟩
  | lost _ first hboth =>
      have hcard :=
        Finset.card_erase_add_one (Finset.mem_sdiff.mp hboth.secure).1
      exact .inr ⟨not_orderly_lost (.inl rfl), .lost first rfl rfl hcard⟩
  | overwritten message first second _ _ _ _ hfilled =>
      right
      constructor
      · apply not_orderly_lost
        right
        exact List.cons_ne_nil (SocketRole.secure4, second) []
      · exact .overwritten first second message rfl rfl hfilled.flags

/-- Whatever comes after, what was missed is not made good. -/
theorem Misses.not_forwards {v : PassVars} {w : BodyVars}
    {after : List ReceiveEvent} (h : Misses Suits v w)
    (hafter : w.setfds.card + 1 = v.setfds.card →
      (deliveries after).length ≤ (fills after).length) :
    ¬ Forwards (FilledSuitably Suits dev) (w.events ++ after) := by
  rw [Forwards, fills_append, deliveries_append]
  intro hforwards
  cases h with
  | lost first hfills hnone hcard =>
      have hlength := hforwards.length_eq
      have hmore := hafter hcard
      simp only [hfills, hnone, List.length_append, List.length_singleton,
        List.length_nil] at hlength
      omega
  | overwritten first second message hfills hitem hflags =>
      rw [hfills, hitem] at hforwards
      have hfilled : FilledSuitably Suits dev .secure first message :=
        (List.forall₂_cons.mp hforwards).1
      rw [hfilled.1.flags] at hflags
      exact absurd hflags (by decide)
  | unsuited role datagram message hfills hitem hnot =>
      rw [hfills, hitem] at hforwards
      exact hnot (List.forall₂_cons.mp hforwards).1.2

end Suitably

/-- An iteration delivers no more than it receives, unless it is idle. -/
theorem iteration_excess {v : PassVars} {w : BodyVars}
    (hiteration : Iteration cfg dev env v w) (remaining : Nat) :
    (deliveries w.events).length + (remaining - w.setfds.card) ≤
      (fills w.events).length + (remaining + 1 - v.setfds.card) := by
  cases hiteration with
  | idle _ hidle => simp [fills, deliveries, hidle]; omega
  | failed => simp [fills, deliveries]; omega
  | received _ _ _ _ hready =>
      have hcard := Finset.card_erase_add_one hready
      simp [fills, deliveries]
      omega
  | lost _ _ hboth =>
      have hcard :=
        Finset.card_erase_add_one (Finset.mem_sdiff.mp hboth.secure).1
      simp [fills, deliveries]
      omega
  | overwritten _ _ _ hboth =>
      have hsecure := (Finset.mem_sdiff.mp hboth.secure).1
      have hsecure4 : dev.secure4Sock ∈ v.setfds.erase dev.secureSock :=
        Finset.mem_erase.mpr ⟨hboth.distinct.symm,
          (Finset.mem_sdiff.mp hboth.secure4).1⟩
      have hcard := Finset.card_erase_add_one hsecure
      have hcard4 := Finset.card_erase_add_one hsecure4
      simp [fills, deliveries]
      omega

/-! ## One pass -/

variable (env) in
theorem loopEvents_excess (remaining i : Nat) {v : PassVars}
    (hsub : v.setfds ⊆ rfds cfg dev) :
    (deliveries (loopEvents cfg dev env remaining i v)).length ≤
      (fills (loopEvents cfg dev env remaining i v)).length +
        (remaining - v.setfds.card) := by
  induction remaining generalizing i v with
  | zero => simp [loopEvents, deliveries]
  | succ remaining ih =>
      cases halloc : env.allocate i with
      | none => simp [loopEvents, halloc, deliveries]
      | some message =>
          have hiteration := loopBody_iteration env message hsub
          have hset := (loopBody_socks cfg dev env message v).2.2
          rw [loopEvents_succ remaining halloc]
          generalize loopBody cfg dev env message v = w at hiteration hset ⊢
          have hrest := ih (i + 1) (v := v.advance i w) (hset.trans hsub)
          have hnow := iteration_excess hiteration remaining
          change _ ≤ _ + (remaining - w.setfds.card) at hrest
          rw [fills_append, deliveries_append, List.length_append,
            List.length_append]
          omega

variable (env) in
theorem loopEvents_forwards {Suits : SocketRole → Datagram → Prop}
    {remaining : Nat} {v : PassVars}
    (hcount : remaining ≤ v.setfds.card) (hsub : v.setfds ⊆ rfds cfg dev)
    {after : List ReceiveEvent}
    (hafter : (deliveries after).length ≤ (fills after).length) :
    Forwards (FilledSuitably Suits dev)
        (loopEvents cfg dev env remaining v.recvCalls v ++ after) ↔
      Clear Suits cfg dev env v.setfds remaining v.recvCalls ∧
        Forwards (FilledSuitably Suits dev) after := by
  induction remaining generalizing v with
  | zero => exact (and_iff_right (clear_idle rfl rfl)).symm
  | succ remaining ih =>
      have hne : v.setfds.Nonempty := Finset.card_pos.mp (by omega)
      cases halloc : env.allocate v.recvCalls with
      | none =>
          rw [loopEvents, halloc]
          exact (and_iff_right (clear_idle (by simp [receivedInTurn, halloc])
            (by simp [datagramsInTurn, halloc]))).symm
      | some message =>
          rw [loopEvents_succ remaining halloc, List.append_assoc]
          have hiteration := loopBody_iteration env message hsub
          have hset := (loopBody_socks cfg dev env message v).2.2
          have hcases := loopBody_cases Suits halloc hne hsub
          generalize loopBody cfg dev env message v = w
            at hiteration hset hcases ⊢
          have hcalls : ∀ h : Proper Suits cfg dev env v v.recvCalls w,
              (v.advance v.recvCalls w).recvCalls = v.recvCalls + 1 :=
            fun h => h.calls
          rcases iteration_forwards Suits hiteration hne with
            ⟨horderly, hforwards⟩ | ⟨hbad, hmisses⟩
          · have hproper := hcases.resolve_right fun h => h.1 horderly
            rw [forwards_append_iff hforwards, ← hcalls hproper, ih,
              hcalls hproper, hproper.clear]
            case hcount =>
              exact Nat.le_of_succ_le_succ (hcount.trans hproper.card)
            case hsub => exact hset.trans hsub
            rfl
          · have hwrong := (hcases.resolve_left
              fun h => hbad h.orderly).2 remaining
            refine iff_of_false ?_ fun h => hwrong h.1
            apply hmisses.not_forwards
            intro hcard
            have hrest := loopEvents_excess env remaining (v.recvCalls + 1)
              (v := v.advance v.recvCalls w) (hset.trans hsub)
            change _ ≤ _ + (remaining - w.setfds.card) at hrest
            rw [fills_append, deliveries_append, List.length_append,
              List.length_append]
            omega

end Loop

/-! ## Any number of passes -/

section Passes

variable {cfg : BuildConfig} {dev : IpContext}

theorem receivePass_events (pass : ThreadPass cfg dev)
    (client : SockaddrStorage) :
    (receivePass cfg dev pass.env pass.ready client).trace.map Prod.snd =
      loopEvents cfg dev pass.env pass.ready.setfds.card 0
        ⟨pass.ready.setfds, client, 0, []⟩ :=
  receiveLoop_events _ _ _

theorem networkEventThread_excess (passes : List (ThreadPass cfg dev))
    (client : SockaddrStorage) :
    (deliveries (networkEventThread cfg dev passes client)).length ≤
      (fills (networkEventThread cfg dev passes client)).length := by
  induction passes generalizing client with
  | nil => simp [networkEventThread, deliveries]
  | cons pass passes ih =>
      have hpass := loopEvents_excess pass.env pass.ready.setfds.card 0
        (v := ⟨pass.ready.setfds, client, 0, []⟩) pass.ready.watched
      rw [Nat.sub_self, Nat.add_zero] at hpass
      have hrest := ih
        (receivePass cfg dev pass.env pass.ready client).client
      rw [networkEventThread, receivePass_events, fills_append,
        deliveries_append, List.length_append, List.length_append]
      omega

theorem networkEventThread_suitably_iff
    {Suits : SocketRole → Datagram → Prop} (passes : List (ThreadPass cfg dev))
    (client : SockaddrStorage) :
    Forwards (FilledSuitably Suits dev)
        (networkEventThread cfg dev passes client) ↔
      ∀ pass ∈ passes, Clear Suits cfg dev pass.env pass.ready.setfds
        pass.ready.setfds.card 0 := by
  induction passes generalizing client with
  | nil => simp [networkEventThread, Forwards, fills, deliveries]
  | cons pass passes ih =>
      rw [networkEventThread, receivePass_events, List.forall_mem_cons,
        ← ih (receivePass cfg dev pass.env pass.ready client).client]
      exact loopEvents_forwards pass.env
        (v := ⟨pass.ready.setfds, client, 0, []⟩) le_rfl pass.ready.watched
        (networkEventThread_excess passes _)

/--
Over any passes, the datagrams that are received are handed on once each, in
order and with their own peers, exactly if in no pass the secure sockets collide
or a source has another family than the socket that receives from it.  That
family matters to the addresses only.
-/
theorem networkEventThread_forwards_iff (passes : List (ThreadPass cfg dev))
    (client : SockaddrStorage) :
    (Forwards (Carries dev) (networkEventThread cfg dev passes client) ↔
        ∀ pass ∈ passes, ¬ pass.Collides ∧ pass.SourcesFit) ∧
      (Forwards (FilledBy dev) (networkEventThread cfg dev passes client) ↔
        ∀ pass ∈ passes, ¬ pass.Collides) := by
  rw [carries_eq, filledBy_eq, networkEventThread_suitably_iff,
    networkEventThread_suitably_iff]
  exact ⟨forall₂_congr fun _ _ => clear_iff,
    forall₂_congr fun _ _ => clear_true_iff⟩

end Passes

end EspIotivity.Adapter
