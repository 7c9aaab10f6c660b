import EspIotivity.Foundation.Machine
import EspIotivity.Lightbulb.Bulb
import Mathlib.Data.List.Infix

/-!
# Commands read while they are being stored

The server task stores a command field by field and the daemon reads it field
by field through the pointer `get_current_bulb_state` returns; nothing orders
the two.  A pass may therefore apply a mixture of two commands.  It does not
when every field is read on the same side of the call that stores it.
-/

namespace EspIotivity.Lightbulb

open EspIotivity.Foundation

structure Command where
  hueValue : ℚ
  saturationValue : ℚ
  brightnessValue : Int
  setOn : Bool
  deriving DecidableEq, Repr

def BulbState.command (s : BulbState) : Command :=
  ⟨s.hueValue, s.saturationValue, s.brightnessValue, s.setOn⟩

/-- The field a pass reads next, with the values it has read so far. -/
inductive PassPoint where
  | hue
  | saturation (hue : ℚ)
  | brightness (hue saturation : ℚ)
  | on (hue saturation : ℚ) (brightness : Int)
  deriving DecidableEq, Repr

/-- `pending` are the stores the call under way has still to make. -/
structure SharedState where
  bulb : BulbState
  pending : List BulbWrite
  pass : PassPoint
  applied : List Command
  deriving DecidableEq, Repr

inductive SharedAct where
  | call (state : UInt32) (flashInterval : Int) (rand : Nat → Nat)
  | store
  | read

def SharedState.read (s : SharedState) : SharedState :=
  match s.pass with
  | .hue => { s with pass := .saturation s.bulb.hueValue }
  | .saturation hue =>
      { s with pass := .brightness hue s.bulb.saturationValue }
  | .brightness hue saturation =>
      { s with pass := .on hue saturation s.bulb.brightnessValue }
  | .on hue saturation brightness =>
      { s with
        pass := .hue
        applied :=
          ⟨hue, saturation, brightness, s.bulb.setOn⟩ :: s.applied }

def SharedState.next (s : SharedState) : SharedAct → Option SharedState
  | .call state flashInterval rand =>
      match s.pending with
      | [] =>
          some { s with pending := notifyWrites state flashInterval rand }
      | _ :: _ => none
  | .store =>
      match s.pending with
      | [] => none
      | write :: pending =>
          some { s with bulb := write.store s.bulb, pending := pending }
  | .read => some s.read

def sharedMachine : Machine SharedState SharedAct :=
  ⟨⟨.boot, [], .hue, []⟩, SharedState.next⟩

/-- The run has a moment, no call being under way, with this command. -/
def HeldWhenQuiet (acts : List SharedAct) (command : Command) : Prop :=
  ∃ before t, before <+: acts ∧ sharedMachine.run before = some t ∧
    t.pending = [] ∧ t.bulb.command = command

def NoTornCommand (acts : List SharedAct) : Prop :=
  ∀ s, sharedMachine.run acts = some s →
    ∀ command ∈ s.applied, HeldWhenQuiet acts command

/--
The bulb shows another colour, a pass reads its hue, the command is replaced
by red, and the pass reads the rest.
-/
def tornRun : List SharedAct :=
  [.call 4 0 fun i => [200, 30, 10].getD i 0, .store, .store, .store, .store,
    .store, .read, .call 1 0 fun _ => 0, .store, .store, .store, .store,
    .store, .read, .read, .read]

theorem tornRun_torn : ¬ NoTornCommand tornRun := by
  intro h
  obtain ⟨before, t, hprefix, hrun, hquiet, hheld⟩ :=
    h _ rfl ⟨200, 100, 20, true⟩ (by decide +kernel)
  have hnever : ∀ before ∈ tornRun.inits, ∀ t ∈ sharedMachine.run before,
      t.pending = [] → t.bulb.command ≠ ⟨200, 100, 20, true⟩ := by
    decide +kernel
  exact hnever before ((List.mem_inits _ _).mpr hprefix) t hrun hquiet hheld

/-! ## Which steps keep a pass whole -/

def BulbWrite.switches : BulbWrite → Bool
  | .setOn _ => true
  | _ => false

def SharedState.started (s : SharedState) : Bool :=
  match s.pending with
  | [] => false
  | write :: _ => !write.switches

def PassPoint.reads : PassPoint → BulbWrite → Bool
  | .hue, .hueValue _ => true
  | .saturation _, .saturationValue _ => true
  | .brightness _ _, .brightnessValue _ => true
  | _, _ => false

def PassPoint.hasRead : PassPoint → BulbWrite → Bool
  | .saturation _, .hueValue _ => true
  | .brightness _ _, .hueValue _ => true
  | .brightness _ _, .saturationValue _ => true
  | .on _ _ _, .hueValue _ => true
  | .on _ _ _, .saturationValue _ => true
  | .on _ _ _, .brightnessValue _ => true
  | _, _ => false

/--
A call that switches the bulb on makes its first store between passes, and a
pass does not read a field that a call which has started has still to store.
-/
def Whole (s : SharedState) : SharedAct → Prop
  | .call _ _ _ => True
  | .store => s.pending.head? = some (.setOn true) → s.pass = .hue
  | .read => s.started = true → ∀ write ∈ s.pending, s.pass.reads write = false

instance (s : SharedState) : ∀ act, Decidable (Whole s act)
  | .call _ _ _ => .isTrue trivial
  | .store => inferInstanceAs (Decidable (_ → _))
  | .read => inferInstanceAs (Decidable (_ → _))

/-! ## What one step does -/

theorem next_call {s t : SharedState} {state : UInt32} {flashInterval : Int}
    {rand : Nat → Nat} (h : s.next (.call state flashInterval rand) = some t) :
    s.pending = [] ∧
      t = { s with pending := notifyWrites state flashInterval rand } := by
  cases hpending : s.pending with
  | nil =>
      simp only [SharedState.next, hpending, Option.some.injEq] at h
      exact ⟨rfl, h.symm⟩
  | cons write rest => simp [SharedState.next, hpending] at h

theorem next_store {s t : SharedState} (h : s.next .store = some t) :
    ∃ write rest, s.pending = write :: rest ∧
      t = { s with bulb := write.store s.bulb, pending := rest } := by
  cases hpending : s.pending with
  | nil => simp [SharedState.next, hpending] at h
  | cons write rest =>
      simp only [SharedState.next, hpending, Option.some.injEq] at h
      exact ⟨write, rest, rfl, h.symm⟩

theorem next_read {s t : SharedState} (h : s.next .read = some t) :
    t = s.read :=
  (Option.some.inj h).symm

theorem read_frame (s : SharedState) :
    s.read.pending = s.pending ∧ s.read.started = s.started ∧
      s.read.bulb = s.bulb := by
  rcases s with ⟨bulb, pending, pass, applied⟩
  cases pass <;> exact ⟨rfl, rfl, rfl⟩

/-! ## The stores of one call -/

/-- Only a call's first store switches; one that switches off stores no colour. -/
structure PendingShape (pending : List BulbWrite) : Prop where
  later : ∀ write ∈ pending.tail, write.switches = false
  off : ∀ rest, pending = .setOn false :: rest →
    ∀ pass : PassPoint, ∀ write ∈ rest, pass.hasRead write = false

theorem colorWrites_cases (state : UInt32) (rand : Nat → Nat) :
    colorWrites state rand = [] ∨
      ∃ value rest, colorWrites state rand = .setOn value :: rest := by
  unfold colorWrites
  split <;> simp

@[simp] theorem hasRead_flashInterval (pass : PassPoint) (value : Int) :
    pass.hasRead (.flashInterval value) = false := by
  cases pass <;> rfl

theorem colour_shape (h sat : ℚ) (b flashInterval : Int) :
    PendingShape [.setOn true, .hueValue h, .saturationValue sat,
      .brightnessValue b, .flashInterval flashInterval] := by
  constructor
  · simp [BulbWrite.switches]
  · intro rest hrest
    cases hrest

theorem notifyWrites_shape (state : UInt32) (flashInterval : Int)
    (rand : Nat → Nat) :
    PendingShape (notifyWrites state flashInterval rand) := by
  unfold notifyWrites colorWrites
  split
  case h_1 =>
    constructor
    · simp [BulbWrite.switches]
    · rintro rest hrest pass write hwrite
      cases hrest
      rw [List.mem_singleton.mp hwrite, hasRead_flashInterval]
  case h_6 =>
    constructor
    · simp
    · intro rest hrest
      cases hrest
  all_goals exact colour_shape _ _ _ _

theorem PendingShape.tail {write : BulbWrite} {rest : List BulbWrite}
    (h : PendingShape (write :: rest)) : PendingShape rest := by
  constructor
  · intro later hlater
    exact h.later later (List.mem_of_mem_tail hlater)
  · intro others hrest
    have hswitch := h.later (.setOn false) (by simp [hrest])
    simp [BulbWrite.switches] at hswitch

/-! ## The values read so far are still current -/

def PassPoint.Agrees : PassPoint → BulbState → Prop
  | .hue, _ => True
  | .saturation h, bulb => h = bulb.hueValue
  | .brightness h sat, bulb =>
      h = bulb.hueValue ∧ sat = bulb.saturationValue
  | .on h sat b, bulb =>
      h = bulb.hueValue ∧ sat = bulb.saturationValue ∧
        b = bulb.brightnessValue

structure ReadsCurrent (s : SharedState) : Prop where
  shape : PendingShape s.pending
  agrees : s.pass.Agrees s.bulb
  settled : s.started = true → ∀ write ∈ s.pending, s.pass.hasRead write = false

theorem agrees_store {pass : PassPoint} {write : BulbWrite} {s : BulbState}
    (hread : pass.hasRead write = false) (hs : pass.Agrees s) :
    pass.Agrees (write.store s) := by
  cases pass with
  | hue => trivial
  | saturation hue =>
      cases write with
      | hueValue value => cases hread
      | _ => exact hs
  | brightness hue saturation =>
      cases write with
      | hueValue value | saturationValue value => cases hread
      | _ => exact hs
  | on hue saturation brightness =>
      cases write with
      | hueValue value | saturationValue value | brightnessValue value =>
          cases hread
      | _ => exact hs

theorem agrees_read {s : SharedState} (hs : s.pass.Agrees s.bulb) :
    s.read.pass.Agrees s.read.bulb := by
  rcases s with ⟨bulb, pending, pass, applied⟩
  cases pass with
  | hue => exact rfl
  | saturation hue => exact ⟨hs, rfl⟩
  | brightness hue saturation => exact ⟨hs.1, hs.2, rfl⟩
  | on hue saturation brightness => trivial

theorem hasRead_read {s : SharedState} {write : BulbWrite}
    (hread : s.pass.hasRead write = false)
    (hnext : s.pass.reads write = false) :
    s.read.pass.hasRead write = false := by
  rcases s with ⟨bulb, pending, pass, applied⟩
  cases pass <;> cases write <;>
    simp_all [SharedState.read, PassPoint.hasRead, PassPoint.reads]

theorem readsCurrent_call {s t : SharedState} {state : UInt32}
    {flashInterval : Int} {rand : Nat → Nat} (hs : ReadsCurrent s)
    (hnext : s.next (.call state flashInterval rand) = some t) :
    ReadsCurrent t := by
  obtain ⟨-, rfl⟩ := next_call hnext
  refine ⟨notifyWrites_shape _ _ _, hs.agrees, ?_⟩
  intro hstarted write hwrite
  rcases colorWrites_cases state rand with hcolor | ⟨value, rest, hcolor⟩
  · -- An unknown code stores no colour, only the flash interval.
    rw [notifyWrites, hcolor] at hwrite
    rw [List.mem_singleton.mp hwrite, hasRead_flashInterval]
  · simp [SharedState.started, notifyWrites, hcolor, BulbWrite.switches]
      at hstarted

theorem hasRead_pending {s : SharedState} {write : BulbWrite}
    {rest : List BulbWrite} (hs : ReadsCurrent s) (hwhole : Whole s .store)
    (hpending : s.pending = write :: rest) :
    ∀ later ∈ write :: rest, s.pass.hasRead later = false := by
  cases hswitch : write.switches with
  | false =>
      have hsettled := hs.settled
        (by simp [SharedState.started, hpending, hswitch])
      rwa [hpending] at hsettled
  | true =>
      cases write with
      | setOn value =>
          cases value with
          | false =>
              rw [List.forall_mem_cons]
              refine ⟨by cases s.pass <;> rfl, ?_⟩
              exact hs.shape.off rest hpending s.pass
          | true =>
              have hpass : s.pass = .hue := hwhole (by simp [hpending])
              intro later hlater
              rw [hpass]
              cases later <;> rfl
      | _ => cases hswitch

theorem readsCurrent_store {s t : SharedState} (hs : ReadsCurrent s)
    (hwhole : Whole s .store) (hnext : s.next .store = some t) :
    ReadsCurrent t := by
  obtain ⟨write, rest, hpending, rfl⟩ := next_store hnext
  have hread := hasRead_pending hs hwhole hpending
  rw [List.forall_mem_cons] at hread
  have hshape := hs.shape
  rw [hpending] at hshape
  exact ⟨hshape.tail, agrees_store hread.1 hs.agrees, fun _ => hread.2⟩

theorem readsCurrent_read {s : SharedState} (hs : ReadsCurrent s)
    (hwhole : Whole s .read) : ReadsCurrent s.read := by
  obtain ⟨hpending, hstart, -⟩ := read_frame s
  refine ⟨hpending ▸ hs.shape, agrees_read hs.agrees, ?_⟩
  intro hstarted write hwrite
  rw [hstart] at hstarted
  rw [hpending] at hwrite
  exact hasRead_read (hs.settled hstarted write hwrite)
    (hwhole hstarted write hwrite)

theorem readsCurrent_next {s t : SharedState} {act : SharedAct}
    (hs : ReadsCurrent s) (hwhole : Whole s act)
    (hnext : s.next act = some t) : ReadsCurrent t := by
  cases act with
  | call state flashInterval rand => exact readsCurrent_call hs hnext
  | store => exact readsCurrent_store hs hwhole hnext
  | read =>
      rw [next_read hnext]
      exact readsCurrent_read hs hwhole

theorem shape_next {s t : SharedState} {act : SharedAct}
    (hs : PendingShape s.pending) (hnext : s.next act = some t) :
    PendingShape t.pending := by
  cases act with
  | call state flashInterval rand =>
      rw [(next_call hnext).2]
      exact notifyWrites_shape _ _ _
  | store =>
      obtain ⟨write, rest, hpending, rfl⟩ := next_store hnext
      rw [hpending] at hs
      exact hs.tail
  | read =>
      rw [next_read hnext, (read_frame s).1]
      exact hs

theorem reachable_shape {s : SharedState} (hs : sharedMachine.Reachable s) :
    PendingShape s.pending := by
  refine hs.invariant (I := fun s => PendingShape s.pending) ?_
    (fun _ _ _ => shape_next)
  exact ⟨by simp [sharedMachine], by simp [sharedMachine]⟩

/-! ## Moments without a call under way -/

theorem HeldWhenQuiet.extend {acts : List SharedAct} {command : Command}
    (h : HeldWhenQuiet acts command) (more : List SharedAct) :
    HeldWhenQuiet (acts ++ more) command := by
  obtain ⟨before, t, hprefix, hrun⟩ := h
  exact ⟨before, t, hprefix.trans (List.prefix_append _ _), hrun⟩

/-- Until a call makes its first store the bulb is as it was at a quiet moment. -/
theorem held_of_not_started {acts : List SharedAct} {s : SharedState}
    (hrun : sharedMachine.run acts = some s) (hstarted : s.started = false) :
    HeldWhenQuiet acts s.bulb.command := by
  induction acts using List.reverseRecOn generalizing s with
  | nil =>
      cases hrun
      exact ⟨[], _, List.nil_prefix, rfl, rfl, rfl⟩
  | append_singleton acts act ih =>
      rw [Machine.run, Machine.runFrom_append] at hrun
      obtain ⟨t, hbefore, hlast⟩ := Option.bind_eq_some_iff.mp hrun
      obtain ⟨u, hnext, hend⟩ := Option.bind_eq_some_iff.mp hlast
      cases hend
      have hshape := reachable_shape ⟨acts, hbefore⟩
      cases act with
      | call state flashInterval rand =>
          obtain ⟨hquiet, rfl⟩ := next_call hnext
          exact (ih hbefore (by simp [SharedState.started, hquiet])).extend _
      | store =>
          obtain ⟨write, rest, hpending, rfl⟩ := next_store hnext
          cases rest with
          | nil =>
              refine ⟨acts ++ [.store], _, List.prefix_rfl, ?_, rfl, rfl⟩
              exact (sharedMachine.runFrom_concat _ hbefore).trans hnext
          | cons later others =>
              rw [hpending] at hshape
              have hswitch := hshape.later later List.mem_cons_self
              simp [SharedState.started, hswitch] at hstarted
      | read =>
          obtain ⟨-, hstart, hbulb⟩ := read_frame t
          rw [next_read hnext, hstart] at hstarted
          rw [next_read hnext, hbulb]
          exact (ih hbefore hstarted).extend _

theorem store_command {write : BulbWrite} {h sat : ℚ} {b : Int}
    (hread : (PassPoint.on h sat b).hasRead write = false)
    (hswitch : write.switches = false) (s : BulbState) :
    (write.store s).command = s.command := by
  cases write with
  | setOn value => cases hswitch
  | hueValue value => cases hread
  | saturationValue value => cases hread
  | brightnessValue value => cases hread
  | flashInterval value => rfl

theorem storeAll_command {writes : List BulbWrite} {h sat : ℚ} {b : Int}
    (hread : ∀ write ∈ writes, (PassPoint.on h sat b).hasRead write = false)
    (hswitch : ∀ write ∈ writes, write.switches = false) (s : BulbState) :
    (storeAll writes s).command = s.command := by
  induction writes generalizing s with
  | nil => rfl
  | cons write writes ih =>
      rw [List.forall_mem_cons] at hread hswitch
      rw [storeAll_cons, ih hread.2 hswitch.2]
      exact store_command hread.1 hswitch.1 s

/-- What a started call has still to store is none of what was read. -/
theorem command_of_started {s : SharedState} {h sat : ℚ} {b : Int}
    (hs : ReadsCurrent s) (hpass : s.pass = .on h sat b)
    (hstarted : s.started = true) :
    (storeAll s.pending s.bulb).command = s.bulb.command := by
  have hread := hs.settled hstarted
  rw [hpass] at hread
  apply storeAll_command hread
  cases hpending : s.pending with
  | nil => simp
  | cons write rest =>
      have hlater := hs.shape.later
      rw [hpending] at hlater
      rw [List.forall_mem_cons]
      refine ⟨?_, hlater⟩
      simpa [SharedState.started, hpending] using hstarted

/--
From a moment between two passes on, as long as every step keeps the pass
whole, a pass that is about to read `set_on` applies a command the bulb held
when no call was under way, or holds when the call under way returns.
-/
theorem whole_pass_untorn {before body : List SharedAct}
    {s₀ s : SharedState} {hue saturation : ℚ} {brightness : Int}
    (hbefore : sharedMachine.run before = some s₀) (hidle : s₀.pass = .hue)
    (hwhole : sharedMachine.Throughout Whole s₀ body)
    (hbody : sharedMachine.runFrom s₀ body = some s)
    (hpass : s.pass = .on hue saturation brightness) :
    let command := Command.mk hue saturation brightness s.bulb.setOn
    s.read.applied = command :: s.applied ∧
      (HeldWhenQuiet (before ++ body) command ∨
        (storeAll s.pending s.bulb).command = command) := by
  intro command
  refine ⟨by simp [SharedState.read, hpass, command], ?_⟩
  have hstart : ReadsCurrent s₀ := by
    refine ⟨reachable_shape ⟨before, hbefore⟩, by simp [hidle, PassPoint.Agrees],
      fun _ write _ => ?_⟩
    rw [hidle]
    cases write <;> rfl
  have hs : ReadsCurrent s :=
    Machine.Throughout.invariant (fun _ _ _ => readsCurrent_next) hstart hwhole
      hbody
  have hcommand : s.bulb.command = command := by
    have hagrees := hs.agrees
    rw [hpass] at hagrees
    obtain ⟨rfl, rfl, rfl⟩ := hagrees
    rfl
  have hrun : sharedMachine.run (before ++ body) = some s := by
    rw [Machine.run] at hbefore ⊢
    rw [Machine.runFrom_append, hbefore]
    exact hbody
  cases hstarted : s.started with
  | false => exact .inl (hcommand ▸ held_of_not_started hrun hstarted)
  | true => exact .inr (hcommand ▸ command_of_started hs hpass hstarted)

def overlappingRun : List SharedAct :=
  [.call 1 7 fun _ => 0, .store, .store, .read, .store, .read, .store, .read]

theorem overlappingRun_untorn :
    ∃ s : SharedState, s.read.applied = [⟨0, 100, 20, true⟩] ∧
      (HeldWhenQuiet overlappingRun ⟨0, 100, 20, true⟩ ∨
        (storeAll s.pending s.bulb).command = ⟨0, 100, 20, true⟩) :=
  ⟨_, @whole_pass_untorn [] overlappingRun sharedMachine.start _ 0 100 20 rfl
    rfl (by decide +kernel) rfl rfl⟩

end EspIotivity.Lightbulb
