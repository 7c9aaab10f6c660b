import EspIotivity.Lightbulb.Blackout

/-!
# The remembered brightness

`lightbulb_set_on(false)` saves the stored brightness and then stores zero;
`lightbulb_set_off` stores zero without saving.  A second save before the lamp
is switched on again saves the zero.
-/

namespace EspIotivity.Lightbulb

open EspIotivity.Foundation

/-- The documented ranges of the arguments. -/
def LampCall.InRange : LampCall → Prop
  | .setOn _ | .setOff => True
  | .setHue value => 0 ≤ value ∧ value ≤ 360
  | .setSaturation value => 0 ≤ value ∧ value ≤ 100
  | .setBrightness value => 0 ≤ value ∧ value ≤ 100

/--
`lightbulb_set_on(true)` returns with the brightness of the last
`lightbulb_set_brightness` before it.
-/
def RestoresBrightness (calls : List LampCall) : Prop :=
  ∀ (before : List LampCall) (value : Int) (since : List LampCall),
    before ++ .setBrightness value :: (since ++ [.setOn true]) <+: calls →
    (∀ other, .setBrightness other ∉ since) →
    ((lampAfter (before ++ .setBrightness value ::
      (since ++ [.setOn true]))).hsbVal.b.toNat : Int) = value

/-- `lightbulb_set_on(false)` comes before `lightbulb_set_on(true)`. -/
def Saves (calls : List LampCall) : Prop :=
  ∃ before after, calls = before ++ .setOn false :: after ∧
    .setOn true ∉ before

/-- The lamp is switched off, and saves while it is off. -/
def SavesWhileOff (calls : List LampCall) : Prop :=
  ∃ before off after, calls = before ++ off :: after ∧ off.SwitchesOff ∧
    Saves after

/-! ## What is left of a brightness -/

inductive Memory where
  | shown
  | saved
  | lost
  deriving DecidableEq, Repr

def Memory.next : Memory → LampCall → Memory
  | .shown, .setOn false => .saved
  | .shown, .setOff => .saved
  | .saved, .setOn true => .shown
  | .saved, .setOn false => .lost
  | memory, _ => memory

def Memory.Holds (b : UInt16) (lamp : Lamp) : Memory → Prop
  | .shown => lamp.hsbVal.b = b ∧ lamp.brightness = b
  | .saved => lamp.hsbVal.b = 0 ∧ lamp.brightness = b
  | .lost => lamp.hsbVal.b = 0 ∧ lamp.brightness = 0

section Calls

variable {b : UInt16} {lamp : Lamp} {memory : Memory} {call : LampCall}
  {calls : List LampCall}

theorem setBrightness_holds (value : Int) (lamp : Lamp) :
    Memory.shown.Holds (UInt16.ofInt value)
      ((LampCall.setBrightness value).perform lamp) := by
  constructor
  · simp [LampCall.perform, lightbulbSetBrightness]
  · simp [LampCall.perform, lightbulbSetBrightness]

theorem next_holds (hcall : ∀ value, call ≠ .setBrightness value)
    (h : memory.Holds b lamp) :
    (memory.next call).Holds b (call.perform lamp) := by
  cases call with
  | setOn value =>
      cases value <;> cases memory <;>
        simp_all [Memory.next, Memory.Holds, LampCall.perform, lightbulbSetOn]
  | setOff =>
      cases memory <;>
        simp_all [Memory.next, Memory.Holds, LampCall.perform, lightbulbSetOff]
  | setHue value =>
      cases memory <;>
        simpa [Memory.next, Memory.Holds, LampCall.perform, lightbulbSetHue]
          using h
  | setSaturation value =>
      cases memory <;>
        simpa [Memory.next, Memory.Holds, LampCall.perform,
          lightbulbSetSaturation] using h
  | setBrightness value => exact absurd rfl (hcall value)

theorem foldl_holds (hcalls : ∀ value, .setBrightness value ∉ calls)
    (h : memory.Holds b lamp) :
    (calls.foldl Memory.next memory).Holds b
      (calls.foldl (fun lamp call => call.perform lamp) lamp) := by
  induction calls generalizing memory lamp with
  | nil => exact h
  | cons call calls ih =>
      simp only [List.mem_cons, not_or] at hcalls
      apply ih (fun value => (hcalls value).2)
      exact next_holds (fun value => Ne.symm (hcalls value).1) h

theorem setOn_holds (h : memory.Holds b lamp) :
    ((LampCall.setOn true).perform lamp).hsbVal.b =
      if memory = .lost then 0 else b := by
  cases memory <;>
    simp_all [Memory.Holds, LampCall.perform, lightbulbSetOn]

/-! ## The histories that lose it -/

theorem saves_cons :
    Saves (call :: calls) ↔
      call = .setOn false ∨ call ≠ .setOn true ∧ Saves calls := by
  constructor
  · rintro ⟨before, after, hsplit, hbefore⟩
    cases before with
    | nil => exact .inl (List.cons.inj hsplit).1
    | cons first before =>
        obtain ⟨rfl, hrest⟩ := List.cons.inj hsplit
        simp only [List.mem_cons, not_or] at hbefore
        exact .inr ⟨Ne.symm hbefore.1, before, after, hrest, hbefore.2⟩
  · rintro (rfl | ⟨hcall, before, after, rfl, hbefore⟩)
    · exact ⟨[], calls, rfl, by simp⟩
    · refine ⟨call :: before, after, rfl, ?_⟩
      simp only [List.mem_cons, not_or]
      exact ⟨Ne.symm hcall, hbefore⟩

theorem savesWhileOff_cons :
    SavesWhileOff (call :: calls) ↔
      call.SwitchesOff ∧ Saves calls ∨ SavesWhileOff calls := by
  constructor
  · rintro ⟨before, off, after, hsplit, hoff, hafter⟩
    cases before with
    | nil =>
        obtain ⟨rfl, rfl⟩ := List.cons.inj hsplit
        exact .inl ⟨hoff, hafter⟩
    | cons first before =>
        obtain ⟨-, hrest⟩ := List.cons.inj hsplit
        exact .inr ⟨before, off, after, hrest, hoff, hafter⟩
  · rintro (⟨hoff, hafter⟩ | ⟨before, off, after, rfl, hoff, hafter⟩)
    · exact ⟨[], call, calls, rfl, hoff, hafter⟩
    · exact ⟨call :: before, off, after, rfl, hoff, hafter⟩

def Memory.Loses (calls : List LampCall) : Memory → Prop
  | .shown => SavesWhileOff calls
  | .saved => Saves calls ∨ SavesWhileOff calls
  | .lost => True

theorem saves_or_savesWhileOff_nil : ¬ Saves [] ∧ ¬ SavesWhileOff [] := by
  constructor
  · rintro ⟨before, after, hsplit, -⟩
    simp at hsplit
  · rintro ⟨before, off, after, hsplit, -⟩
    simp at hsplit

theorem foldl_lost :
    calls.foldl Memory.next memory = .lost ↔ memory.Loses calls := by
  induction calls generalizing memory with
  | nil =>
      cases memory <;> simp [Memory.Loses, saves_or_savesWhileOff_nil]
  | cons call calls ih =>
      rw [List.foldl_cons, ih]
      cases call with
      | setOn value =>
          cases value <;> cases memory <;>
            simp [Memory.next, Memory.Loses, saves_cons, savesWhileOff_cons,
              LampCall.SwitchesOff]
      | setOff =>
          cases memory <;>
            simp [Memory.next, Memory.Loses, saves_cons, savesWhileOff_cons,
              LampCall.SwitchesOff]
      | _ =>
          cases memory <;>
            simp [Memory.next, Memory.Loses, saves_cons, savesWhileOff_cons,
              LampCall.SwitchesOff]

theorem setOn_restores_iff (before : List LampCall) {value : Int}
    {since : List LampCall} (hvalue : 0 ≤ value ∧ value ≤ 100)
    (hsince : ∀ other, .setBrightness other ∉ since) :
    ((lampAfter (before ++ .setBrightness value ::
        (since ++ [.setOn true]))).hsbVal.b.toNat : Int) = value ↔
      value = 0 ∨ ¬ SavesWhileOff since := by
  have hrun : lampAfter (before ++ .setBrightness value ::
      (since ++ [.setOn true])) =
        (LampCall.setOn true).perform
          (since.foldl (fun lamp call => call.perform lamp)
            ((LampCall.setBrightness value).perform (lampAfter before))) := by
    rw [lampAfter_append, List.foldl_cons, List.foldl_append]
    rfl
  have hb := setOn_holds
    (foldl_holds hsince (setBrightness_holds value (lampAfter before)))
  have hstored := uint16_ofInt_toNat_of_lt hvalue.1 (by omega)
  have hlost : since.foldl Memory.next .shown = .lost ↔ SavesWhileOff since :=
    foldl_lost
  rw [hrun, hb]
  by_cases hsaves : SavesWhileOff since
  · rw [if_pos (hlost.mpr hsaves)]
    simp [hsaves, eq_comm]
  · rw [if_neg fun h => hsaves (hlost.mp h), hstored]
    simp [hsaves]

end Calls

/--
The brightness comes back exactly after those histories that do not save again
while the lamp is off, unless it was zero.
-/
theorem restoresBrightness_iff {calls : List LampCall}
    (hcalls : ∀ call ∈ calls, call.InRange) :
    RestoresBrightness calls ↔
      ∀ (before : List LampCall) (value : Int) (since : List LampCall),
        before ++ .setBrightness value :: (since ++ [.setOn true]) <+: calls →
        (∀ other, .setBrightness other ∉ since) →
        value = 0 ∨ ¬ SavesWhileOff since := by
  have hvalue : ∀ {before : List LampCall} {value : Int}
      {since : List LampCall},
      before ++ .setBrightness value :: (since ++ [.setOn true]) <+: calls →
      0 ≤ value ∧ value ≤ 100 := by
    intro before value since hinit
    exact hcalls (.setBrightness value) (hinit.subset (by simp))
  constructor
  · intro h before value since hinit hsince
    exact (setOn_restores_iff before (hvalue hinit) hsince).mp
      (h before value since hinit hsince)
  · intro h before value since hinit hsince
    exact (setOn_restores_iff before (hvalue hinit) hsince).mpr
      (h before value since hinit hsince)

/-- Three calls are too few to save twice. -/
theorem offAndOn_restores :
    (∀ call ∈ [LampCall.setBrightness 40, .setOn false, .setOn true],
        call.InRange) ∧
      RestoresBrightness [.setBrightness 40, .setOn false, .setOn true] := by
  have hcalls : ∀ call ∈ [LampCall.setBrightness 40, .setOn false, .setOn true],
      call.InRange := by
    simp [LampCall.InRange]
  refine ⟨hcalls, (restoresBrightness_iff hcalls).mpr ?_⟩
  intro before value since hinit _
  right
  rintro ⟨first, off, after, rfl, -, second, rest, rfl, -⟩
  have hlength := hinit.length_le
  simp only [List.length_append, List.length_cons, List.length_nil] at hlength
  omega

theorem restoresBrightness_fails :
    ¬ ∀ calls, (∀ call ∈ calls, call.InRange) → RestoresBrightness calls := by
  intro h
  have hb := h [.setBrightness 40, .setOff, .setOn false, .setOn true]
    (by simp [LampCall.InRange]) [] 40 [.setOff, .setOn false]
    List.prefix_rfl (by simp)
  revert hb
  decide +kernel

end EspIotivity.Lightbulb
