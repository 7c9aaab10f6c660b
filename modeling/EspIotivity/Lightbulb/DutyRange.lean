import EspIotivity.Lightbulb.OutOfRange

/-!
# The duties against the range of the timer

`lightbulb_init` configures a timer of 13 bits, whose duties go up to
`2 ** 13 - 1`, and `lightbulb_set_aim_hsv` scales 100 percent to `2 ** 13`.  A
channel stays in the range exactly when the conversion gives less than 100.
-/

namespace EspIotivity.Lightbulb

open EspIotivity.Foundation

def Duties.InTimerRange (d : Duties) : Prop :=
  d.channel0 ≤ maxDuty ∧ d.channel1 ≤ maxDuty ∧ d.channel2 ≤ maxDuty

def DutiesInRange (calls : List LampCall) : Prop :=
  ∀ d ∈ (lampAfter calls).duties, d.InTimerRange

/-- What the call brings to the conversion, if it updates the LEDs. -/
def LampCall.brings (lamp : Lamp) : LampCall → Option Hsp
  | .setOn true => some { lamp.hsbVal with b := lamp.brightness }
  | .setOn false | .setOff => some { lamp.hsbVal with b := 0 }
  | .setHue value =>
      if lamp.on then
        some { lamp.hsbVal with h := UInt16.ofInt (truncate value) }
      else none
  | .setSaturation value =>
      if lamp.on then
        some { lamp.hsbVal with s := UInt16.ofInt (truncate value) }
      else none
  | .setBrightness value =>
      if lamp.on then some { lamp.hsbVal with b := UInt16.ofInt value }
      else none

/--
An accepted colour of full brightness, or of hue 360 where the second channel,
which then exceeds the brightness, does not come out below 100 in 8 bits.
-/
def Hsp.Overdrives (hsb : Hsp) : Prop :=
  hsb.Accepted ∧ (hsb.b = 100 ∨ hsb.h = 360 ∧
    100 ≤ (hsb.b.toNat + hsb.b.toNat * hsb.s.toNat / 20) % 256)

/-! ## One conversion -/

theorem inTimerRange_iff (rgb : Rgb) :
    rgb.duties.InTimerRange ↔ rgb.AtMost 99 := by
  simp only [Rgb.duties, Duties.InTimerRange, Rgb.AtMost, pwmTargetDuty,
    maxDuty]
  omega

theorem convertsHsb_inRange_iff {h s v : UInt16} (hok : Accepted h s v)
    (hh : h ≠ 360) : ∃ rgb,
      lightbulbSetHsb2rgb h s v (some ⟨0, 0, 0⟩) = (true, some rgb) ∧
        (rgb.AtMost 99 ↔ v ≠ 100) := by
  obtain ⟨rgb, hconv, hcolour⟩ :=
    (convertsHsb_below hh).converts hok ⟨0, 0, 0⟩
  refine ⟨rgb, hconv, ?_⟩
  have hv := hok.brightness
  have hlargest := hcolour.largest
  rw [ne_eq, ← UInt16.toNat_inj, Rgb.AtMost]
  change _ ↔ ¬ v.toNat = 100
  omega

/-- Hue 360 leaves the first and third channel at or below the brightness. -/
theorem wrapped_inRange_iff {s v : UInt16} (hok : Accepted 360 s v) : ∃ rgb,
    lightbulbSetHsb2rgb 360 s v (some ⟨0, 0, 0⟩) = (true, some rgb) ∧
      (rgb.AtMost 99 ↔
        v ≠ 100 ∧ (v.toNat + v.toNat * s.toNat / 20) % 256 < 100) := by
  refine ⟨_, hsb2rgb_wrapped hok ⟨0, 0, 0⟩, ?_⟩
  have hv := hok.brightness
  have hP := hsbP_le (v := v) hok.saturation
  rw [ne_eq, ← UInt16.toNat_inj, Rgb.AtMost]
  change _ ↔ ¬ v.toNat = 100 ∧ _
  simp only [UInt16.toNat_toUInt8, hsbT_wrapped hok.saturation hv]
  omega

theorem duties_inRange_iff (hsb : Hsp) :
    (∀ d ∈ hsb.duties, d.InTimerRange) ↔ ¬ hsb.Overdrives := by
  by_cases hok : hsb.Accepted
  case neg => simp [Hsp.Overdrives, duties_rejected hok, hok]
  have hmem : ∀ {rgb : Rgb}, lightbulbSetHsb2rgb hsb.h hsb.s hsb.b
      (some ⟨0, 0, 0⟩) = (true, some rgb) →
      ((∀ d ∈ hsb.duties, d.InTimerRange) ↔ rgb.AtMost 99) := by
    intro rgb hconv
    rw [Hsp.duties, hconv, ← inTimerRange_iff]
    simp
  by_cases hh : hsb.h = 360
  · have hwrapped : Accepted 360 hsb.s hsb.b :=
      ⟨by decide, hok.saturation, hok.brightness⟩
    obtain ⟨rgb, hconv, hrange⟩ := wrapped_inRange_iff hwrapped
    rw [← hh] at hconv
    rw [hmem hconv, hrange]
    simp [Hsp.Overdrives, hok, hh]
  · obtain ⟨rgb, hconv, hrange⟩ := convertsHsb_inRange_iff hok hh
    rw [hmem hconv, hrange]
    simp [Hsp.Overdrives, hok, hh]

/-! ## One call, and a run -/

theorem perform_duties (call : LampCall) (lamp : Lamp) :
    (call.perform lamp).duties =
      ((call.brings lamp).bind Hsp.duties).toList ++ lamp.duties := by
  have hset : ∀ changed : Lamp, changed.duties = lamp.duties →
      (updateIfOn changed).duties =
        ((if changed.on then some changed.hsbVal else none).bind
          Hsp.duties).toList ++ lamp.duties := by
    intro changed hchanged
    unfold updateIfOn
    split
    · rw [update_eq, hchanged]
      rfl
    · exact hchanged
  cases call with
  | setOn value =>
      cases value with
      | true => exact congrArg Lamp.duties (update_eq _)
      | false => exact congrArg Lamp.duties (update_eq _)
  | setOff => exact congrArg Lamp.duties (update_eq _)
  | setHue value => exact hset _ rfl
  | setSaturation value => exact hset _ rfl
  | setBrightness value => exact hset _ rfl

/-- The call brings a colour to the conversion that overdrives a channel. -/
def LampCall.Overdrives (call : LampCall) (lamp : Lamp) : Prop :=
  ∃ hsb ∈ call.brings lamp, hsb.Overdrives

theorem perform_inTimerRange_iff (call : LampCall) (lamp : Lamp) :
    (∀ d ∈ (call.perform lamp).duties, d.InTimerRange) ↔
      ¬ call.Overdrives lamp ∧ ∀ d ∈ lamp.duties, d.InTimerRange := by
  have hnew : (∀ d ∈ (call.brings lamp).bind Hsp.duties, d.InTimerRange) ↔
      ¬ call.Overdrives lamp := by
    rw [LampCall.Overdrives]
    cases call.brings lamp with
    | none => simp
    | some hsb => simpa using duties_inRange_iff hsb
  rw [perform_duties, List.forall_mem_append, ← hnew]
  simp only [Option.mem_toList, Option.mem_def]

theorem init_inTimerRange :
    ∀ d ∈ (lightbulbInit .boot).duties, d.InTimerRange := by
  have hduties : (lightbulbInit .boot).duties = [dark, ⟨100, 100, 100⟩] := by
    decide +kernel
  rw [hduties]
  simp [Duties.InTimerRange, dark, maxDuty]

theorem performAll_inTimerRange_iff (calls : List LampCall) (lamp : Lamp) :
    (∀ d ∈ (performAll calls lamp).duties, d.InTimerRange) ↔
      lampMachine.Throughout (fun lamp call => ¬ call.Overdrives lamp)
          lamp calls ∧
        ∀ d ∈ lamp.duties, d.InTimerRange := by
  induction calls generalizing lamp with
  | nil => simp [performAll, Machine.Throughout]
  | cons call calls ih =>
      have hstep := perform_inTimerRange_iff call lamp
      have hrest := ih (call.perform lamp)
      rw [hstep] at hrest
      rw [lampMachine, Machine.throughout_ofTotal_cons, and_assoc,
        and_left_comm]
      exact hrest

/--
Every duty is in the timer's range exactly in the runs whose calls bring no
colour to the conversion that overdrives a channel.
-/
theorem dutiesInRange_iff (calls : List LampCall) :
    DutiesInRange calls ↔
      lampMachine.Throughout (fun lamp call => ¬ call.Overdrives lamp)
        (lightbulbInit .boot) calls := by
  have hrun := performAll_inTimerRange_iff calls (lightbulbInit .boot)
  rw [and_iff_left init_inTimerRange] at hrun
  exact hrun

theorem dutiesInRange_fails : ¬ ∀ calls, DutiesInRange calls := by
  intro h
  have hrange := h [.setBrightness 100, .setOn true] ⟨8192, 8192, 8192⟩
    (by decide +kernel)
  exact absurd hrange.1 (by decide)

end EspIotivity.Lightbulb
