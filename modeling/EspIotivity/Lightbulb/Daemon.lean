import EspIotivity.Lightbulb.Blackout
import EspIotivity.Lightbulb.Bulb

/-!
# The lamp daemon

One pass of the loop of `lightbulb_damon_task` copies `s_bulb_state` into the
driver through its four setters and, when an interval is set, blacks the lamp
out again.  The two `vTaskDelay` calls only wait.
-/

namespace EspIotivity.Lightbulb

open EspIotivity.Foundation

structure DaemonState where
  bulb : BulbState
  lamp : Lamp
  deriving DecidableEq, Repr

def DaemonState.start : DaemonState := ⟨.boot, lightbulbInit .boot⟩

/-- The pass up to the return of `lightbulb_set_on`. -/
def lightbulbDamonShow (s : DaemonState) : DaemonState :=
  let lamp := lightbulbSetHue s.bulb.hueValue s.lamp
  let lamp := lightbulbSetSaturation s.bulb.saturationValue lamp
  let lamp := lightbulbSetBrightness s.bulb.brightnessValue lamp
  { s with lamp := lightbulbSetOn s.bulb.setOn lamp }

def lightbulbDamonFlash (s : DaemonState) : DaemonState :=
  if s.bulb.flashInterval ≠ 0 then { s with lamp := lightbulbSetOff s.lamp }
  else s

def lightbulbDamonPass (s : DaemonState) : DaemonState :=
  lightbulbDamonFlash (lightbulbDamonShow s)

inductive DaemonEvent where
  | notify (code flashInterval : Int) (rand : Nat → Nat)
  | pass

def DaemonEvent.perform : DaemonEvent → DaemonState → DaemonState
  | .notify code flashInterval rand, s =>
      { s with
        bulb := notifyLightbulbState (UInt32.ofInt code) flashInterval rand
          s.bulb }
  | .pass, s => lightbulbDamonPass s

def daemonMachine : Machine DaemonState DaemonEvent :=
  .ofTotal .start fun s event => event.perform s

def daemonAfter (events : List DaemonEvent) : DaemonState :=
  events.foldl (fun s event => event.perform s) .start

theorem daemonAfter_reachable (events : List DaemonEvent) :
    daemonMachine.Reachable (daemonAfter events) :=
  ⟨events, Machine.runFrom_ofTotal _ _ _ _⟩

/-! ## What the lamp is commanded to show -/

def BulbState.hsb (s : BulbState) : Hsp :=
  ⟨UInt16.ofInt (truncate s.hueValue), UInt16.ofInt (truncate s.saturationValue),
    UInt16.ofInt s.brightnessValue⟩

def Duties.AtMost (d : Duties) (limit : Nat) : Prop :=
  d.channel0 ≤ limit ∧ d.channel1 ≤ limit ∧ d.channel2 ≤ limit

theorem BulbState.InRange.hsb_toNat {s : BulbState} (hs : s.InRange) :
    s.hsb.h.toNat < 360 ∧ s.hsb.s.toNat ≤ 100 ∧ s.hsb.b.toNat < 50 := by
  obtain ⟨⟨h, hh, hh'⟩, ⟨sat, hsat, hsat'⟩, ⟨b, hb, hb'⟩⟩ := hs
  simp only [BulbState.hsb, hh, hsat, hb, truncate_natCast]
  have hhue := uint16_ofInt_toNat h
  have hsaturation := uint16_ofInt_toNat sat
  have hbrightness := uint16_ofInt_toNat b
  omega

theorem BulbState.InRange.accepted {s : BulbState} (hs : s.InRange) :
    s.hsb.Accepted := by
  obtain ⟨hh, hsat, hb⟩ := hs.hsb_toNat
  exact ⟨hh.le, hsat, by omega⟩

theorem Rgb.AtMost.duties {rgb : Rgb} (hrgb : rgb.AtMost 99) :
    rgb.duties.AtMost maxDuty := by
  obtain ⟨hr, hg, hb⟩ := hrgb
  simp only [Duties.AtMost, Rgb.duties, pwmTargetDuty, maxDuty]
  omega

theorem BulbState.InRange.converts {s : BulbState} (hs : s.InRange) :
    ∃ rgb, lightbulbSetHsb2rgb s.hsb.h s.hsb.s s.hsb.b (some ⟨0, 0, 0⟩) =
        (true, some rgb) ∧ rgb.duties.AtMost maxDuty := by
  obtain ⟨hh, -, hb⟩ := hs.hsb_toNat
  obtain ⟨rgb, hconv, hle⟩ := hsb2rgb_atMost hs.accepted hh ⟨0, 0, 0⟩
  refine ⟨rgb, hconv, Rgb.AtMost.duties ?_⟩
  obtain ⟨hr, hg, hbl⟩ := hle
  exact ⟨by omega, by omega, by omega⟩

/-! ## One pass -/

theorem show_on {s : DaemonState} {rgb : Rgb} (hon : s.bulb.setOn = true)
    (hconv : lightbulbSetHsb2rgb s.bulb.hsb.h s.bulb.hsb.s s.bulb.hsb.b
      (some ⟨0, 0, 0⟩) = (true, some rgb)) :
    (lightbulbDamonShow s).lamp.Shows rgb.duties := by
  simp only [lightbulbDamonShow, lightbulbSetOn, hon, if_true]
  rw [@update_accepted _ rgb]
  · rfl
  · simpa [lightbulbSetBrightness, lightbulbSetSaturation, lightbulbSetHue,
      BulbState.hsb] using hconv

theorem show_off {s : DaemonState} (hoff : s.bulb.setOn = false)
    (hs : s.bulb.InRange) : (lightbulbDamonShow s).lamp.Shows dark := by
  simp only [lightbulbDamonShow, hoff]
  refine (switchesOff_shows_dark_iff (.inr rfl) _).mpr (.inl ?_)
  simpa [Lamp.StoresColour, lightbulbSetBrightness, lightbulbSetSaturation,
    lightbulbSetHue, BulbState.hsb] using
    And.intro hs.accepted.hue hs.accepted.saturation

theorem show_storesColour {s : DaemonState} (hs : s.bulb.InRange) :
    (lightbulbDamonShow s).lamp.StoresColour := by
  have hcolour := And.intro hs.accepted.hue hs.accepted.saturation
  cases hon : s.bulb.setOn <;>
    simpa [Lamp.StoresColour, lightbulbDamonShow, lightbulbSetOn, hon,
      lightbulbSetBrightness, lightbulbSetSaturation, lightbulbSetHue,
      BulbState.hsb] using hcolour

@[simp] theorem show_bulb (s : DaemonState) :
    (lightbulbDamonShow s).bulb = s.bulb := rfl

@[simp] theorem pass_bulb (s : DaemonState) :
    (lightbulbDamonPass s).bulb = s.bulb := by
  unfold lightbulbDamonPass lightbulbDamonFlash
  split <;> rfl

theorem pass_steady {s : DaemonState} (hsteady : s.bulb.flashInterval = 0) :
    lightbulbDamonPass s = lightbulbDamonShow s := by
  simp [lightbulbDamonPass, lightbulbDamonFlash, hsteady]

/-- A flashing pass writes the duties of its first part, and black after them. -/
theorem pass_flash {s : DaemonState} (hflash : s.bulb.flashInterval ≠ 0)
    (hs : s.bulb.InRange) :
    (lightbulbDamonPass s).lamp.duties =
      dark :: (lightbulbDamonShow s).lamp.duties := by
  simp only [lightbulbDamonPass, lightbulbDamonFlash, show_bulb, hflash,
    ne_eq, not_false_eq_true, if_true]
  exact blackout_duties rfl (show_storesColour hs)

/-! ## Every history -/

theorem perform_inRange {event : DaemonEvent} {s : DaemonState}
    (hs : s.bulb.InRange) : (event.perform s).bulb.InRange := by
  cases event with
  | notify code flashInterval rand => exact notify_inRange _ _ _ hs
  | pass => simpa [DaemonEvent.perform] using hs

theorem reachable_inRange {s : DaemonState} (hs : daemonMachine.Reachable s) :
    s.bulb.InRange := by
  refine hs.invariant (I := fun s => s.bulb.InRange) boot_inRange ?_
  intro before event after hbefore hnext
  cases hnext
  exact perform_inRange hbefore

/--
Whatever happened before, a pass shows the duties of the commanded colour, or
black when the bulb is commanded off, and blacks out again when flashing.
-/
theorem pass_shows_command (events : List DaemonEvent) :
    let s := daemonAfter events
    (∃ rgb, lightbulbSetHsb2rgb s.bulb.hsb.h s.bulb.hsb.s s.bulb.hsb.b
          (some ⟨0, 0, 0⟩) = (true, some rgb) ∧
        (lightbulbDamonShow s).lamp.Shows
          (if s.bulb.setOn then rgb.duties else dark) ∧
        rgb.duties.AtMost maxDuty) ∧
      (s.bulb.flashInterval = 0 →
        lightbulbDamonPass s = lightbulbDamonShow s) ∧
      (s.bulb.flashInterval ≠ 0 →
        (lightbulbDamonPass s).lamp.duties =
            dark :: (lightbulbDamonShow s).lamp.duties ∧
          (lightbulbDamonPass s).lamp.Shows dark) ∧
      (lightbulbDamonPass s).bulb = s.bulb := by
  intro s
  have hs : s.bulb.InRange := reachable_inRange (daemonAfter_reachable events)
  obtain ⟨rgb, hconv, hduty⟩ := hs.converts
  refine ⟨⟨rgb, hconv, ?_, hduty⟩, pass_steady, fun hflash => ?_, pass_bulb s⟩
  · cases hon : s.bulb.setOn with
    | true => exact show_on hon hconv
    | false => exact show_off hon hs
  · have hduties := pass_flash hflash hs
    refine ⟨hduties, ?_⟩
    rw [Lamp.Shows, hduties, List.head?_cons]

end EspIotivity.Lightbulb
