import EspIotivity.Foundation.Machine
import EspIotivity.Lightbulb.Color

/-!
# The lowlevel lamp driver

The static state of `lightbulb.c` (`s_hsb_val`, `s_brightness`, `s_on`) and the
functions that drive the three LEDC channels.  The driver's only output is the
sequence of duties it passes to `ledc_set_duty`, kept newest first.  The colour
temperature, white and period arguments of `lightbulb_set_aim` are not used by
its body, and the channel and timer set-up is kept only as far as it writes a
duty.
-/

namespace EspIotivity.Lightbulb

open EspIotivity.Foundation

def pwmTargetDuty : Nat := 8192

/-- Largest duty of the 13-bit timer that `lightbulb_init` configures. -/
def maxDuty : Nat := 2 ^ 13 - 1

structure Hsp where
  h : UInt16
  s : UInt16
  b : UInt16
  deriving DecidableEq, Repr

structure Duties where
  channel0 : Nat
  channel1 : Nat
  channel2 : Nat
  deriving DecidableEq, Repr

structure Lamp where
  hsbVal : Hsp
  brightness : UInt16
  on : Bool
  duties : List Duties
  deriving DecidableEq, Repr

def Lamp.boot : Lamp := ⟨⟨0, 0, 0⟩, 0, false, []⟩

def dark : Duties := ⟨0, 0, 0⟩

def Rgb.duties (rgb : Rgb) : Duties :=
  ⟨rgb.r.toNat * pwmTargetDuty / 100, rgb.g.toNat * pwmTargetDuty / 100,
    rgb.b.toNat * pwmTargetDuty / 100⟩

/-- `d` is what was last written to the three channels. -/
def Lamp.Shows (lamp : Lamp) (d : Duties) : Prop :=
  lamp.duties.head? = some d

instance (lamp : Lamp) (d : Duties) : Decidable (lamp.Shows d) :=
  inferInstanceAs (Decidable (lamp.duties.head? = some d))

def lightbulbSetAim (r g b _cw _ww _period : Nat) (lamp : Lamp) : Lamp :=
  { lamp with duties := ⟨r, g, b⟩ :: lamp.duties }

def lightbulbSetAimHsv (h s v : UInt16) (lamp : Lamp) : Bool × Lamp :=
  match lightbulbSetHsb2rgb h s v (some ⟨0, 0, 0⟩) with
  | (true, some rgb) =>
      (true, lightbulbSetAim rgb.duties.channel0 rgb.duties.channel1
        rgb.duties.channel2 ((100 - s.toNat) * 5000 / 100)
        (v.toNat * 2000 / 100) 1000 lamp)
  | _ => (false, lamp)

def lightbulbUpdate (lamp : Lamp) : Lamp :=
  (lightbulbSetAimHsv lamp.hsbVal.h lamp.hsbVal.s lamp.hsbVal.b lamp).2

/-- Each channel is configured with duty 100, then the lamp is updated. -/
def lightbulbInit (lamp : Lamp) : Lamp :=
  lightbulbUpdate
    { lamp with
      hsbVal := ⟨0, 0, 0⟩
      duties := ⟨100, 100, 100⟩ :: lamp.duties }

def lightbulbSetOn (value : Bool) (lamp : Lamp) : Lamp :=
  lightbulbUpdate <|
    if value then
      { lamp with hsbVal := { lamp.hsbVal with b := lamp.brightness }, on := true }
    else
      { lamp with
        brightness := lamp.hsbVal.b
        hsbVal := { lamp.hsbVal with b := 0 }
        on := false }

def lightbulbSetOff (lamp : Lamp) : Lamp :=
  lightbulbUpdate
    { lamp with hsbVal := { lamp.hsbVal with b := 0 }, on := false }

/-- `if (true == s_on) lightbulb_update();`, the tail of the three setters. -/
def updateIfOn (lamp : Lamp) : Lamp :=
  if lamp.on then lightbulbUpdate lamp else lamp

def lightbulbSetSaturation (value : ℚ) (lamp : Lamp) : Lamp :=
  updateIfOn
    { lamp with
      hsbVal := { lamp.hsbVal with s := UInt16.ofInt (truncate value) } }

def lightbulbSetHue (value : ℚ) (lamp : Lamp) : Lamp :=
  updateIfOn
    { lamp with
      hsbVal := { lamp.hsbVal with h := UInt16.ofInt (truncate value) } }

def lightbulbSetBrightness (value : Int) (lamp : Lamp) : Lamp :=
  updateIfOn
    { lamp with
      hsbVal := { lamp.hsbVal with b := UInt16.ofInt value }
      brightness := UInt16.ofInt value }

/-! ## Call sequences -/

inductive LampCall where
  | setOn (value : Bool)
  | setOff
  | setHue (value : ℚ)
  | setSaturation (value : ℚ)
  | setBrightness (value : Int)
  deriving DecidableEq, Repr

def LampCall.perform : LampCall → Lamp → Lamp
  | .setOn value => lightbulbSetOn value
  | .setOff => lightbulbSetOff
  | .setHue value => lightbulbSetHue value
  | .setSaturation value => lightbulbSetSaturation value
  | .setBrightness value => lightbulbSetBrightness value

def lampMachine : Machine Lamp LampCall :=
  .ofTotal (lightbulbInit .boot) fun lamp call => call.perform lamp

def lampAfter (calls : List LampCall) : Lamp :=
  calls.foldl (fun lamp call => call.perform lamp) (lightbulbInit .boot)

/-! ## What one update does -/

def Hsp.Accepted (hsb : Hsp) : Prop :=
  Lightbulb.Accepted hsb.h hsb.s hsb.b

instance (hsb : Hsp) : Decidable hsb.Accepted :=
  inferInstanceAs (Decidable (Lightbulb.Accepted _ _ _))

theorem update_accepted {lamp : Lamp} {rgb : Rgb}
    (hconv : lightbulbSetHsb2rgb lamp.hsbVal.h lamp.hsbVal.s lamp.hsbVal.b
      (some ⟨0, 0, 0⟩) = (true, some rgb)) :
    lightbulbUpdate lamp =
      { lamp with duties := rgb.duties :: lamp.duties } := by
  simp only [lightbulbUpdate, lightbulbSetAimHsv, hconv]
  rfl

theorem update_rejected {lamp : Lamp} (hbad : ¬ lamp.hsbVal.Accepted) :
    lightbulbUpdate lamp = lamp := by
  simp only [lightbulbUpdate, lightbulbSetAimHsv, hsb2rgb_rejects hbad]

theorem update_frame (lamp : Lamp) :
    (lightbulbUpdate lamp).hsbVal = lamp.hsbVal ∧
      (lightbulbUpdate lamp).brightness = lamp.brightness ∧
      (lightbulbUpdate lamp).on = lamp.on := by
  by_cases hok : lamp.hsbVal.Accepted
  · obtain ⟨rgb, -, hconv⟩ := hsb2rgb_accepts hok ⟨0, 0, 0⟩
    rw [update_accepted hconv]
    exact ⟨rfl, rfl, rfl⟩
  · rw [update_rejected hok]
    exact ⟨rfl, rfl, rfl⟩

@[simp] theorem update_hsbVal (lamp : Lamp) :
    (lightbulbUpdate lamp).hsbVal = lamp.hsbVal := (update_frame lamp).1

@[simp] theorem update_brightness (lamp : Lamp) :
    (lightbulbUpdate lamp).brightness = lamp.brightness :=
  (update_frame lamp).2.1

@[simp] theorem update_on (lamp : Lamp) :
    (lightbulbUpdate lamp).on = lamp.on := (update_frame lamp).2.2

@[simp] theorem updateIfOn_hsbVal (lamp : Lamp) :
    (updateIfOn lamp).hsbVal = lamp.hsbVal := by
  unfold updateIfOn
  split <;> simp

@[simp] theorem updateIfOn_brightness (lamp : Lamp) :
    (updateIfOn lamp).brightness = lamp.brightness := by
  unfold updateIfOn
  split <;> simp

@[simp] theorem updateIfOn_on (lamp : Lamp) :
    (updateIfOn lamp).on = lamp.on := by
  unfold updateIfOn
  split <;> simp

end EspIotivity.Lightbulb
