import EspIotivity.Foundation.Observer
import EspIotivity.Lightbulb.Daemon
import EspIotivity.Lightbulb.DutyRange
import EspIotivity.Lightbulb.InStep

/-!
# The daemon task, step by step

`lightbulb_damon_task` reads one field of `s_bulb_state` at a time, each in the
setter it is passed to, so that at any moment at most one call of the driver is
made with what is stored then.  A pass that starts while nothing is being stored
leaves the lamp showing the command, and later passes do not disturb it.
-/

namespace EspIotivity.Lightbulb

open EspIotivity.Foundation

/-- The field that the loop reads next. -/
inductive DaemonPoint where
  | hue
  | saturation
  | brightness
  | on
  | flash
  deriving DecidableEq, Repr

/-- The call made there, if any. -/
def DaemonPoint.call (bulb : BulbState) : DaemonPoint → Option LampCall
  | .hue => some (.setHue bulb.hueValue)
  | .saturation => some (.setSaturation bulb.saturationValue)
  | .brightness => some (.setBrightness bulb.brightnessValue)
  | .on => some (.setOn bulb.setOn)
  | .flash => if bulb.flashInterval ≠ 0 then some .setOff else none

def DaemonPoint.following : DaemonPoint → DaemonPoint
  | .hue => .saturation
  | .saturation => .brightness
  | .brightness => .on
  | .on => .flash
  | .flash => .hue

structure DaemonTask where
  point : DaemonPoint
  lamp : Lamp
  deriving DecidableEq, Repr

def DaemonTask.start : DaemonTask := ⟨.hue, lightbulbInit .boot⟩

def DaemonTask.step (bulb : BulbState) (d : DaemonTask) : DaemonTask where
  point := d.point.following
  lamp :=
    match d.point.call bulb with
    | some call => call.perform d.lamp
    | none => d.lamp

/-! ## Whole passes -/

theorem step_show (bulb : BulbState) (lamp : Lamp) :
    (DaemonTask.step bulb)^[4] ⟨.hue, lamp⟩ =
      ⟨.flash, (lightbulbDamonShow ⟨bulb, lamp⟩).lamp⟩ := rfl

/-- With nothing stored in between, five steps are one pass of the loop. -/
theorem step_pass (bulb : BulbState) (lamp : Lamp) :
    (DaemonTask.step bulb)^[5] ⟨.hue, lamp⟩ =
      ⟨.hue, (lightbulbDamonPass ⟨bulb, lamp⟩).lamp⟩ := by
  rw [Function.iterate_succ_apply', step_show, DaemonTask.step,
    lightbulbDamonPass, lightbulbDamonFlash, show_bulb, DaemonPoint.call]
  split_ifs <;> rfl

theorem exists_hue (bulb : BulbState) (d : DaemonTask) :
    ∃ k ≤ 4, ((DaemonTask.step bulb)^[k] d).point = .hue := by
  rcases d with ⟨point, lamp⟩
  cases point with
  | hue => exact ⟨0, by decide, rfl⟩
  | saturation => exact ⟨4, le_rfl, rfl⟩
  | brightness => exact ⟨3, by decide, rfl⟩
  | on => exact ⟨2, by decide, rfl⟩
  | flash => exact ⟨1, by decide, rfl⟩

/-! ## Duties of the colours that are commanded -/

/-- The brightest duty of brightness 49, the most that is ever commanded. -/
def modestDuty : Nat := 49 * pwmTargetDuty / 100

structure Hsp.Modest (hsb : Hsp) : Prop where
  hue : hsb.h.toNat < 360
  saturation : hsb.s.toNat ≤ 100
  brightness : hsb.b.toNat < 50

theorem Hsp.Modest.duties {hsb : Hsp} (h : hsb.Modest) :
    ∀ d ∈ hsb.duties, d.AtMost modestDuty := by
  have hok : hsb.Accepted :=
    ⟨h.hue.le, h.saturation, h.brightness.le.trans (by decide)⟩
  obtain ⟨rgb, hconv, hr, hg, hb⟩ := hsb2rgb_atMost hok h.hue ⟨0, 0, 0⟩
  have hbright := h.brightness
  intro d hd
  rw [Hsp.duties, hconv] at hd
  cases hd
  simp only [Duties.AtMost, Rgb.duties, modestDuty, pwmTargetDuty]
  omega

/-- Arguments that `notify_lightbulb_state` stores. -/
def LampCall.Modest : LampCall → Prop
  | .setOn _ | .setOff => True
  | .setHue value => ∃ n : Nat, value = n ∧ n < 360
  | .setSaturation value => ∃ n : Nat, value = n ∧ n ≤ 100
  | .setBrightness value => ∃ n : Nat, value = n ∧ n < 50

theorem BulbState.InRange.call_modest {bulb : BulbState} (hs : bulb.InRange)
    (point : DaemonPoint) : ∀ call ∈ point.call bulb, call.Modest := by
  intro call hcall
  cases point with
  | hue =>
      cases hcall
      exact hs.hue
  | saturation =>
      cases hcall
      exact hs.saturation
  | brightness =>
      cases hcall
      exact hs.brightness
  | on =>
      cases hcall
      trivial
  | flash =>
      simp only [DaemonPoint.call] at hcall
      split at hcall
      · cases hcall
        trivial
      · cases hcall

theorem LampCall.Modest.inRange {call : LampCall} (h : call.Modest) :
    call.InRange := by
  cases call with
  | setOn value => trivial
  | setOff => trivial
  | setHue value | setSaturation value =>
      obtain ⟨n, rfl, hn⟩ := h
      exact ⟨by positivity, by exact_mod_cast (by omega)⟩
  | setBrightness value =>
      obtain ⟨n, rfl, hn⟩ := h
      exact ⟨by positivity, by omega⟩

/-! ## What the lamp can be made to show -/

structure Lamp.StoresModest (lamp : Lamp) : Prop where
  stored : lamp.hsbVal.Modest
  remembered : lamp.brightness.toNat < 50

structure Lamp.Modest (lamp : Lamp) : Prop extends Lamp.StoresModest lamp where
  steady : lamp.Steady
  duties : ∀ d ∈ lamp.duties, d.AtMost modestDuty

theorem ofInt_natCast_le (n : Nat) : (UInt16.ofInt n).toNat ≤ n := by
  have hnarrowed := uint16_ofInt_toNat n
  omega

theorem update_storesModest {lamp : Lamp} (hlamp : lamp.StoresModest) :
    (lightbulbUpdate lamp).StoresModest := by
  constructor
  · rw [update_hsbVal]
    exact hlamp.stored
  · rw [update_brightness]
    exact hlamp.remembered

theorem updateIfOn_storesModest {lamp : Lamp} (hlamp : lamp.StoresModest) :
    (updateIfOn lamp).StoresModest := by
  unfold updateIfOn
  split
  · exact update_storesModest hlamp
  · exact hlamp

theorem perform_storesModest {call : LampCall} {lamp : Lamp}
    (hcall : call.Modest) (hlamp : lamp.StoresModest) :
    (call.perform lamp).StoresModest := by
  obtain ⟨⟨hh, hs, hb⟩, hremembered⟩ := hlamp
  have hzero : (0 : UInt16).toNat < 50 := Nat.zero_lt_succ 49
  cases call with
  | setOn value =>
      apply update_storesModest
      cases value with
      | true => exact ⟨⟨hh, hs, hremembered⟩, hremembered⟩
      | false => exact ⟨⟨hh, hs, hzero⟩, hb⟩
  | setOff =>
      apply update_storesModest
      exact ⟨⟨hh, hs, hzero⟩, hremembered⟩
  | setHue value =>
      obtain ⟨n, rfl, hn⟩ := hcall
      have hstored := (ofInt_natCast_le n).trans_lt hn
      rw [← truncate_natCast] at hstored
      apply updateIfOn_storesModest
      exact ⟨⟨hstored, hs, hb⟩, hremembered⟩
  | setSaturation value =>
      obtain ⟨n, rfl, hn⟩ := hcall
      have hstored := (ofInt_natCast_le n).trans hn
      rw [← truncate_natCast] at hstored
      apply updateIfOn_storesModest
      exact ⟨⟨hh, hstored, hb⟩, hremembered⟩
  | setBrightness value =>
      obtain ⟨n, rfl, hn⟩ := hcall
      have hstored := (ofInt_natCast_le n).trans_lt hn
      apply updateIfOn_storesModest
      exact ⟨⟨hh, hs, hstored⟩, hstored⟩

/-- What a call brings to the conversion is what it stores, if anything. -/
theorem brings_stored {call : LampCall} {lamp : Lamp} {hsb : Hsp}
    (hbrings : hsb ∈ call.brings lamp) : hsb = (call.perform lamp).hsbVal := by
  cases call with
  | setOn value =>
      cases value with
      | true | false =>
          cases hbrings
          simp [LampCall.perform, lightbulbSetOn]
  | setOff =>
      cases hbrings
      simp [LampCall.perform, lightbulbSetOff]
  | setHue value | setSaturation value | setBrightness value =>
      simp only [LampCall.brings] at hbrings
      split at hbrings
      · cases hbrings
        simp [LampCall.perform, lightbulbSetHue, lightbulbSetSaturation,
          lightbulbSetBrightness]
      · cases hbrings

theorem perform_modest {call : LampCall} {lamp : Lamp} (hcall : call.Modest)
    (hlamp : lamp.Modest) : (call.perform lamp).Modest := by
  have hstores := perform_storesModest hcall hlamp.toStoresModest
  refine ⟨hstores, perform_steady hcall.inRange hlamp.steady, ?_⟩
  intro d hd
  rw [perform_duties, List.mem_append, Option.mem_toList] at hd
  rcases hd with hnew | hold
  · obtain ⟨hsb, hbrings, hduties⟩ := Option.bind_eq_some_iff.mp hnew
    have hmodest := hstores.stored
    rw [← brings_stored hbrings] at hmodest
    exact hmodest.duties d hduties
  · exact hlamp.duties d hold

theorem init_modest : (lightbulbInit .boot).Modest := by
  have hduties : (lightbulbInit .boot).duties = [dark, ⟨100, 100, 100⟩] := by
    decide +kernel
  refine ⟨⟨⟨by decide, by decide, by decide⟩, by decide⟩, init_steady, ?_⟩
  rw [hduties]
  simp [Duties.AtMost, dark, modestDuty, pwmTargetDuty]

theorem step_modest {bulb : BulbState} {d : DaemonTask} (hbulb : bulb.InRange)
    (hd : d.lamp.Modest) : (d.step bulb).lamp.Modest := by
  rw [DaemonTask.step]
  cases hcall : d.point.call bulb with
  | none => exact hd
  | some call => exact perform_modest (hbulb.call_modest _ call hcall) hd

/-! ## The lamp settles -/

/-- The duties of the commanded colour, or black. -/
def BulbState.shown (bulb : BulbState) : Option Duties :=
  if bulb.setOn then bulb.hsb.duties else some dark

structure Settled (bulb : BulbState) (lamp : Lamp) : Prop where
  hue : lamp.hsbVal.h = bulb.hsb.h
  saturation : lamp.hsbVal.s = bulb.hsb.s
  on : lamp.on = bulb.setOn
  brightness : bulb.setOn = true →
    lamp.hsbVal.b = bulb.hsb.b ∧ lamp.brightness = bulb.hsb.b
  shows : lamp.duties.head? = bulb.shown

theorem shown_off {bulb : BulbState} (hoff : bulb.setOn = false) :
    bulb.shown = some dark := by
  simp [BulbState.shown, hoff]

section Settle

variable {bulb : BulbState} {lamp : Lamp} {point : DaemonPoint}

theorem update_settled (hbulb : bulb.InRange) (hset : bulb.setOn = true)
    (hhsb : lamp.hsbVal = bulb.hsb) (hon : lamp.on = true)
    (hbrightness : lamp.brightness = bulb.hsb.b) :
    Settled bulb (lightbulbUpdate lamp) := by
  obtain ⟨rgb, -, hduties⟩ := duties_accepted hbulb.accepted
  constructor
  case hue => rw [update_hsbVal, hhsb]
  case saturation => rw [update_hsbVal, hhsb]
  case on => rw [update_on, hon, hset]
  case brightness =>
    intro _
    rw [update_hsbVal, update_brightness, hhsb]
    exact ⟨rfl, hbrightness⟩
  case shows => simp [update_eq, hhsb, hduties, BulbState.shown, hset]

theorem Settled.hsbVal (h : Settled bulb lamp) (hset : bulb.setOn = true) :
    lamp.hsbVal = bulb.hsb := by
  have hbright := (h.brightness hset).1
  change Hsp.mk lamp.hsbVal.h lamp.hsbVal.s lamp.hsbVal.b = _
  rw [h.hue, h.saturation, hbright]

theorem updateIfOn_settled (hbulb : bulb.InRange) (h : Settled bulb lamp) :
    Settled bulb (updateIfOn lamp) := by
  unfold updateIfOn
  split
  case isTrue hon =>
    have hset := h.on.symm.trans hon
    exact update_settled hbulb hset (h.hsbVal hset) hon (h.brightness hset).2
  case isFalse => exact h

theorem setOn_settled (hbulb : bulb.InRange) (h : Settled bulb lamp) :
    Settled bulb (lightbulbSetOn bulb.setOn lamp) := by
  have hcolour : bulb.hsb.h.toNat ≤ 360 ∧ bulb.hsb.s.toNat ≤ 100 :=
    ⟨hbulb.accepted.hue, hbulb.accepted.saturation⟩
  cases hset : bulb.setOn with
  | true =>
      have hremembered := (h.brightness hset).2
      simp only [lightbulbSetOn, if_true]
      apply update_settled hbulb hset
      · rw [h.hue, h.saturation, hremembered]
      · rfl
      · exact hremembered
  | false =>
      rw [← h.hue, ← h.saturation] at hcolour
      constructor
      case hue => simp [lightbulbSetOn, h.hue]
      case saturation => simp [lightbulbSetOn, h.saturation]
      case on => simp [lightbulbSetOn, hset]
      case brightness => simp [hset]
      case shows =>
        rw [shown_off hset]
        exact blackout_shows_dark rfl hcolour

/-- Reading once more what is shown already changes nothing that is seen. -/
theorem call_settled (hbulb : bulb.InRange) (hflash : bulb.flashInterval = 0)
    (h : Settled bulb lamp) : ∀ call ∈ point.call bulb,
      Settled bulb (call.perform lamp) := by
  intro call hcall
  cases point with
  | hue =>
      cases hcall
      apply updateIfOn_settled hbulb
      exact ⟨rfl, h.saturation, h.on, h.brightness, h.shows⟩
  | saturation =>
      cases hcall
      apply updateIfOn_settled hbulb
      exact ⟨h.hue, rfl, h.on, h.brightness, h.shows⟩
  | brightness =>
      cases hcall
      apply updateIfOn_settled hbulb
      exact ⟨h.hue, h.saturation, h.on, fun _ => ⟨rfl, rfl⟩, h.shows⟩
  | on =>
      cases hcall
      exact setOn_settled hbulb h
  | flash => simp [DaemonPoint.call, hflash] at hcall

theorem step_settled (hbulb : bulb.InRange) (hflash : bulb.flashInterval = 0)
    {d : DaemonTask} (h : Settled bulb d.lamp) :
    Settled bulb (d.step bulb).lamp := by
  rw [DaemonTask.step]
  cases hcall : d.point.call bulb with
  | none => exact h
  | some call => exact call_settled hbulb hflash h call hcall

/-- Whatever the lamp was left with, four reads in a row set all of it. -/
theorem show_settled (hbulb : bulb.InRange) (lamp : Lamp) :
    Settled bulb (lightbulbDamonShow ⟨bulb, lamp⟩).lamp := by
  cases hset : bulb.setOn with
  | true =>
      simp only [lightbulbDamonShow, lightbulbSetOn, hset, if_true]
      apply update_settled hbulb hset
      · simp [lightbulbSetHue, lightbulbSetSaturation, lightbulbSetBrightness,
          BulbState.hsb]
      · rfl
      · simp [lightbulbSetBrightness, BulbState.hsb]
  | false =>
      have hdark := show_off (s := ⟨bulb, lamp⟩) hset hbulb
      constructor
      case shows =>
        rw [shown_off hset]
        exact hdark
      all_goals simp [lightbulbDamonShow, lightbulbSetOn, lightbulbSetHue,
        lightbulbSetSaturation, lightbulbSetBrightness, BulbState.hsb, hset]

/-- From anywhere in a pass, the rest of it and one more pass are enough. -/
theorem steps_settled (hbulb : bulb.InRange) (hflash : bulb.flashInterval = 0)
    (d : DaemonTask) {steps : Nat} (hsteps : 8 ≤ steps) :
    Settled bulb ((DaemonTask.step bulb)^[steps] d).lamp := by
  obtain ⟨k, hk, hpoint⟩ := exists_hue bulb d
  have hkeep : ∀ d : DaemonTask, Settled bulb d.lamp →
      Settled bulb (d.step bulb).lamp :=
    fun d => step_settled hbulb hflash
  refine iterate_settles hkeep (k := 4 + k) ?_ (by omega)
  rw [Function.iterate_add_apply]
  generalize (DaemonTask.step bulb)^[k] d = reached at hpoint
  rcases reached with ⟨point, lamp⟩
  cases hpoint
  rw [step_show]
  exact show_settled hbulb lamp

end Settle

end EspIotivity.Lightbulb
