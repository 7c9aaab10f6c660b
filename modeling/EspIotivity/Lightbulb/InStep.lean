import EspIotivity.Lightbulb.Brightness
import EspIotivity.Lightbulb.OutOfRange

/-!
# The LEDs follow the stored state

Two setters write the duties whenever they are called, three only while the
lamp is on, and the brightness may be changed while it is off.  As long as the
arguments are in their ranges the duties last written are still those of the
stored colour, or black.
-/

namespace EspIotivity.Lightbulb

open EspIotivity.Foundation

/-- The duties last written, against `s_hsb_val` and `s_on`. -/
def Lamp.InStep (lamp : Lamp) : Prop :=
  ∃ rgb, lightbulbSetHsb2rgb lamp.hsbVal.h lamp.hsbVal.s lamp.hsbVal.b
      (some ⟨0, 0, 0⟩) = (true, some rgb) ∧
    lamp.Shows (if lamp.on then rgb.duties else dark)

/-! ## What is stored stays acceptable -/

structure Lamp.StoresInRange (lamp : Lamp) : Prop where
  accepted : lamp.hsbVal.Accepted
  remembered : lamp.brightness.toNat ≤ 100

theorem stored_le (limit : Nat) (hlimit : limit < 65536) {value : Int}
    (hlo : 0 ≤ value) (hhi : value ≤ limit) :
    (UInt16.ofInt value).toNat ≤ limit := by
  have hstored := uint16_ofInt_toNat_of_lt hlo (by omega)
  omega

theorem update_storesInRange {lamp : Lamp} (hlamp : lamp.StoresInRange) :
    (lightbulbUpdate lamp).StoresInRange := by
  constructor
  · rw [update_hsbVal]
    exact hlamp.accepted
  · rw [update_brightness]
    exact hlamp.remembered

theorem updateIfOn_storesInRange {lamp : Lamp} (hlamp : lamp.StoresInRange) :
    (updateIfOn lamp).StoresInRange := by
  unfold updateIfOn
  split
  · exact update_storesInRange hlamp
  · exact hlamp

theorem perform_storesInRange {call : LampCall} {lamp : Lamp}
    (hcall : call.InRange) (hlamp : lamp.StoresInRange) :
    (call.perform lamp).StoresInRange := by
  obtain ⟨⟨hh, hs, hb⟩, hremembered⟩ := hlamp
  have hzero : (0 : UInt16).toNat ≤ 100 := Nat.zero_le 100
  cases call with
  | setOn value =>
      apply update_storesInRange
      cases value with
      | true => exact ⟨⟨hh, hs, hremembered⟩, hremembered⟩
      | false => exact ⟨⟨hh, hs, hzero⟩, hb⟩
  | setOff =>
      apply update_storesInRange
      exact ⟨⟨hh, hs, hzero⟩, hremembered⟩
  | setHue value =>
      have hstored := stored_le 360 (by decide)
        (truncate_nonneg hcall.1) (truncate_le hcall.1 hcall.2)
      apply updateIfOn_storesInRange
      exact ⟨⟨hstored, hs, hb⟩, hremembered⟩
  | setSaturation value =>
      have hstored := stored_le 100 (by decide)
        (truncate_nonneg hcall.1) (truncate_le hcall.1 hcall.2)
      apply updateIfOn_storesInRange
      exact ⟨⟨hh, hstored, hb⟩, hremembered⟩
  | setBrightness value =>
      have hstored := stored_le 100 (by decide) hcall.1 hcall.2
      apply updateIfOn_storesInRange
      exact ⟨⟨hh, hs, hstored⟩, hstored⟩

/-! ## While the lamp is off it is dark -/

def Lamp.DarkIfOff (lamp : Lamp) : Prop :=
  lamp.on = false → lamp.Shows dark

theorem updateIfOn_darkIfOff {lamp : Lamp} (hlamp : lamp.DarkIfOff) :
    (updateIfOn lamp).DarkIfOff := by
  intro hoff
  rw [updateIfOn_on] at hoff
  exact (updateIfOn_darkWhileOff ⟨hoff, hlamp hoff⟩).2

theorem perform_darkIfOff {call : LampCall} {lamp : Lamp}
    (hcolour : lamp.StoresColour) (hlamp : lamp.DarkIfOff) :
    (call.perform lamp).DarkIfOff := by
  have hswitch : ∀ off : LampCall, off.SwitchesOff →
      (off.perform lamp).DarkIfOff := by
    intro off hoff _
    exact (switchesOff_shows_dark_iff hoff lamp).mpr (.inl hcolour)
  cases call with
  | setOn value =>
      cases value with
      | true =>
          intro hoff
          simp [LampCall.perform, lightbulbSetOn] at hoff
      | false => exact hswitch _ (.inr rfl)
  | setOff => exact hswitch _ (.inl rfl)
  | setHue value =>
      apply updateIfOn_darkIfOff
      exact hlamp
  | setSaturation value =>
      apply updateIfOn_darkIfOff
      exact hlamp
  | setBrightness value =>
      apply updateIfOn_darkIfOff
      exact hlamp

/-! ## The invariant of a run -/

structure Lamp.Steady (lamp : Lamp) : Prop where
  stores : lamp.StoresInRange
  off : lamp.DarkIfOff
  lit : lamp.ShowsStored

theorem Lamp.Steady.inStep {lamp : Lamp} (h : lamp.Steady) : lamp.InStep := by
  obtain ⟨rgb, hconv, hduties⟩ := duties_accepted h.stores.accepted
  refine ⟨rgb, hconv, ?_⟩
  cases hon : lamp.on with
  | true => exact h.lit hon rgb.duties (Option.mem_def.mpr hduties)
  | false => exact h.off hon

theorem init_steady : (lightbulbInit .boot).Steady := by
  refine ⟨⟨by decide, by decide⟩, ?_, update_showsStored _⟩
  intro _
  exact blackout_shows_dark rfl ⟨by decide, by decide⟩

theorem perform_steady {call : LampCall} {lamp : Lamp} (hcall : call.InRange)
    (h : lamp.Steady) : (call.perform lamp).Steady := by
  have hok := h.stores.accepted
  exact ⟨perform_storesInRange hcall h.stores,
    perform_darkIfOff ⟨hok.hue, hok.saturation⟩ h.off,
    perform_showsStored call lamp⟩

theorem lampAfter_steady {calls : List LampCall}
    (hcalls : ∀ call ∈ calls, call.InRange) : (lampAfter calls).Steady := by
  have hguard : lampMachine.Throughout (fun _ call => call.InRange)
      (lightbulbInit .boot) calls :=
    Machine.throughout_of_mem (fun call hmem _ => hcalls call hmem) _
  refine Machine.Throughout.invariant ?_ init_steady hguard
    (Machine.runFrom_ofTotal _ _ _ _)
  intro before call after hbefore hcall hnext
  cases hnext
  exact perform_steady hcall hbefore

/-- After every call of a run in range the LEDs show what is stored. -/
theorem lamp_inStep {calls : List LampCall}
    (hcalls : ∀ call ∈ calls, call.InRange) {done : List LampCall}
    (hdone : done <+: calls) : (lampAfter done).InStep := by
  apply Lamp.Steady.inStep
  apply lampAfter_steady
  intro call hcall
  exact hcalls call (hdone.subset hcall)

/-- The lamp is lit, switched off and then given another brightness. -/
def brightenedWhileOff : List LampCall :=
  [.setHue 240, .setSaturation 100, .setBrightness 20, .setOn true, .setOff,
    .setBrightness 40]

theorem brightenedWhileOff_inStep :
    (∀ call ∈ brightenedWhileOff, call.InRange) ∧
      (lampAfter (brightenedWhileOff.take 4)).InStep ∧
      (lampAfter (brightenedWhileOff.take 4)).Shows ⟨0, 0, 1638⟩ ∧
      (lampAfter brightenedWhileOff).InStep ∧
      (lampAfter brightenedWhileOff).on = false ∧
      (lampAfter brightenedWhileOff).hsbVal.b ≠ 0 := by
  have hcalls : ∀ call ∈ brightenedWhileOff, call.InRange := by
    simp [brightenedWhileOff, LampCall.InRange]
    norm_num
  exact ⟨hcalls, lamp_inStep hcalls (List.take_prefix 4 _), by decide +kernel,
    lamp_inStep hcalls List.prefix_rfl, by decide +kernel, by decide +kernel⟩

end EspIotivity.Lightbulb
