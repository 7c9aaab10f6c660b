import EspIotivity.Lightbulb.Lamp

/-!
# Switching off

Both ways of switching the lamp off store brightness zero and then go through
the same validated conversion as any colour change.  With a stored hue and
saturation that the conversion accepts the result is black; with any others
the update writes nothing and the lamp keeps what it showed.
-/

namespace EspIotivity.Lightbulb

open EspIotivity.Foundation

def LampCall.SwitchesOff (call : LampCall) : Prop :=
  call = .setOff ∨ call = .setOn false

/--
Once a call that switches off has returned the lamp shows black, and it goes
on showing black through every later call but `lightbulb_set_on(true)`.
-/
def OffMeansDark (calls : List LampCall) : Prop :=
  ∀ before off during, before ++ off :: during <+: calls →
    off.SwitchesOff → LampCall.setOn true ∉ during →
    (lampAfter (before ++ off :: during)).Shows dark

def Lamp.StoresColour (lamp : Lamp) : Prop :=
  lamp.hsbVal.h.toNat ≤ 360 ∧ lamp.hsbVal.s.toNat ≤ 100

/-! ## One update with brightness zero -/

theorem blackout_duties {lamp : Lamp} (hb : lamp.hsbVal.b = 0)
    (hcolour : lamp.StoresColour) :
    (lightbulbUpdate lamp).duties = dark :: lamp.duties := by
  have hok : Accepted lamp.hsbVal.h lamp.hsbVal.s 0 :=
    ⟨hcolour.1, hcolour.2, by decide⟩
  have hconv := hsb2rgb_black hok ⟨0, 0, 0⟩
  rw [← hb] at hconv
  rw [update_accepted hconv]
  rfl

theorem blackout_shows_dark {lamp : Lamp} (hb : lamp.hsbVal.b = 0)
    (hcolour : lamp.StoresColour) : (lightbulbUpdate lamp).Shows dark := by
  rw [Lamp.Shows, blackout_duties hb hcolour, List.head?_cons]

theorem blackout_rejected {lamp : Lamp} (hcolour : ¬ lamp.StoresColour) :
    lightbulbUpdate lamp = lamp :=
  update_rejected fun hok => hcolour ⟨hok.hue, hok.saturation⟩

theorem blackout_shows_dark_iff {lamp : Lamp} (hb : lamp.hsbVal.b = 0) :
    (lightbulbUpdate lamp).Shows dark ↔
      lamp.StoresColour ∨ lamp.Shows dark := by
  by_cases hcolour : lamp.StoresColour
  · simp [hcolour, blackout_shows_dark hb hcolour]
  · simp [hcolour, blackout_rejected hcolour]

/-! ## One call -/

theorem switchesOff_shows_dark_iff {off : LampCall} (hoff : off.SwitchesOff)
    (lamp : Lamp) :
    (off.perform lamp).Shows dark ↔ lamp.StoresColour ∨ lamp.Shows dark := by
  rcases hoff with rfl | rfl
  · exact blackout_shows_dark_iff rfl
  · exact blackout_shows_dark_iff rfl

theorem switchesOff_off {off : LampCall} (hoff : off.SwitchesOff)
    (lamp : Lamp) : (off.perform lamp).on = false := by
  rcases hoff with rfl | rfl
  · simp [LampCall.perform, lightbulbSetOff]
  · simp [LampCall.perform, lightbulbSetOn]

def Lamp.DarkWhileOff (lamp : Lamp) : Prop :=
  lamp.on = false ∧ lamp.Shows dark

theorem updateIfOn_darkWhileOff {lamp : Lamp} (hlamp : lamp.DarkWhileOff) :
    (updateIfOn lamp).DarkWhileOff := by
  simpa [updateIfOn, hlamp.1] using hlamp

theorem perform_darkWhileOff {call : LampCall} {lamp : Lamp}
    (hcall : call ≠ .setOn true) (hlamp : lamp.DarkWhileOff) :
    (call.perform lamp).DarkWhileOff := by
  obtain ⟨hoff, hdark⟩ := hlamp
  cases call with
  | setOn value =>
      cases value with
      | true => exact absurd rfl hcall
      | false =>
          exact ⟨switchesOff_off (.inr rfl) lamp,
            (switchesOff_shows_dark_iff (.inr rfl) lamp).mpr (.inr hdark)⟩
  | setOff =>
      exact ⟨switchesOff_off (.inl rfl) lamp,
        (switchesOff_shows_dark_iff (.inl rfl) lamp).mpr (.inr hdark)⟩
  | setHue value =>
      apply updateIfOn_darkWhileOff
      exact ⟨hoff, hdark⟩
  | setSaturation value =>
      apply updateIfOn_darkWhileOff
      exact ⟨hoff, hdark⟩
  | setBrightness value =>
      apply updateIfOn_darkWhileOff
      exact ⟨hoff, hdark⟩

/-! ## Whole runs -/

theorem lampAfter_append (before after : List LampCall) :
    lampAfter (before ++ after) =
      after.foldl (fun lamp call => call.perform lamp) (lampAfter before) := by
  simp [lampAfter, List.foldl_append]

theorem foldl_darkWhileOff {during : List LampCall} {lamp : Lamp}
    (hduring : LampCall.setOn true ∉ during) (hlamp : lamp.DarkWhileOff) :
    (during.foldl (fun lamp call => call.perform lamp) lamp).DarkWhileOff := by
  have hguard : lampMachine.Throughout (fun _ call => call ≠ .setOn true)
      lamp during :=
    Machine.throughout_of_mem
      (fun _ hmem _ => ne_of_mem_of_not_mem hmem hduring) lamp
  refine Machine.Throughout.invariant ?_ hlamp hguard
    (Machine.runFrom_ofTotal _ _ _ _)
  intro before call after hbefore hcall hnext
  cases hnext
  exact perform_darkWhileOff hcall hbefore

/--
Off means dark exactly in the runs whose every switching-off call finds an
accepted hue and saturation stored, or a lamp that is black already.
-/
theorem offMeansDark_iff (calls : List LampCall) :
    OffMeansDark calls ↔
      ∀ before off after, calls = before ++ off :: after → off.SwitchesOff →
        (lampAfter before).StoresColour ∨ (lampAfter before).Shows dark := by
  constructor
  · intro h before off after hcalls hoff
    rw [← switchesOff_shows_dark_iff hoff]
    have hdark := h before off [] ⟨after, by simp [hcalls]⟩ hoff (by simp)
    rwa [lampAfter_append] at hdark
  · rintro h before off during ⟨after, hcalls⟩ hoff hduring
    have hdark := (switchesOff_shows_dark_iff hoff (lampAfter before)).mpr
      (h before off (during ++ after) (by simp [← hcalls]) hoff)
    rw [lampAfter_append, List.foldl_cons]
    exact (foldl_darkWhileOff hduring ⟨switchesOff_off hoff _, hdark⟩).2

theorem offMeansDark_fails :
    ¬ OffMeansDark
      [.setHue 0, .setSaturation 100, .setBrightness 20, .setOn true,
        .setHue 400, .setOff] := by
  intro h
  have hdark := h
    [.setHue 0, .setSaturation 100, .setBrightness 20, .setOn true,
      .setHue 400] .setOff [] ⟨[], by simp⟩ (.inl rfl) (by simp)
  revert hdark
  decide +kernel

end EspIotivity.Lightbulb
