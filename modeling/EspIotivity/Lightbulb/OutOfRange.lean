import EspIotivity.Lightbulb.Lamp
import EspIotivity.Lightbulb.Conversion

/-!
# Settings out of range

The setters store what they are given, narrowed to 16 bits, and only the
conversion looks at it.  Two stored values cannot be told apart by any later
call exactly when they are equal or both above what the conversion accepts.
-/

namespace EspIotivity.Lightbulb

open EspIotivity.Foundation

/-- A setting whose integral argument is outside the documented range. -/
def LampCall.OutOfRange : LampCall → Prop
  | .setOn _ | .setOff => False
  | .setHue value => ∃ n : Int, value = n ∧ ¬ (0 ≤ n ∧ n ≤ 360)
  | .setSaturation value => ∃ n : Int, value = n ∧ ¬ (0 ≤ n ∧ n ≤ 100)
  | .setBrightness value => ¬ (0 ≤ value ∧ value ≤ 100)

def performAll (calls : List LampCall) (lamp : Lamp) : Lamp :=
  calls.foldl (fun lamp call => call.perform lamp) lamp

/-- The lamp goes on as if the call had not been made. -/
structure NoEffect (lamp : Lamp) (call : LampCall) : Prop where
  now : (call.perform lamp).duties.head? = lamp.duties.head?
  later : ∀ calls, ∃ written,
    (performAll calls lamp).duties = written ++ lamp.duties ∧
      (performAll calls (call.perform lamp)).duties =
        written ++ (call.perform lamp).duties

def SameOrOver (limit : Nat) (x y : UInt16) : Prop :=
  x = y ∨ limit < x.toNat ∧ limit < y.toNat

/-- What the call stores, against what is stored already. -/
def LampCall.Unnoticed (lamp : Lamp) : LampCall → Prop
  | .setOn _ | .setOff => True
  | .setHue value =>
      SameOrOver 360 lamp.hsbVal.h (UInt16.ofInt (truncate value))
  | .setSaturation value =>
      SameOrOver 100 lamp.hsbVal.s (UInt16.ofInt (truncate value))
  | .setBrightness value =>
      SameOrOver 100 lamp.hsbVal.b (UInt16.ofInt value) ∧
        SameOrOver 100 lamp.brightness (UInt16.ofInt value)

/-! ## The duties of a stored colour -/

/-- What `lightbulb_update` writes, `none` when the conversion rejects. -/
def Hsp.duties (hsb : Hsp) : Option Duties :=
  match lightbulbSetHsb2rgb hsb.h hsb.s hsb.b (some ⟨0, 0, 0⟩) with
  | (true, some rgb) => some rgb.duties
  | _ => none

theorem duties_rejected {hsb : Hsp} (hbad : ¬ hsb.Accepted) :
    hsb.duties = none := by
  rw [Hsp.duties, hsb2rgb_rejects hbad]

theorem duties_accepted {hsb : Hsp} (hok : hsb.Accepted) :
    ∃ rgb, lightbulbSetHsb2rgb hsb.h hsb.s hsb.b (some ⟨0, 0, 0⟩) =
      (true, some rgb) ∧ hsb.duties = some rgb.duties := by
  obtain ⟨rgb, -, hconv⟩ := hsb2rgb_accepts hok ⟨0, 0, 0⟩
  exact ⟨rgb, hconv, by rw [Hsp.duties, hconv]⟩

theorem update_eq (lamp : Lamp) :
    lightbulbUpdate lamp =
      { lamp with duties := lamp.hsbVal.duties.toList ++ lamp.duties } := by
  by_cases hok : lamp.hsbVal.Accepted
  · obtain ⟨rgb, hconv, hduties⟩ := duties_accepted hok
    rw [update_accepted hconv, hduties]
    rfl
  · rw [update_rejected hok, duties_rejected hok]
    rfl

theorem duties_isSome (hsb : Hsp) :
    hsb.duties.isSome = true ↔ hsb.Accepted := by
  by_cases hok : hsb.Accepted
  · obtain ⟨rgb, -, hduties⟩ := duties_accepted hok
    simp [hok, hduties]
  · simp [hok, duties_rejected hok]

theorem duties_injective : Function.Injective Rgb.duties := by
  intro rgb other h
  simp only [Rgb.duties, Duties.mk.injEq, pwmTargetDuty] at h
  rcases rgb with ⟨r, g, b⟩
  rcases other with ⟨r', g', b'⟩
  simp only [Rgb.mk.injEq, ← UInt8.toNat_inj]
  dsimp only at h
  omega

theorem duties_levels {hsb : Hsp} (hok : hsb.Accepted)
    (hh : hsb.h.toNat < 360) :
    ∃ rgb : Rgb, hsb.duties = some rgb.duties ∧ ∀ c : Channel,
      (rgb.get c).toNat =
        level hsb.b.toNat hsb.s.toNat (c.depth hsb.h.toNat) := by
  obtain ⟨rgb, hconv, hlevels⟩ := hsb2rgb_levels hok hh ⟨0, 0, 0⟩
  exact ⟨rgb, by rw [Hsp.duties, hconv], hlevels⟩

/-- Equal duties below hue 360 come from equal channels. -/
theorem level_eq_of_duties {hsb other : Hsp} (hok : hsb.Accepted)
    (hother : other.Accepted) (hh : hsb.h.toNat < 360)
    (hh' : other.h.toNat < 360) (h : hsb.duties = other.duties) (c : Channel) :
    level hsb.b.toNat hsb.s.toNat (c.depth hsb.h.toNat) =
      level other.b.toNat other.s.toNat (c.depth other.h.toNat) := by
  obtain ⟨rgb, hduties, hlevels⟩ := duties_levels hok hh
  obtain ⟨rgb', hduties', hlevels'⟩ := duties_levels hother hh'
  rw [hduties, hduties', Option.some.injEq] at h
  rw [← hlevels, ← hlevels', duties_injective h]

/-! ## Stored values that can be told apart -/

section Separation

variable {x y : UInt16}

theorem sameOrOver_of_iff {limit : Nat}
    (hiff : x.toNat ≤ limit ↔ y.toNat ≤ limit)
    (heq : x.toNat ≤ limit → y.toNat ≤ limit → x.toNat = y.toNat) :
    SameOrOver limit x y := by
  by_cases hx : x.toNat ≤ limit
  · exact .inl (UInt16.toNat_inj.mp (heq hx (hiff.mp hx)))
  · exact .inr ⟨not_le.mp hx, not_le.mp fun hy => hx (hiff.mpr hy)⟩

theorem accepted_iff_of_duties {hsb other : Hsp}
    (h : hsb.duties = other.duties) : hsb.Accepted ↔ other.Accepted := by
  rw [← duties_isSome, ← duties_isSome, h]

theorem brightness_sameOrOver
    (h : Hsp.duties ⟨0, 100, x⟩ = Hsp.duties ⟨0, 100, y⟩) :
    SameOrOver 100 x y := by
  have haccepted : ∀ {b : UInt16}, b.toNat ≤ 100 ↔
      Hsp.Accepted ⟨0, 100, b⟩ := by
    intro b
    exact ⟨fun hb => ⟨Nat.zero_le 360, le_rfl, hb⟩, fun hok => hok.brightness⟩
  apply sameOrOver_of_iff
  · rw [haccepted, haccepted, accepted_iff_of_duties h]
  · intro hx hy
    have hlevel := level_eq_of_duties (haccepted.mp hx) (haccepted.mp hy)
      (Nat.zero_lt_succ 359) (Nat.zero_lt_succ 359) h .red
    simpa [Channel.depth, level_zero] using hlevel

theorem saturation_sameOrOver
    (h : Hsp.duties ⟨0, x, 100⟩ = Hsp.duties ⟨0, y, 100⟩) :
    SameOrOver 100 x y := by
  have haccepted : ∀ {s : UInt16}, s.toNat ≤ 100 ↔
      Hsp.Accepted ⟨0, s, 100⟩ := by
    intro s
    exact ⟨fun hs => ⟨Nat.zero_le 360, hs, le_rfl⟩, fun hok => hok.saturation⟩
  apply sameOrOver_of_iff
  · rw [haccepted, haccepted, accepted_iff_of_duties h]
  · intro hx hy
    have hlevel := level_eq_of_duties (haccepted.mp hx) (haccepted.mp hy)
      (Nat.zero_lt_succ 359) (Nat.zero_lt_succ 359) h .blue
    have hleast : level 100 x.toNat 100 = level 100 y.toNat 100 := by
      simpa [Channel.depth] using hlevel
    rw [level_hundred, level_hundred, Nat.mul_div_cancel_left _ (by decide),
      Nat.mul_div_cancel_left _ (by decide)] at hleast
    omega

theorem depth_injective {h h' : Nat} (hh : h < 360) (hh' : h' < 360)
    (heq : ∀ c : Channel, c.depth h = c.depth h') : h = h' := by
  have hsector : h / 60 < 6 := by omega
  have hsector' : h' / 60 < 6 := by omega
  have hred := heq .red
  have hgreen := heq .green
  have hblue := heq .blue
  unfold Channel.depth at hred hgreen hblue
  generalize hi : h / 60 = i at hsector hred hgreen hblue
  generalize hi' : h' / 60 = i' at hsector' hred hgreen hblue
  interval_cases i <;> interval_cases i' <;>
    simp only at hred hgreen hblue <;> omega

theorem hue_eq_of_duties (hx : x.toNat < 360) (hy : y.toNat < 360)
    (h : Hsp.duties ⟨x, 100, 100⟩ = Hsp.duties ⟨y, 100, 100⟩) :
    x.toNat = y.toNat := by
  have hfull : ∀ depth, level 100 100 depth = 100 - depth := by
    intro depth
    rw [level]
    omega
  apply depth_injective hx hy
  intro c
  have hlevel : level 100 100 (c.depth x.toNat) =
      level 100 100 (c.depth y.toNat) :=
    level_eq_of_duties ⟨hx.le, le_rfl, le_rfl⟩ ⟨hy.le, le_rfl, le_rfl⟩ hx hy h c
  have hdepth := depth_le x.toNat c
  have hdepth' := depth_le y.toNat c
  rw [hfull, hfull] at hlevel
  omega

/-- At hue 360 a channel is above the brightness, below it none is. -/
theorem duties_wrapped_ne (hx : x.toNat < 360) :
    Hsp.duties ⟨x, 1, 20⟩ ≠ Hsp.duties ⟨360, 1, 20⟩ := by
  have hok : Accepted x 1 20 := ⟨hx.le, by decide, by decide⟩
  obtain ⟨rgb, hconv, hle⟩ := hsb2rgb_atMost hok hx ⟨0, 0, 0⟩
  have hbelow : Hsp.duties ⟨x, 1, 20⟩ = some rgb.duties := by
    rw [Hsp.duties, hconv]
  have hwrapped : Hsp.duties ⟨360, 1, 20⟩ = some (Rgb.duties ⟨20, 21, 19⟩) := by
    decide
  intro h
  rw [hbelow, hwrapped, Option.some.injEq] at h
  have hgreen : rgb.g.toNat ≤ 20 := hle.2.1
  rw [duties_injective h] at hgreen
  exact absurd hgreen (by decide)

theorem hue_sameOrOver
    (h : ∀ s v : UInt16, s.toNat ≤ 100 → v.toNat ≤ 100 →
      Hsp.duties ⟨x, s, v⟩ = Hsp.duties ⟨y, s, v⟩) : SameOrOver 360 x y := by
  have haccepted : ∀ {hue : UInt16}, hue.toNat ≤ 360 ↔
      Hsp.Accepted ⟨hue, 100, 100⟩ := by
    intro hue
    exact ⟨fun hh => ⟨hh, le_rfl, le_rfl⟩, fun hok => hok.hue⟩
  have hwrapped : ∀ {hue : UInt16}, hue.toNat ≤ 360 → ¬ hue.toNat < 360 →
      hue = 360 := by
    intro hue hle hlt
    exact UInt16.toNat_inj.mp (le_antisymm hle (not_lt.mp hlt))
  apply sameOrOver_of_iff
  · rw [haccepted, haccepted,
      accepted_iff_of_duties (h 100 100 le_rfl le_rfl)]
  · intro hx hy
    have hdim := h 1 20 (by decide) (by decide)
    by_cases hx' : x.toNat < 360
    · by_cases hy' : y.toNat < 360
      · exact hue_eq_of_duties hx' hy' (h 100 100 le_rfl le_rfl)
      · rw [hwrapped hy hy'] at hdim
        exact absurd hdim (duties_wrapped_ne hx')
    · by_cases hy' : y.toNat < 360
      · rw [hwrapped hx hx'] at hdim
        exact absurd hdim.symm (duties_wrapped_ne hy')
      · rw [hwrapped hx hx', hwrapped hy hy']

end Separation

/-! ## Lamps that no call tells apart -/

/-- Equal but for what is stored above the accepted range, and the past. -/
structure Lamp.Alike (lamp other : Lamp) : Prop where
  hue : SameOrOver 360 lamp.hsbVal.h other.hsbVal.h
  saturation : SameOrOver 100 lamp.hsbVal.s other.hsbVal.s
  brightness : SameOrOver 100 lamp.hsbVal.b other.hsbVal.b
  remembered : SameOrOver 100 lamp.brightness other.brightness
  on : lamp.on = other.on

theorem sameOrOver_eq {limit : Nat} {x y : UInt16} (h : SameOrOver limit x y)
    (hx : x.toNat ≤ limit) : x = y := by
  rcases h with rfl | ⟨hover, -⟩
  · rfl
  · omega

theorem sameOrOver_le {limit : Nat} {x y : UInt16} (h : SameOrOver limit x y) :
    x.toNat ≤ limit ↔ y.toNat ≤ limit := by
  rcases h with rfl | ⟨hx, hy⟩
  · rfl
  · omega

theorem Lamp.Alike.duties {lamp other : Lamp} (h : lamp.Alike other) :
    lamp.hsbVal.duties = other.hsbVal.duties := by
  by_cases hok : lamp.hsbVal.Accepted
  · rw [Hsp.duties, Hsp.duties, sameOrOver_eq h.hue hok.hue,
      sameOrOver_eq h.saturation hok.saturation,
      sameOrOver_eq h.brightness hok.brightness]
  · have hbad : ¬ other.hsbVal.Accepted := by
      intro hother
      exact hok ⟨(sameOrOver_le h.hue).mpr hother.hue,
        (sameOrOver_le h.saturation).mpr hother.saturation,
        (sameOrOver_le h.brightness).mpr hother.brightness⟩
    rw [duties_rejected hok, duties_rejected hbad]

/-- The same duties are written in both states, which stay alike. -/
def WritesAlike (before after : Lamp × Lamp) : Prop :=
  ∃ written, after.1.duties = written ++ before.1.duties ∧
    after.2.duties = written ++ before.2.duties ∧ after.1.Alike after.2

theorem update_alike {lamp other : Lamp} (h : lamp.Alike other) :
    WritesAlike (lamp, other)
      (lightbulbUpdate lamp, lightbulbUpdate other) := by
  refine ⟨lamp.hsbVal.duties.toList, ?_, ?_, ?_⟩
  · rw [update_eq]
  · rw [h.duties, update_eq other]
  · rw [update_eq, update_eq]
    exact ⟨h.hue, h.saturation, h.brightness, h.remembered, h.on⟩

theorem updateIfOn_alike {lamp other : Lamp} (h : lamp.Alike other) :
    WritesAlike (lamp, other) (updateIfOn lamp, updateIfOn other) := by
  unfold updateIfOn
  rw [← h.on]
  split
  · exact update_alike h
  · exact ⟨[], rfl, rfl, h⟩

theorem perform_alike (call : LampCall) {lamp other : Lamp}
    (h : lamp.Alike other) :
    WritesAlike (lamp, other) (call.perform lamp, call.perform other) := by
  obtain ⟨hhue, hsaturation, hbrightness, hremembered, hon⟩ := h
  cases call with
  | setOn value =>
      cases value with
      | true =>
          exact update_alike
            ⟨hhue, hsaturation, hremembered, hremembered, rfl⟩
      | false =>
          exact update_alike ⟨hhue, hsaturation, .inl rfl, hbrightness, rfl⟩
  | setOff =>
      exact update_alike ⟨hhue, hsaturation, .inl rfl, hremembered, rfl⟩
  | setHue value =>
      exact updateIfOn_alike
        ⟨.inl rfl, hsaturation, hbrightness, hremembered, hon⟩
  | setSaturation value =>
      exact updateIfOn_alike
        ⟨hhue, .inl rfl, hbrightness, hremembered, hon⟩
  | setBrightness value =>
      exact updateIfOn_alike ⟨hhue, hsaturation, .inl rfl, .inl rfl, hon⟩

theorem performAll_alike (calls : List LampCall) {lamp other : Lamp}
    (h : lamp.Alike other) :
    WritesAlike (lamp, other)
      (performAll calls lamp, performAll calls other) := by
  induction calls generalizing lamp other with
  | nil => exact ⟨[], rfl, rfl, h⟩
  | cons call calls ih =>
      obtain ⟨first, hlamp, hother, hnext⟩ := perform_alike call h
      obtain ⟨later, hlamp', hother', hlast⟩ := ih hnext
      refine ⟨later ++ first, ?_, ?_, hlast⟩
      · rw [List.append_assoc, ← hlamp]
        exact hlamp'
      · rw [List.append_assoc, ← hother]
        exact hother'

/-! ## What a lamp that is on shows -/

/-- A lamp that is on shows its stored colour, if that is accepted. -/
def Lamp.ShowsStored (lamp : Lamp) : Prop :=
  lamp.on = true → ∀ d ∈ lamp.hsbVal.duties, lamp.Shows d

theorem update_showsStored (lamp : Lamp) :
    (lightbulbUpdate lamp).ShowsStored := by
  intro _ d hd
  rw [update_hsbVal, Option.mem_def] at hd
  rw [update_eq, hd]
  rfl

theorem updateIfOn_showsStored (lamp : Lamp) :
    (updateIfOn lamp).ShowsStored := by
  unfold updateIfOn
  split
  · exact update_showsStored lamp
  · intro hon
    contradiction

theorem perform_showsStored (call : LampCall) (lamp : Lamp) :
    (call.perform lamp).ShowsStored := by
  cases call with
  | setOn value => exact update_showsStored _
  | setOff => exact update_showsStored _
  | setHue value => exact updateIfOn_showsStored _
  | setSaturation value => exact updateIfOn_showsStored _
  | setBrightness value => exact updateIfOn_showsStored _

theorem showsStored_of_reachable {lamp : Lamp}
    (hlamp : lampMachine.Reachable lamp) : lamp.ShowsStored := by
  refine hlamp.invariant (I := Lamp.ShowsStored) (update_showsStored _) ?_
  intro before call after _ hnext
  cases hnext
  exact perform_showsStored call before

/-! ## What a later call can see -/

theorem uint16_ofInt_toNat_self (x : UInt16) : UInt16.ofInt x.toNat = x := by
  have hvalue := uint16_ofInt_toNat_of_lt (Int.natCast_nonneg x.toNat)
    (by exact_mod_cast x.toNat_lt)
  exact UInt16.toNat_inj.mp (by exact_mod_cast hvalue)

theorem stored_zero : UInt16.ofInt (truncate 0) = 0 := by
  decide

theorem stored_hundred : UInt16.ofInt (truncate 100) = 100 := by
  decide

/-- The colour that `lightbulb_set_on(true)` goes to. -/
def Lamp.lit (lamp : Lamp) : Hsp :=
  { lamp.hsbVal with b := lamp.brightness }

theorem setOn_duties (lamp : Lamp) :
    ((LampCall.setOn true).perform lamp).duties =
      lamp.lit.duties.toList ++ lamp.duties := by
  rw [LampCall.perform, lightbulbSetOn, update_eq]
  rfl

theorem NoEffect.lit {lamp : Lamp} {call : LampCall} (h : NoEffect lamp call)
    (calls : List LampCall) :
    (performAll calls lamp).lit.duties =
      (performAll calls (call.perform lamp)).lit.duties := by
  obtain ⟨first, hlamp, hother⟩ := h.later calls
  obtain ⟨all, hlamp', hother'⟩ := h.later (calls ++ [.setOn true])
  have hlast : ∀ lamp, performAll (calls ++ [.setOn true]) lamp =
      (LampCall.setOn true).perform (performAll calls lamp) := by
    intro lamp
    exact List.foldl_append
  rw [hlast, setOn_duties, hlamp, ← List.append_assoc] at hlamp'
  rw [hlast, setOn_duties, hother, ← List.append_assoc] at hother'
  have heq := (List.append_cancel_right hlamp').trans
    (List.append_cancel_right hother').symm
  simpa using congrArg List.head? (List.append_cancel_right heq)

theorem NoEffect.setHue {lamp : Lamp} {value : ℚ}
    (h : NoEffect lamp (.setHue value)) :
    SameOrOver 360 lamp.hsbVal.h (UInt16.ofInt (truncate value)) := by
  apply hue_sameOrOver
  intro s v _ _
  have hlit := h.lit [.setSaturation s.toNat, .setBrightness v.toNat]
  simpa [performAll, Lamp.lit, LampCall.perform, lightbulbSetHue,
    lightbulbSetSaturation, lightbulbSetBrightness, uint16_ofInt_toNat_self]
    using hlit

theorem NoEffect.setSaturation {lamp : Lamp} {value : ℚ}
    (h : NoEffect lamp (.setSaturation value)) :
    SameOrOver 100 lamp.hsbVal.s (UInt16.ofInt (truncate value)) := by
  apply saturation_sameOrOver
  have hlit := h.lit [.setHue 0, .setBrightness 100]
  simpa [performAll, Lamp.lit, LampCall.perform, lightbulbSetHue,
    lightbulbSetSaturation, lightbulbSetBrightness, stored_zero,
    show UInt16.ofInt 100 = 100 from rfl] using hlit

/-- `lightbulb_set_on(false)` brings the stored brightness to light. -/
theorem NoEffect.setBrightness {lamp : Lamp} {value : Int}
    (h : NoEffect lamp (.setBrightness value)) :
    SameOrOver 100 lamp.hsbVal.b (UInt16.ofInt value) ∧
      SameOrOver 100 lamp.brightness (UInt16.ofInt value) := by
  constructor
  · apply brightness_sameOrOver
    have hlit := h.lit [.setOn false, .setHue 0, .setSaturation 100]
    simpa [performAll, Lamp.lit, LampCall.perform, lightbulbSetHue,
      lightbulbSetSaturation, lightbulbSetBrightness, lightbulbSetOn,
      stored_zero, stored_hundred] using hlit
  · apply brightness_sameOrOver
    have hlit := h.lit [.setHue 0, .setSaturation 100]
    simpa [performAll, Lamp.lit, LampCall.perform, lightbulbSetHue,
      lightbulbSetSaturation, lightbulbSetBrightness, stored_zero,
      stored_hundred] using hlit

theorem NoEffect.unnoticed {lamp : Lamp} {call : LampCall}
    (h : NoEffect lamp call) : call.Unnoticed lamp := by
  cases call with
  | setOn value => trivial
  | setOff => trivial
  | setHue value => exact h.setHue
  | setSaturation value => exact h.setSaturation
  | setBrightness value => exact h.setBrightness

/-! ## What a call that stores the same leaves -/

theorem updateIfOn_head {lamp changed : Lamp} (hshows : lamp.ShowsStored)
    (hduties : changed.duties = lamp.duties) (halike : lamp.Alike changed) :
    (updateIfOn changed).duties.head? = lamp.duties.head? := by
  rw [updateIfOn]
  split
  case isFalse => rw [hduties]
  case isTrue hon =>
    rw [update_eq, ← halike.duties, hduties]
    cases hd : lamp.hsbVal.duties with
    | none => rfl
    | some d => exact (hshows (halike.on.trans hon) d hd).symm

theorem noEffect_of_alike {lamp : Lamp} {call : LampCall}
    (hshows : lamp.ShowsStored) (changed : Lamp)
    (hcall : call.perform lamp = updateIfOn changed)
    (hduties : changed.duties = lamp.duties) (halike : lamp.Alike changed) :
    NoEffect lamp call := by
  have hafter : lamp.Alike (updateIfOn changed) := by
    constructor
    all_goals
      simp only [updateIfOn_hsbVal, updateIfOn_brightness, updateIfOn_on]
    exacts [halike.hue, halike.saturation, halike.brightness,
      halike.remembered, halike.on]
  constructor
  case now =>
    rw [hcall]
    exact updateIfOn_head hshows hduties halike
  case later =>
    intro calls
    obtain ⟨written, hlamp, hother, -⟩ := performAll_alike calls hafter
    rw [hcall]
    exact ⟨written, hlamp, hother⟩

theorem noEffect_of_unnoticed {lamp : Lamp} {call : LampCall}
    (hshows : lamp.ShowsStored) (hcall : call.OutOfRange)
    (h : call.Unnoticed lamp) : NoEffect lamp call := by
  cases call with
  | setOn value => exact hcall.elim
  | setOff => exact hcall.elim
  | setHue value =>
      exact noEffect_of_alike hshows _ rfl rfl
        ⟨h, .inl rfl, .inl rfl, .inl rfl, rfl⟩
  | setSaturation value =>
      exact noEffect_of_alike hshows _ rfl rfl
        ⟨.inl rfl, h, .inl rfl, .inl rfl, rfl⟩
  | setBrightness value =>
      exact noEffect_of_alike hshows _ rfl rfl
        ⟨.inl rfl, .inl rfl, h.1, h.2, rfl⟩

/--
A setting out of range has no effect exactly where what it stores cannot be
told from what was stored.
-/
theorem noEffect_iff {lamp : Lamp} (hlamp : lampMachine.Reachable lamp)
    {call : LampCall} (hcall : call.OutOfRange) :
    NoEffect lamp call ↔ call.Unnoticed lamp :=
  ⟨NoEffect.unnoticed,
    noEffect_of_unnoticed (showsStored_of_reachable hlamp) hcall⟩

theorem lampAfter_reachable (calls : List LampCall) :
    lampMachine.Reachable (lampAfter calls) :=
  ⟨calls, Machine.runFrom_ofTotal _ _ _ _⟩

theorem secondBadHue_noEffect :
    lampMachine.Reachable (lampAfter [.setHue 361]) ∧
      (LampCall.setHue 400).OutOfRange ∧
      NoEffect (lampAfter [.setHue 361]) (.setHue 400) := by
  have hcall : (LampCall.setHue 400).OutOfRange := ⟨400, rfl, by decide⟩
  have hreachable := lampAfter_reachable [.setHue 361]
  refine ⟨hreachable, hcall, (noEffect_iff hreachable hcall).mpr (.inr ?_)⟩
  decide +kernel

/-- After a hue of 400 the lamp cannot be switched on again. -/
theorem noEffect_fails :
    ¬ ∀ lamp call, lampMachine.Reachable lamp → call.OutOfRange →
      NoEffect lamp call := by
  intro h
  have hlit := (h (lampAfter [.setSaturation 100, .setBrightness 20, .setOn true])
    (.setHue 400) (lampAfter_reachable _) ⟨400, rfl, by decide⟩).lit []
  revert hlit
  decide +kernel

end EspIotivity.Lightbulb
