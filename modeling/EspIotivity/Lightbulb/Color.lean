import EspIotivity.Foundation.Narrowing

/-!
# From hue, saturation and brightness to the three colour channels

`lightbulb_set_hsb2rgb` of `lightbulb.c`.  Operands are `uint16_t` and every
product and quotient is computed in `int`, so the locals `hi`, `F`, `P`, `Q`
and `T` are narrowed when they are stored, and the channels once more.
-/

namespace EspIotivity.Lightbulb

open EspIotivity.Foundation

/-- `rgb_t`: per channel, 0 to 100 percent. -/
structure Rgb where
  r : UInt8
  g : UInt8
  b : UInt8
  deriving DecidableEq, Repr

def hsbHi (h : UInt16) : UInt16 :=
  UInt16.ofInt (((h.toNat : Int).tdiv 60).tmod 6)

def hsbF (h hi : UInt16) : UInt16 :=
  UInt16.ofInt ((100 * (h.toNat : Int)).tdiv 60 - 100 * hi.toNat)

def hsbP (v s : UInt16) : UInt16 :=
  UInt16.ofInt (((v.toNat : Int) * (100 - s.toNat)).tdiv 100)

def hsbQ (v F s : UInt16) : UInt16 :=
  UInt16.ofInt (((v.toNat : Int) * (10000 - F.toNat * s.toNat)).tdiv 10000)

def hsbT (v s F : UInt16) : UInt16 :=
  UInt16.ofInt
    (((v.toNat : Int) * (10000 - s.toNat * (100 - F.toNat))).tdiv 10000)

/-- The `switch (hi)`; `none` is its default, which returns false. -/
def hsbSwitch (hi v P Q T : UInt16) : Option Rgb :=
  match hi.toNat with
  | 0 => some ⟨v.toUInt8, T.toUInt8, P.toUInt8⟩
  | 1 => some ⟨Q.toUInt8, v.toUInt8, P.toUInt8⟩
  | 2 => some ⟨P.toUInt8, v.toUInt8, T.toUInt8⟩
  | 3 => some ⟨P.toUInt8, Q.toUInt8, v.toUInt8⟩
  | 4 => some ⟨T.toUInt8, P.toUInt8, v.toUInt8⟩
  | 5 => some ⟨v.toUInt8, P.toUInt8, Q.toUInt8⟩
  | _ => none

/--
The result and what `*rgb` holds afterwards.  `none` stands for a null `rgb`.
-/
def lightbulbSetHsb2rgb (h s v : UInt16) (rgb : Option Rgb) :
    Bool × Option Rgb :=
  match rgb with
  | none => (false, none)
  | some old =>
      if h > 360 then (false, some old)
      else if s > 100 then (false, some old)
      else if v > 100 then (false, some old)
      else
        let hi := hsbHi h
        let F := hsbF h hi
        let P := hsbP v s
        let Q := hsbQ v F s
        let T := hsbT v s F
        match hsbSwitch hi v P Q T with
        | some new => (true, some new)
        | none => (false, some old)

/-! ## The accepted range -/

structure Accepted (h s v : UInt16) : Prop where
  hue : h.toNat ≤ 360
  saturation : s.toNat ≤ 100
  brightness : v.toNat ≤ 100

instance (h s v : UInt16) : Decidable (Accepted h s v) :=
  decidable_of_iff (h.toNat ≤ 360 ∧ s.toNat ≤ 100 ∧ v.toNat ≤ 100)
    ⟨fun ⟨hh, hs, hv⟩ => ⟨hh, hs, hv⟩,
      fun ⟨hh, hs, hv⟩ => ⟨hh, hs, hv⟩⟩

theorem hsbHi_lt (h : UInt16) : (hsbHi h).toNat < 6 := by
  have hnonneg : 0 ≤ (h.toNat : Int).tdiv 60 :=
    Int.tdiv_nonneg (Int.natCast_nonneg _) (by decide)
  have hlo := Int.tmod_nonneg 6 hnonneg
  have hhi := Int.tmod_lt_of_pos ((h.toNat : Int).tdiv 60)
    (show (0 : Int) < 6 by decide)
  have hvalue := uint16_ofInt_toNat_of_lt hlo (hhi.trans (by decide))
  rw [hsbHi]
  omega

theorem hsbSwitch_isSome {hi : UInt16} (hhi : hi.toNat < 6)
    (v P Q T : UInt16) : ∃ rgb, hsbSwitch hi v P Q T = some rgb := by
  unfold hsbSwitch
  generalize hi.toNat = sector at hhi
  interval_cases sector <;> exact ⟨_, rfl⟩

theorem hsb2rgb_rejects {h s v : UInt16} (hbad : ¬ Accepted h s v)
    (old : Rgb) : lightbulbSetHsb2rgb h s v (some old) = (false, some old) := by
  unfold lightbulbSetHsb2rgb
  by_cases hh : h > 360
  · simp [hh]
  by_cases hs : s > 100
  · simp [hh, hs]
  by_cases hv : v > 100
  · simp [hh, hs, hv]
  refine absurd ⟨?_, ?_, ?_⟩ hbad
  · simpa [UInt16.lt_iff_toNat_lt] using hh
  · simpa [UInt16.lt_iff_toNat_lt] using hs
  · simpa [UInt16.lt_iff_toNat_lt] using hv

theorem hsb2rgb_accepts {h s v : UInt16} (hok : Accepted h s v) (old : Rgb) :
    ∃ rgb,
      hsbSwitch (hsbHi h) v (hsbP v s) (hsbQ v (hsbF h (hsbHi h)) s)
        (hsbT v s (hsbF h (hsbHi h))) = some rgb ∧
      lightbulbSetHsb2rgb h s v (some old) = (true, some rgb) := by
  obtain ⟨rgb, hrgb⟩ := hsbSwitch_isSome (hsbHi_lt h) v (hsbP v s)
    (hsbQ v (hsbF h (hsbHi h)) s) (hsbT v s (hsbF h (hsbHi h)))
  have hh : ¬ h > 360 := by
    simpa [UInt16.lt_iff_toNat_lt] using hok.hue
  have hs : ¬ s > 100 := by
    simpa [UInt16.lt_iff_toNat_lt] using hok.saturation
  have hv : ¬ v > 100 := by
    simpa [UInt16.lt_iff_toNat_lt] using hok.brightness
  exact ⟨rgb, hrgb, by simp [lightbulbSetHsb2rgb, hh, hs, hv, hrgb]⟩

/-! ## Zero brightness is black -/

@[simp] theorem hsbP_zero (s : UInt16) : hsbP 0 s = 0 := by
  simp [hsbP, UInt16.ofInt]

@[simp] theorem hsbQ_zero (F s : UInt16) : hsbQ 0 F s = 0 := by
  simp [hsbQ, UInt16.ofInt]

@[simp] theorem hsbT_zero (s F : UInt16) : hsbT 0 s F = 0 := by
  simp [hsbT, UInt16.ofInt]

theorem hsbSwitch_zero {hi : UInt16} (hhi : hi.toNat < 6) :
    hsbSwitch hi 0 0 0 0 = some ⟨0, 0, 0⟩ := by
  unfold hsbSwitch
  generalize hi.toNat = sector at hhi
  interval_cases sector <;> rfl

/-- Every sector, the one past the wrap at hue 360 included, gives black. -/
theorem hsb2rgb_black {h s : UInt16} (hok : Accepted h s 0) (old : Rgb) :
    lightbulbSetHsb2rgb h s 0 (some old) = (true, some ⟨0, 0, 0⟩) := by
  obtain ⟨rgb, hswitch, hconv⟩ := hsb2rgb_accepts hok old
  rw [hsbP_zero, hsbQ_zero, hsbT_zero, hsbSwitch_zero (hsbHi_lt h)] at hswitch
  cases hswitch
  exact hconv

/-! ## Below hue 360 no channel exceeds the brightness -/

theorem hsbHi_toNat {h : UInt16} (hh : h.toNat < 360) :
    (hsbHi h).toNat = h.toNat / 60 := by
  have hdiv : (h.toNat : Int).tdiv 60 = h.toNat / 60 :=
    Int.tdiv_eq_ediv_of_nonneg (Int.natCast_nonneg _)
  have hmod : ((h.toNat : Int) / 60).tmod 6 = (h.toNat : Int) / 60 :=
    Int.tmod_eq_of_lt (by omega) (by omega)
  have hvalue := uint16_ofInt_toNat_of_lt
    (x := (h.toNat : Int) / 60) (by omega) (by omega)
  rw [hsbHi, hdiv, hmod]
  omega

theorem hsbF_toNat {h : UInt16} (hh : h.toNat < 360) :
    (hsbF h (hsbHi h)).toNat = 100 * h.toNat / 60 - 100 * (h.toNat / 60) ∧
      (hsbF h (hsbHi h)).toNat < 100 := by
  have hdiv : (100 * (h.toNat : Int)).tdiv 60 = 100 * h.toNat / 60 :=
    Int.tdiv_eq_ediv_of_nonneg (by omega)
  have hvalue := uint16_ofInt_toNat_of_lt
    (x := 100 * (h.toNat : Int) / 60 - 100 * ((h.toNat / 60 : Nat) : Int))
    (by omega) (by omega)
  rw [hsbF, hsbHi_toNat hh, hdiv]
  omega

theorem hsbP_le {s v : UInt16} (hs : s.toNat ≤ 100) :
    (hsbP v s).toNat ≤ v.toNat := by
  obtain ⟨hlo, hhi⟩ := mul_tdiv_le (v := v.toNat) (x := 100 - s.toNat)
    (d := 100) (by omega) (by omega) (by omega) (by decide)
  have hvalue := uint16_ofInt_toNat_of_lt hlo
    (hhi.trans_lt (by exact_mod_cast v.toNat_lt))
  rw [hsbP]
  omega

theorem hsbQ_le {F s v : UInt16} (hs : s.toNat ≤ 100) (hF : F.toNat ≤ 100) :
    (hsbQ v F s).toNat ≤ v.toNat := by
  have hnonneg : (0 : Int) ≤ F.toNat * s.toNat :=
    Int.mul_nonneg (by omega) (by omega)
  have hprod : (F.toNat : Int) * s.toNat ≤ 100 * 100 :=
    Int.mul_le_mul (by omega) (by omega) (by omega) (by omega)
  obtain ⟨hlo, hhi⟩ := mul_tdiv_le (v := v.toNat)
    (x := 10000 - F.toNat * s.toNat) (d := 10000) (by omega)
    (by omega) (by omega) (by decide)
  have hvalue := uint16_ofInt_toNat_of_lt hlo
    (hhi.trans_lt (by exact_mod_cast v.toNat_lt))
  rw [hsbQ]
  omega

theorem hsbT_le {F s v : UInt16} (hs : s.toNat ≤ 100) (hF : F.toNat ≤ 100) :
    (hsbT v s F).toNat ≤ v.toNat := by
  have hnonneg : (0 : Int) ≤ s.toNat * (100 - F.toNat) :=
    Int.mul_nonneg (by omega) (by omega)
  have hprod : (s.toNat : Int) * (100 - F.toNat) ≤ 100 * 100 :=
    Int.mul_le_mul (by omega) (by omega) (by omega) (by omega)
  obtain ⟨hlo, hhi⟩ := mul_tdiv_le (v := v.toNat)
    (x := 10000 - s.toNat * (100 - F.toNat)) (d := 10000) (by omega)
    (by omega) (by omega) (by decide)
  have hvalue := uint16_ofInt_toNat_of_lt hlo
    (hhi.trans_lt (by exact_mod_cast v.toNat_lt))
  rw [hsbT]
  omega

def Rgb.AtMost (rgb : Rgb) (limit : Nat) : Prop :=
  rgb.r.toNat ≤ limit ∧ rgb.g.toNat ≤ limit ∧ rgb.b.toNat ≤ limit

theorem hsbSwitch_atMost {hi v P Q T : UInt16} {rgb : Rgb} {limit : Nat}
    (hv : v.toNat ≤ limit) (hP : P.toNat ≤ limit) (hQ : Q.toNat ≤ limit)
    (hT : T.toNat ≤ limit) (hrgb : hsbSwitch hi v P Q T = some rgb) :
    rgb.AtMost limit := by
  have hnarrow : ∀ x : UInt16, x.toNat ≤ limit → x.toUInt8.toNat ≤ limit := by
    intro x hx
    rw [UInt16.toNat_toUInt8]
    exact (Nat.mod_le _ _).trans hx
  unfold hsbSwitch at hrgb
  split at hrgb <;> cases hrgb <;>
    exact ⟨hnarrow _ ‹_›, hnarrow _ ‹_›, hnarrow _ ‹_›⟩

theorem hsb2rgb_atMost {h s v : UInt16} (hok : Accepted h s v)
    (hh : h.toNat < 360) (old : Rgb) :
    ∃ rgb, lightbulbSetHsb2rgb h s v (some old) = (true, some rgb) ∧
      rgb.AtMost v.toNat := by
  obtain ⟨rgb, hswitch, hconv⟩ := hsb2rgb_accepts hok old
  have hF := (hsbF_toNat hh).2.le
  exact ⟨rgb, hconv, hsbSwitch_atMost le_rfl (hsbP_le hok.saturation)
    (hsbQ_le hok.saturation hF) (hsbT_le hok.saturation hF) hswitch⟩

end EspIotivity.Lightbulb
