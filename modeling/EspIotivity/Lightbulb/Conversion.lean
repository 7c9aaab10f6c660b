import EspIotivity.Lightbulb.Color
import Mathlib.Data.Rat.Floor
import Mathlib.Algebra.Order.Field.Basic

/-!
# The colour that hue, saturation and brightness stand for

Below hue 360 each channel is `v` lowered by a whole percentage of what the
saturation takes away, and that percentage is within one of the exact one.  At
hue 360 the sector wraps to 0 while `F` does not, and is 600.
-/

namespace EspIotivity.Lightbulb

open EspIotivity.Foundation

/-! ## The exact colour -/

inductive Channel where
  | red
  | green
  | blue
  deriving DecidableEq, Repr

def Rgb.get (rgb : Rgb) : Channel → UInt8
  | .red => rgb.r
  | .green => rgb.g
  | .blue => rgb.b

/-- The hue, from the end, at which the channel starts to fade. -/
def Channel.offset : Channel → Nat
  | .red => 300
  | .green => 180
  | .blue => 60

/-- The part of the saturation that the channel loses, from 0 to 1. -/
def Channel.shade (c : Channel) (h : Nat) : ℚ :=
  let k : ℚ := ((h + c.offset) % 360 : Nat) / 60
  max 0 (min (min k (4 - k)) 1)

/-- The channel in percent, for a hue in degrees and `s` and `v` in percent. -/
def Channel.exact (c : Channel) (h s v : Nat) : ℚ :=
  v - v * (s / 100) * c.shade h

structure IsColour (h s v : Nat) (rgb : Rgb) : Prop where
  largest : max (max rgb.r.toNat rgb.g.toNat) rgb.b.toNat = v
  smallest : min (min rgb.r.toNat rgb.g.toNat) rgb.b.toNat =
    v * (100 - s) / 100
  percent : rgb.AtMost 100
  close : ∀ c : Channel, |((rgb.get c).toNat : ℚ) - c.exact h s v| < 2

/-- `lightbulb_set_hsb2rgb` does at `h`, `s` and `v` what it is to do. -/
structure ConvertsHsb (h s v : UInt16) : Prop where
  rejects : ¬ Accepted h s v → ∀ old,
    lightbulbSetHsb2rgb h s v (some old) = (false, some old)
  converts : Accepted h s v → ∀ old, ∃ rgb,
    lightbulbSetHsb2rgb h s v (some old) = (true, some rgb) ∧
      IsColour h.toNat s.toNat v.toNat rgb
  wraps : h = 360 → ∀ old, lightbulbSetHsb2rgb h s v (some old) =
    lightbulbSetHsb2rgb 0 s v (some old)

/-! ## Levels -/

/-- The brightness less `depth` percent of what the saturation takes away. -/
def level (v s depth : Nat) : Nat := v * (10000 - s * depth) / 10000

theorem level_zero (v s : Nat) : level v s 0 = v := by
  simp [level]

theorem level_hundred (v s : Nat) :
    level v s 100 = v * (100 - s) / 100 := by
  have hfactor : v * (10000 - s * 100) = v * (100 - s) * 100 := by
    rw [mul_assoc, Nat.sub_mul]
  rw [level, hfactor, show 10000 = 100 * 100 from rfl,
    Nat.mul_div_mul_right _ _ (by decide)]

theorem level_antitone (v s : Nat) {shallow deep : Nat} (h : shallow ≤ deep) :
    level v s deep ≤ level v s shallow := by
  apply Nat.div_le_div_right
  apply Nat.mul_le_mul_left
  exact Nat.sub_le_sub_left (Nat.mul_le_mul_left s h) 10000

theorem level_le (v s depth : Nat) : level v s depth ≤ v := by
  simpa [level_zero] using level_antitone v s (Nat.zero_le depth)

theorem level_floor {s depth : Nat} (v : Nat) (h : s * depth ≤ 10000) :
    (level v s depth : ℚ) ≤ v - v * s * depth / 10000 ∧
      (v : ℚ) - v * s * depth / 10000 < level v s depth + 1 := by
  have hcast : ((v * (10000 - s * depth) : Nat) : ℚ) =
      v * (10000 - s * depth) := by
    push_cast [h]
    ring
  have hlow : (level v s depth : ℚ) * 10000 ≤ v * (10000 - s * depth) := by
    rw [← hcast]
    exact_mod_cast Nat.div_mul_le_self (v * (10000 - s * depth)) 10000
  have hhigh : (v : ℚ) * (10000 - s * depth) <
      level v s depth * 10000 + 10000 := by
    rw [← hcast]
    exact_mod_cast Nat.lt_div_mul_add
      (a := v * (10000 - s * depth)) (b := 10000) (by decide)
  constructor
  · linarith
  · linarith

/-- A depth within one percent of the exact one costs one more percent. -/
theorem level_close {v s depth : Nat} {exactDepth : Int} (hv : v ≤ 100)
    (hs : s ≤ 100) (hdepth : depth ≤ 100)
    (hexact : |60 * (depth : Int) - 100 * exactDepth| < 60) :
    |(level v s depth : ℚ) - (v - v * (s / 100) * (exactDepth / 60))| < 2 := by
  obtain ⟨hlow, hhigh⟩ := level_floor v (Nat.mul_le_mul hs hdepth)
  have hloss : (v * s : ℚ) ≤ 10000 := by exact_mod_cast Nat.mul_le_mul hv hs
  have hloss0 : (0 : ℚ) ≤ v * s := by positivity
  have hexactRat : |60 * (depth : ℚ) - 100 * exactDepth| < 60 := by
    exact_mod_cast hexact
  have hdiff : |(v * s : ℚ) * (60 * depth - 100 * exactDepth)| < 600000 := by
    rw [abs_mul, abs_of_nonneg hloss0]
    calc (v * s : ℚ) * |60 * (depth : ℚ) - 100 * exactDepth|
        ≤ 10000 * |60 * (depth : ℚ) - 100 * exactDepth| :=
          mul_le_mul_of_nonneg_right hloss (abs_nonneg _)
      _ < 600000 := by linarith only [hexactRat]
  have hsplit : (level v s depth : ℚ) -
      (v - v * (s / 100) * (exactDepth / 60)) =
        (level v s depth - (v - v * s * depth / 10000)) -
          v * s * (60 * depth - 100 * exactDepth) / 600000 := by
    ring
  rw [hsplit]
  rw [abs_lt] at hdiff ⊢
  constructor
  · linarith only [hhigh, hdiff.2]
  · linarith only [hlow, hdiff.1]

/-! ## The depth of each channel -/

/-- The percentage by which the code lowers the channel. -/
def Channel.depth (c : Channel) (h : Nat) : Nat :=
  let F := 100 * h / 60 - 100 * (h / 60)
  match h / 60, c with
  | 0, .red | 1, .green | 2, .green | 3, .blue | 4, .blue | 5, .red => 0
  | 0, .green | 2, .blue | 4, .red => 100 - F
  | 1, .red | 3, .green | 5, .blue => F
  | _, _ => 100

def Channel.exactDepth (c : Channel) (h : Nat) : Int :=
  let k : Int := ((h + c.offset) % 360 : Nat)
  max 0 (min (min k (240 - k)) 60)

theorem shade_eq (c : Channel) (h : Nat) : c.shade h = c.exactDepth h / 60 := by
  rw [Channel.shade, Channel.exactDepth]
  generalize (h + c.offset) % 360 = k
  have hfour : (4 : ℚ) - k / 60 = (240 - k) / 60 := by ring
  push_cast
  rw [hfour, min_div_div_right (by norm_num),
    ← div_self (show (60 : ℚ) ≠ 0 by norm_num),
    min_div_div_right (by norm_num), ← zero_div (60 : ℚ),
    max_div_div_right (by norm_num)]
  norm_num

theorem add_offset_mod {h : Nat} (hh : h < 360) (c : Channel) :
    h + c.offset = (h + c.offset) % 360 ∨
      h + c.offset = (h + c.offset) % 360 + 360 := by
  have hoffset : c.offset ≤ 300 := by cases c <;> decide
  omega

theorem depth_close {h : Nat} (hh : h < 360) (c : Channel) :
    |60 * (c.depth h : Int) - 100 * c.exactDepth h| < 60 := by
  have hsector : h / 60 < 6 := by omega
  have hoffset := add_offset_mod hh c
  have hk := Nat.mod_lt (h + c.offset) (show 0 < 360 by decide)
  unfold Channel.depth Channel.exactDepth
  generalize hi : h / 60 = sector at hsector
  generalize (h + c.offset) % 360 = k at hoffset hk
  rw [abs_lt]
  cases c <;> interval_cases sector
  all_goals
    simp only [Channel.offset] at hoffset
    simp only [max_def, min_def]
    split_ifs <;> omega

theorem depth_le (h : Nat) (c : Channel) : c.depth h ≤ 100 := by
  unfold Channel.depth
  dsimp only
  split
  all_goals omega

/-! ## Below hue 360 -/

theorem tdiv_level {v s depth : Nat} (h : s * depth ≤ 10000) :
    ((v : Int) * (10000 - s * depth)).tdiv 10000 = level v s depth := by
  have hcast : ((10000 - s * depth : Nat) : Int) = 10000 - s * depth := by
    push_cast [h]
    rfl
  rw [← hcast, ← Nat.cast_mul, level]
  exact Int.ofNat_tdiv _ _

theorem ofInt_level {v : UInt16} (s depth : Nat) :
    (UInt16.ofInt (level v.toNat s depth)).toNat = level v.toNat s depth := by
  have hlt : (level v.toNat s depth : Int) < 65536 := by
    exact_mod_cast (level_le v.toNat s depth).trans_lt v.toNat_lt
  exact_mod_cast uint16_ofInt_toNat_of_lt (Int.natCast_nonneg _) hlt

theorem hsbP_toNat {s : UInt16} (v : UInt16) (hs : s.toNat ≤ 100) :
    (hsbP v s).toNat = level v.toNat s.toNat 100 := by
  have hcast : ((100 - s.toNat : Nat) : Int) = 100 - s.toNat := by
    push_cast [hs]
    rfl
  have hdiv : ((v.toNat : Int) * (100 - s.toNat)).tdiv 100 =
      level v.toNat s.toNat 100 := by
    rw [← hcast, ← Nat.cast_mul, level_hundred]
    exact Int.ofNat_tdiv _ _
  rw [hsbP, hdiv, ofInt_level]

theorem hsbQ_toNat {s F : UInt16} (v : UInt16) (hs : s.toNat ≤ 100)
    (hF : F.toNat ≤ 100) :
    (hsbQ v F s).toNat = level v.toNat s.toNat F.toNat := by
  rw [hsbQ, mul_comm (F.toNat : Int), tdiv_level (Nat.mul_le_mul hs hF),
    ofInt_level]

theorem hsbT_toNat {s F : UInt16} (v : UInt16) (hs : s.toNat ≤ 100)
    (hF : F.toNat ≤ 100) :
    (hsbT v s F).toNat = level v.toNat s.toNat (100 - F.toNat) := by
  have hcast : (100 - F.toNat : Int) = ((100 - F.toNat : Nat) : Int) := by
    push_cast [hF]
    rfl
  rw [hsbT, hcast, tdiv_level (Nat.mul_le_mul hs (Nat.sub_le 100 _)),
    ofInt_level]

theorem toUInt8_level {x v : UInt16} {s depth : Nat} (hv : v.toNat ≤ 100)
    (hx : x.toNat = level v.toNat s depth) :
    x.toUInt8.toNat = level v.toNat s depth := by
  have hle := level_le v.toNat s depth
  rw [UInt16.toNat_toUInt8, hx]
  omega

theorem hsb2rgb_levels {h s v : UInt16} (hok : Accepted h s v)
    (hh : h.toNat < 360) (old : Rgb) :
    ∃ rgb, lightbulbSetHsb2rgb h s v (some old) = (true, some rgb) ∧
      ∀ c, (rgb.get c).toNat = level v.toNat s.toNat (c.depth h.toNat) := by
  obtain ⟨rgb, hswitch, hconv⟩ := hsb2rgb_accepts hok old
  refine ⟨rgb, hconv, ?_⟩
  obtain ⟨hF, hF100⟩ := hsbF_toNat hh
  have hv := toUInt8_level (s := s.toNat) hok.brightness (level_zero _ _).symm
  have hP := toUInt8_level hok.brightness (hsbP_toNat v hok.saturation)
  have hQ := toUInt8_level hok.brightness
    (hsbQ_toNat v hok.saturation hF100.le)
  have hT := toUInt8_level hok.brightness
    (hsbT_toNat v hok.saturation hF100.le)
  rw [hF] at hQ hT
  have hsector : h.toNat / 60 < 6 := by omega
  unfold hsbSwitch at hswitch
  rw [hsbHi_toNat hh] at hswitch
  unfold Channel.depth
  generalize h.toNat / 60 = sector at hswitch hsector hQ hT ⊢
  intro c
  interval_cases sector <;> cases hswitch <;> cases c
  all_goals first | exact hv | exact hP | exact hQ | exact hT

theorem exists_depth {h : Nat} (hh : h < 360) :
    (∃ c : Channel, c.depth h = 0) ∧ ∃ c : Channel, c.depth h = 100 := by
  have hsector : h / 60 < 6 := by omega
  unfold Channel.depth
  generalize h / 60 = sector at hsector
  interval_cases sector
  case «0» => exact ⟨⟨.red, rfl⟩, ⟨.blue, rfl⟩⟩
  case «1» => exact ⟨⟨.green, rfl⟩, ⟨.blue, rfl⟩⟩
  case «2» => exact ⟨⟨.green, rfl⟩, ⟨.red, rfl⟩⟩
  case «3» => exact ⟨⟨.blue, rfl⟩, ⟨.red, rfl⟩⟩
  case «4» => exact ⟨⟨.blue, rfl⟩, ⟨.green, rfl⟩⟩
  case «5» => exact ⟨⟨.red, rfl⟩, ⟨.green, rfl⟩⟩

theorem max_channels {rgb : Rgb} {x : Nat}
    (hle : ∀ c, (rgb.get c).toNat ≤ x) (hmem : ∃ c, (rgb.get c).toNat = x) :
    max (max rgb.r.toNat rgb.g.toNat) rgb.b.toNat = x := by
  have hr : rgb.r.toNat ≤ x := hle .red
  have hg : rgb.g.toNat ≤ x := hle .green
  have hb : rgb.b.toNat ≤ x := hle .blue
  obtain ⟨c, hc⟩ := hmem
  cases c <;> simp only [Rgb.get] at hc <;> omega

theorem min_channels {rgb : Rgb} {x : Nat}
    (hle : ∀ c, x ≤ (rgb.get c).toNat) (hmem : ∃ c, (rgb.get c).toNat = x) :
    min (min rgb.r.toNat rgb.g.toNat) rgb.b.toNat = x := by
  have hr : x ≤ rgb.r.toNat := hle .red
  have hg : x ≤ rgb.g.toNat := hle .green
  have hb : x ≤ rgb.b.toNat := hle .blue
  obtain ⟨c, hc⟩ := hmem
  cases c <;> simp only [Rgb.get] at hc <;> omega

theorem isColour_of_levels {h s v : Nat} {rgb : Rgb} (hh : h < 360)
    (hs : s ≤ 100) (hv : v ≤ 100)
    (hlevel : ∀ c, (rgb.get c).toNat = level v s (c.depth h)) :
    IsColour h s v rgb := by
  obtain ⟨⟨full, hfull⟩, least, hleast⟩ := exists_depth hh
  have hle : ∀ c, (rgb.get c).toNat ≤ v := by
    intro c
    rw [hlevel]
    exact level_le v s _
  constructor
  case largest =>
    refine max_channels hle ⟨full, ?_⟩
    rw [hlevel, hfull, level_zero]
  case smallest =>
    rw [← level_hundred]
    refine min_channels (fun c => ?_) ⟨least, ?_⟩
    · rw [hlevel]
      exact level_antitone v s (depth_le h c)
    · rw [hlevel, hleast]
  case percent =>
    exact ⟨(hle .red).trans hv, (hle .green).trans hv, (hle .blue).trans hv⟩
  case close =>
    intro c
    rw [hlevel, Channel.exact, shade_eq]
    exact level_close hv hs (depth_le h c) (depth_close hh c)

/-! ## At hue 360 -/

/-- Those products of brightness and saturation at which hue 360 is right. -/
def Wraps (s v : UInt16) : Prop :=
  v.toNat * s.toNat = 0 ∨
    (4260 ≤ v.toNat * s.toNat ∧ v.toNat * s.toNat ≤ 4279) ∨
    (8520 ≤ v.toNat * s.toNat ∧ v.toNat * s.toNat ≤ 8539)

theorem hsbT_wrapped {s v : UInt16} (hs : s.toNat ≤ 100)
    (hv : v.toNat ≤ 100) :
    (hsbT v s 600).toNat = v.toNat + v.toNat * s.toNat / 20 := by
  have hproduct : v.toNat * s.toNat ≤ 10000 := Nat.mul_le_mul hv hs
  have hfactor : (v.toNat : Int) * (10000 - s.toNat * (100 - 600)) =
      ((v.toNat * 10000 + v.toNat * s.toNat * 500 : Nat) : Int) := by
    push_cast
    ring
  have hquotient : (v.toNat * 10000 + v.toNat * s.toNat * 500) / 10000 =
      v.toNat + v.toNat * s.toNat / 20 := by
    omega
  have hdiv : ((v.toNat * 10000 + v.toNat * s.toNat * 500 : Nat) : Int).tdiv
      10000 = (v.toNat + v.toNat * s.toNat / 20 : Nat) := by
    rw [← hquotient]
    exact Int.ofNat_tdiv _ _
  have hvalue := uint16_ofInt_toNat_of_lt
    (x := (v.toNat + v.toNat * s.toNat / 20 : Nat)) (by omega) (by omega)
  rw [hsbT, show ((600 : UInt16).toNat : Int) = 600 from rfl, hfactor, hdiv]
  exact_mod_cast hvalue

theorem hsb2rgb_zero {s v : UInt16} (hok : Accepted 0 s v) (old : Rgb) :
    lightbulbSetHsb2rgb 0 s v (some old) = (true, some
      ⟨v.toUInt8, (hsbT v s 0).toUInt8, (hsbP v s).toUInt8⟩) := by
  obtain ⟨rgb, hswitch, hconv⟩ := hsb2rgb_accepts hok old
  cases hswitch
  exact hconv

theorem hsb2rgb_wrapped {s v : UInt16} (hok : Accepted 360 s v) (old : Rgb) :
    lightbulbSetHsb2rgb 360 s v (some old) = (true, some
      ⟨v.toUInt8, (hsbT v s 600).toUInt8, (hsbP v s).toUInt8⟩) := by
  obtain ⟨rgb, hswitch, hconv⟩ := hsb2rgb_accepts hok old
  cases hswitch
  exact hconv

theorem wrapped_eq_iff {v x : Nat} (hv : v ≤ 100) (hx : x ≤ v * 100) :
    (v + x / 20) % 256 = (v * 100 - x) / 100 ↔
      x = 0 ∨ (4260 ≤ x ∧ x ≤ 4279) ∨ (8520 ≤ x ∧ x ≤ 8539) := by
  have hdiv := Nat.div_add_mod (v + x / 20) 256
  have hmod := Nat.mod_lt (v + x / 20) (show 0 < 256 by decide)
  have hturns : (v + x / 20) / 256 < 3 := by omega
  generalize (v + x / 20) % 256 = narrow at hdiv hmod ⊢
  generalize (v + x / 20) / 256 = turns at hdiv hturns
  interval_cases turns <;> omega

theorem hsb2rgb_wraps_iff {s v : UInt16} (hok : Accepted 360 s v) (old : Rgb) :
    lightbulbSetHsb2rgb 360 s v (some old) =
        lightbulbSetHsb2rgb 0 s v (some old) ↔ Wraps s v := by
  obtain ⟨hhue, hs, hv⟩ := hok
  have hless : v.toNat * s.toNat ≤ v.toNat * 100 := Nat.mul_le_mul_left _ hs
  have hzero : (hsbT v s 0).toUInt8.toNat =
      (v.toNat * 100 - v.toNat * s.toNat) / 100 := by
    rw [toUInt8_level hv (hsbT_toNat (F := 0) v hs (Nat.zero_le 100)),
      UInt16.toNat_zero, Nat.sub_zero, level_hundred, Nat.mul_sub]
  have hwrapped : (hsbT v s 600).toUInt8.toNat =
      (v.toNat + v.toNat * s.toNat / 20) % 256 := by
    rw [UInt16.toNat_toUInt8, hsbT_wrapped hs hv]
  rw [hsb2rgb_wrapped ⟨hhue, hs, hv⟩, hsb2rgb_zero ⟨by decide, hs, hv⟩]
  simp only [Prod.mk.injEq, Option.some.injEq, Rgb.mk.injEq, true_and,
    and_true, ← UInt8.toNat_inj, hzero, hwrapped]
  exact wrapped_eq_iff hv hless

theorem convertsHsb_below {h s v : UInt16} (hh : h ≠ 360) :
    ConvertsHsb h s v := by
  constructor
  case rejects =>
    intro hbad old
    exact hsb2rgb_rejects hbad old
  case wraps =>
    intro heq
    exact absurd heq hh
  case converts =>
    intro hok old
    have hlt : h.toNat < 360 := by
      refine lt_of_le_of_ne hok.hue fun heq => hh ?_
      exact UInt16.toNat_inj.mp heq
    obtain ⟨rgb, hconv, hlevel⟩ := hsb2rgb_levels hok hlt old
    exact ⟨rgb, hconv,
      isColour_of_levels hlt hok.saturation hok.brightness hlevel⟩

/-- Hues 0 and 360 stand for one exact colour. -/
theorem isColour_wrapped {s v : Nat} {rgb : Rgb} (h : IsColour 0 s v rgb) :
    IsColour 360 s v rgb := by
  refine ⟨h.largest, h.smallest, h.percent, fun c => ?_⟩
  have hexact : c.exact 360 s v = c.exact 0 s v := by
    rw [Channel.exact, Channel.exact, Channel.shade, Channel.shade,
      Nat.add_mod_left, Nat.zero_add]
  rw [hexact]
  exact h.close c

theorem convertsHsb_wrapped {s v : UInt16} (hok : Accepted 360 s v) :
    ConvertsHsb 360 s v ↔ Wraps s v := by
  constructor
  · intro h
    exact (hsb2rgb_wraps_iff hok ⟨0, 0, 0⟩).mp (h.wraps rfl ⟨0, 0, 0⟩)
  · intro hwraps
    have hsame := fun old => (hsb2rgb_wraps_iff hok old).mpr hwraps
    refine ⟨absurd hok, fun _ old => ?_, fun _ => hsame⟩
    have hzero : Accepted 0 s v := ⟨by decide, hok.saturation, hok.brightness⟩
    obtain ⟨rgb, hconv, hcolour⟩ :=
      (convertsHsb_below (h := 0) (by decide)).converts hzero old
    exact ⟨rgb, (hsame old).trans hconv, isColour_wrapped hcolour⟩

theorem convertsHsb_iff (h s v : UInt16) :
    ConvertsHsb h s v ↔ ¬ Accepted h s v ∨ h ≠ 360 ∨ Wraps s v := by
  by_cases hh : h = 360
  · subst hh
    by_cases hok : Accepted 360 s v
    · simp [hok, convertsHsb_wrapped hok]
    · have hzero : ¬ Accepted 0 s v := fun h =>
        hok ⟨by decide, h.saturation, h.brightness⟩
      refine iff_of_true ⟨fun h => hsb2rgb_rejects h, fun h => absurd h hok,
        fun _ old => ?_⟩ (.inl hok)
      rw [hsb2rgb_rejects hok, hsb2rgb_rejects hzero]
  · exact iff_of_true (convertsHsb_below hh) (.inr (.inl hh))

theorem hsb2rgb_fails : ¬ ∀ h s v, ConvertsHsb h s v := by
  intro h
  have hwraps := (h 360 100 100).wraps rfl ⟨0, 0, 0⟩
  exact absurd hwraps (by decide)

end EspIotivity.Lightbulb
