import EspIotivity.Lightbulb.InStep
import Mathlib.Tactic

/-!
# How the LEDs go from one colour to another

Below hue 360 a brighter or paler setting makes no channel darker, one degree of
hue moves one channel only, by two percent at most, and a third of the circle
carries each channel over to the next.  All this survives the roundings of the
conversion and of the duties, and holds whatever the lamp was told before.
-/

namespace EspIotivity.Lightbulb

open EspIotivity.Foundation

/-! ## Levels against each other -/

theorem level_brighter {v w : Nat} (s depth : Nat) (h : v ≤ w) :
    level v s depth ≤ level w s depth := by
  apply Nat.div_le_div_right
  exact Nat.mul_le_mul_right _ h

theorem level_paler (v depth : Nat) {pale strong : Nat} (h : pale ≤ strong) :
    level v strong depth ≤ level v pale depth := by
  apply Nat.div_le_div_right
  apply Nat.mul_le_mul_left
  exact Nat.sub_le_sub_left (Nat.mul_le_mul_right depth h) 10000

/-- Two more percent of depth cost two percent at most. -/
theorem level_deeper {v s shallow deep : Nat} (hv : v ≤ 100) (hs : s ≤ 100)
    (h : deep ≤ shallow + 2) : level v s shallow ≤ level v s deep + 2 := by
  have hloss : s * deep ≤ s * shallow + 200 := by
    calc s * deep ≤ s * (shallow + 2) := Nat.mul_le_mul_left s h
      _ = s * shallow + s * 2 := Nat.mul_add s shallow 2
      _ ≤ s * shallow + 200 := by omega
  have hkept : v * (10000 - s * shallow) ≤ v * (10000 - s * deep) + 20000 := by
    calc v * (10000 - s * shallow) ≤ v * (10000 - s * deep + 200) :=
          Nat.mul_le_mul_left v (by omega)
      _ = v * (10000 - s * deep) + v * 200 := Nat.mul_add _ _ _
      _ ≤ v * (10000 - s * deep) + 20000 := by omega
  unfold level
  omega

/-! ## Depths around the circle -/

/-- The channel that a third of the circle puts in the place of `c`. -/
def Channel.next : Channel → Channel
  | .red => .green
  | .green => .blue
  | .blue => .red

theorem fade_eq (h : Nat) :
    100 * h / 60 - 100 * (h / 60) = 100 * (h % 60) / 60 := by
  have hsplit : 100 * h = 100 * (h % 60) + 60 * (100 * (h / 60)) := by omega
  rw [hsplit, Nat.add_mul_div_left _ _ (by decide), Nat.add_sub_cancel]

theorem depth_third {h : Nat} (hh : h < 360) (c : Channel) :
    c.next.depth ((h + 120) % 360) = c.depth h := by
  have hsector : h / 60 < 6 := by omega
  have hnext : (h + 120) % 360 / 60 = (h / 60 + 2) % 6 := by omega
  have hrest : (h + 120) % 360 % 60 = h % 60 := by omega
  unfold Channel.depth
  rw [fade_eq, fade_eq, hnext, hrest]
  generalize h / 60 = sector at hsector
  interval_cases sector <;> cases c <;> rfl

/-- The one channel that the next degree of hue can change. -/
def Channel.moving (h : Nat) : Channel :=
  match h / 60 with
  | 0 | 3 => .green
  | 1 | 4 => .red
  | _ => .blue

theorem depth_degree {h : Nat} (hh : h < 360) (c : Channel) :
    c.depth h ≤ c.depth ((h + 1) % 360) + 2 ∧
      c.depth ((h + 1) % 360) ≤ c.depth h + 2 ∧
      (c ≠ .moving h → c.depth ((h + 1) % 360) = c.depth h) := by
  have hsector : h / 60 < 6 := by omega
  have hnext : (h + 1) % 360 / 60 = h / 60 ∧ (h + 1) % 360 % 60 = h % 60 + 1 ∨
      (h + 1) % 360 / 60 = (h / 60 + 1) % 6 ∧ (h + 1) % 360 % 60 = 0 ∧
        h % 60 = 59 := by omega
  have hrest : h % 60 < 60 := Nat.mod_lt h (by decide)
  unfold Channel.depth Channel.moving
  rw [fade_eq, fade_eq]
  generalize h / 60 = sector at hsector hnext ⊢
  generalize h % 60 = rest at hrest hnext ⊢
  -- Either the sector stays, or its last degree is left for the next sector.
  rcases hnext with ⟨hsame, hdegree⟩ | ⟨hlater, hdegree, hlast⟩
  · rw [hsame, hdegree]
    interval_cases sector <;> cases c <;> simp <;> omega
  · rw [hlater, hdegree, hlast]
    interval_cases sector <;> cases c <;> simp

/-! ## Duties -/

def Duties.get (d : Duties) : Channel → Nat
  | .red => d.channel0
  | .green => d.channel1
  | .blue => d.channel2

/-- The duty of a channel at `x` percent. -/
def percentDuty (x : Nat) : Nat := x * pwmTargetDuty / 100

theorem percentDuty_mono {x y : Nat} (h : x ≤ y) :
    percentDuty x ≤ percentDuty y := by
  apply Nat.div_le_div_right
  exact Nat.mul_le_mul_right pwmTargetDuty h

theorem percentDuty_close {x y : Nat} (h : x ≤ y + 2) :
    percentDuty x ≤ percentDuty y + 164 := by
  unfold percentDuty pwmTargetDuty
  omega

theorem rgb_duties_get (rgb : Rgb) (c : Channel) :
    rgb.duties.get c = percentDuty (rgb.get c).toNat := by
  cases c <;> rfl

/-- The lamp is on, and its colour is one that the conversion gets right. -/
structure Lamp.Lit (lamp : Lamp) : Prop where
  on : lamp.on = true
  hue : lamp.hsbVal.h.toNat ≠ 360

theorem Lamp.Steady.get {lamp : Lamp} (h : lamp.Steady) (hlit : lamp.Lit)
    {d : Duties} (hshows : lamp.Shows d) (c : Channel) :
    d.get c = percentDuty (level lamp.hsbVal.b.toNat lamp.hsbVal.s.toNat
      (c.depth lamp.hsbVal.h.toNat)) := by
  have hok := h.stores.accepted
  have hbelow : lamp.hsbVal.h.toNat < 360 :=
    Nat.lt_of_le_of_ne hok.hue hlit.hue
  obtain ⟨rgb, hconv, hlevels⟩ := hsb2rgb_levels hok hbelow ⟨0, 0, 0⟩
  obtain ⟨other, hother, hduties⟩ := h.inStep
  have hsame : other = rgb := by
    rw [hconv] at hother
    simpa using hother.symm
  rw [Lamp.Shows, hlit.on, if_pos rfl, hsame] at hduties
  have hd : d = rgb.duties := by
    rw [Lamp.Shows, hduties] at hshows
    simpa using hshows.symm
  rw [hd, rgb_duties_get, hlevels]

/-! ## Two lamps -/

/-- What the LEDs of two lamps have to do with one another. -/
structure Blend (one other : Hsp) (d e : Duties) : Prop where
  brighter : one.h = other.h → other.s ≤ one.s → one.b ≤ other.b →
    ∀ c, d.get c ≤ e.get c
  degree : other.h.toNat = (one.h.toNat + 1) % 360 → one.s = other.s →
    one.b = other.b → ∀ c, d.get c ≤ e.get c + 164 ∧ e.get c ≤ d.get c + 164 ∧
      (c ≠ .moving one.h.toNat → e.get c = d.get c)
  third : other.h.toNat = (one.h.toNat + 120) % 360 → one.s = other.s →
    one.b = other.b → ∀ c : Channel, e.get c.next = d.get c

theorem blend_of_steady {one other : Lamp} (hone : one.Steady)
    (hother : other.Steady) (hlit : one.Lit) (hlater : other.Lit)
    {d e : Duties} (hd : one.Shows d) (he : other.Shows e) :
    Blend one.hsbVal other.hsbVal d e := by
  have hdget := hone.get hlit hd
  have heget := hother.get hlater he
  have hok := hone.stores.accepted
  have hbelow : one.hsbVal.h.toNat < 360 :=
    Nat.lt_of_le_of_ne hok.hue hlit.hue
  constructor
  case brighter =>
    intro hh hs hb c
    rw [hdget, heget, hh]
    apply percentDuty_mono
    calc level one.hsbVal.b.toNat one.hsbVal.s.toNat _
        ≤ level other.hsbVal.b.toNat one.hsbVal.s.toNat _ :=
          level_brighter _ _ hb
      _ ≤ level other.hsbVal.b.toNat other.hsbVal.s.toNat _ :=
          level_paler _ _ hs
  case degree =>
    intro hh hs hb c
    obtain ⟨hdown, hup, hstays⟩ := depth_degree hbelow c
    rw [hdget, heget, hh, ← hs, ← hb]
    refine ⟨?_, ?_, fun hc => by rw [hstays hc]⟩
    · exact percentDuty_close (level_deeper hok.brightness hok.saturation hup)
    · exact percentDuty_close (level_deeper hok.brightness hok.saturation hdown)
  case third =>
    intro hh hs hb c
    rw [hdget, heget, hh, ← hs, ← hb, depth_third hbelow]

/--
Whatever two lamps were told before: the brighter and paler of two colours of
one hue has no smaller duty on any channel, one degree of hue moves one channel
only and by 164 at most, and a third of the circle carries the channels over.
-/
theorem lamps_blend {calls others : List LampCall}
    (hcalls : ∀ call ∈ calls, call.InRange)
    (hothers : ∀ call ∈ others, call.InRange)
    (hlit : (lampAfter calls).Lit) (hlater : (lampAfter others).Lit)
    {d e : Duties} (hd : (lampAfter calls).Shows d)
    (he : (lampAfter others).Shows e) :
    Blend (lampAfter calls).hsbVal (lampAfter others).hsbVal d e :=
  blend_of_steady (lampAfter_steady hcalls) (lampAfter_steady hothers) hlit
    hlater hd he

def orange : List LampCall :=
  [.setHue 59, .setSaturation 100, .setBrightness 40, .setOn true]

def yellow : List LampCall :=
  [.setBrightness 70, .setOn true, .setHue 60, .setOn false,
    .setSaturation 100, .setBrightness 40, .setOn true]

theorem orange_yellow_blend :
    Blend ⟨59, 100, 40⟩ ⟨60, 100, 40⟩ ⟨3276, 3194, 0⟩ ⟨3276, 3276, 0⟩ := by
  have horange : ∀ call ∈ orange, call.InRange := by
    simp [orange, LampCall.InRange]
    norm_num
  have hyellow : ∀ call ∈ yellow, call.InRange := by
    simp [yellow, LampCall.InRange]
    norm_num
  have hone : (lampAfter orange).hsbVal = ⟨59, 100, 40⟩ := by decide +kernel
  have hother : (lampAfter yellow).hsbVal = ⟨60, 100, 40⟩ := by decide +kernel
  rw [← hone, ← hother]
  exact lamps_blend horange hyellow
    ⟨by decide +kernel, by decide +kernel⟩ ⟨by decide +kernel, by decide +kernel⟩
    (by decide +kernel) (by decide +kernel)

end EspIotivity.Lightbulb
