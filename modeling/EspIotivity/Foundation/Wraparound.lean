import Mathlib.Order.Monotone.Defs
import Mathlib.Tactic

/-!
# Counters of a fixed width

A count that only grows is kept modulo `width`.  What is read of it goes
backwards between two readings unless the count has grown by a whole `width`
for every turn it made, and it never does so before the first turn only.
-/

namespace EspIotivity.Foundation

universe u

/-- How often a count passes a multiple of `width` on its way. -/
def turns (width first second : Nat) : Nat :=
  second / width - first / width

theorem mod_le_mod_iff_turns {width first second : Nat}
    (hle : first ≤ second) :
    first % width ≤ second % width ↔
      width * turns width first second ≤ second - first := by
  have hfirst := Nat.div_add_mod first width
  have hsecond := Nat.div_add_mod second width
  have hdiv : first / width ≤ second / width := Nat.div_le_div_right hle
  have hturns : width * turns width first second =
      width * (second / width) - width * (first / width) := Nat.mul_sub _ _ _
  have hmul : width * (first / width) ≤ width * (second / width) :=
    Nat.mul_le_mul_left width hdiv
  omega

section Reading

variable {Time : Type u} [Preorder Time] {width : Nat} {count : Time → Nat}

/-- No reading up to `last` is below an earlier one. -/
def NeverBackwards (width : Nat) (count : Time → Nat) (last : Time) : Prop :=
  ∀ first second, first ≤ second → second ≤ last →
    count first % width ≤ count second % width

/-- The count starts at 0 and leaves no number out. -/
def LeavesNoneOut (count : Time → Nat) : Prop :=
  ∀ last n, n ≤ count last → ∃ time, time ≤ last ∧ count time = n

theorem neverBackwards_iff_lt (hwidth : 1 < width) (hcount : Monotone count)
    (hall : LeavesNoneOut count) (last : Time) :
    NeverBackwards width count last ↔ count last < width := by
  constructor
  · intro h
    by_contra hlast
    -- The readings at the two sides of the first turn.
    obtain ⟨second, hsecond, hwrapped⟩ := hall last width (not_lt.mp hlast)
    obtain ⟨first, hfirst, hhighest⟩ := hall second (width - 1) (by omega)
    have hle := h first second hfirst hsecond
    rw [hwrapped, hhighest, Nat.mod_self,
      Nat.mod_eq_of_lt (Nat.sub_lt (by omega) one_pos)] at hle
    omega
  · intro hlast first second hle hsecond
    have hup := hcount hle
    have hwithin := hcount hsecond
    rw [Nat.mod_eq_of_lt (by omega), Nat.mod_eq_of_lt (by omega)]
    exact hup

end Reading

end EspIotivity.Foundation
