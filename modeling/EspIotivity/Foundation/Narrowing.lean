import Mathlib.Data.Rat.Defs
import Mathlib.Tactic

/-!
# Narrowing conversions

The conversions a C compiler inserts between `int`, `double` and the narrow
unsigned types.  `UInt16.ofInt` and `UInt8.ofInt` keep the low bits; here are
the facts that let arithmetic on the narrowed values be done in `Int`.
-/

namespace EspIotivity.Foundation

/-- The integral part of a finite `double`, rounding towards zero. -/
def truncate (value : ℚ) : Int := value.num.tdiv value.den

@[simp] theorem truncate_intCast (n : Int) : truncate (n : ℚ) = n := by
  simp [truncate]

@[simp] theorem truncate_natCast (n : Nat) : truncate (n : ℚ) = n :=
  truncate_intCast n

theorem truncate_of_nonneg {value : ℚ} (hvalue : 0 ≤ value) :
    truncate value = ⌊value⌋ := by
  rw [truncate, Rat.floor_def']
  exact Int.tdiv_eq_ediv_of_nonneg (Rat.num_nonneg.mpr hvalue)

theorem truncate_nonneg {value : ℚ} (hvalue : 0 ≤ value) :
    0 ≤ truncate value := by
  rw [truncate_of_nonneg hvalue]
  exact Int.floor_nonneg.mpr hvalue

theorem truncate_le {value : ℚ} {limit : Nat} (hlo : 0 ≤ value)
    (hhi : value ≤ limit) : truncate value ≤ limit := by
  rw [truncate_of_nonneg hlo]
  exact_mod_cast (Int.floor_le value).trans hhi

theorem uint16_ofInt_toNat (x : Int) :
    ((UInt16.ofInt x).toNat : Int) = x % 65536 := by
  simp [UInt16.ofInt]
  omega

theorem uint16_ofInt_toNat_of_lt {x : Int} (hlo : 0 ≤ x) (hhi : x < 65536) :
    ((UInt16.ofInt x).toNat : Int) = x := by
  rw [uint16_ofInt_toNat, Int.emod_eq_of_lt hlo hhi]

def toInt32 (x : Int) : Int := x.bmod 4294967296

theorem toInt32_of_lt {x : Int} (hlo : 0 ≤ x) (hhi : x < 2147483648) :
    toInt32 x = x :=
  Int.bmod_eq_of_le (by omega) (by omega)

theorem toInt32_of_le {x : Int} (hx : 2147483648 ≤ x) :
    toInt32 x ≤ x - 4294967296 := by
  rw [toInt32, Int.bmod_def]
  split <;> omega

def toSizeT (x : Int) : Nat := (x % 4294967296).toNat

theorem toSizeT_of_lt {x : Int} (hlo : 0 ≤ x) (hhi : x < 4294967296) :
    toSizeT x = x.toNat := by
  rw [toSizeT, Int.emod_eq_of_lt hlo hhi]

theorem toSizeT_toInt32 {n : Nat} (hn : n < 4294967296) :
    toSizeT (toInt32 n) = n := by
  rw [toSizeT, toInt32, Int.bmod_def]
  split <;> omega

theorem toInt32_nonneg_iff {n : Nat} (hn : n < 4294967296) :
    0 ≤ toInt32 n ↔ n < 2147483648 := by
  rw [toInt32, Int.bmod_def]
  split <;> omega

theorem mul_tdiv_le {v x d : Int} (hv : 0 ≤ v) (hx : 0 ≤ x) (hxd : x ≤ d)
    (hd : 0 < d) : 0 ≤ (v * x).tdiv d ∧ (v * x).tdiv d ≤ v := by
  rw [Int.tdiv_eq_ediv_of_nonneg (Int.mul_nonneg hv hx)]
  refine ⟨Int.ediv_nonneg (Int.mul_nonneg hv hx) hd.le, ?_⟩
  calc v * x / d
      ≤ v * d / d := Int.ediv_le_ediv hd (Int.mul_le_mul_of_nonneg_left hxd hv)
    _ = v := Int.mul_ediv_cancel v hd.ne'

end EspIotivity.Foundation
