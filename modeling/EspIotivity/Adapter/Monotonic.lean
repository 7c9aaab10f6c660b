import EspIotivity.Adapter.Clock
import EspIotivity.Foundation.Wraparound

/-!
# The clock against the order of its readings

`oc_clock_time` adds ticks in 32 bits and widens the sum.  The carry from the
microseconds lines up with the next second for every tick period; the width
does not last for the whole range of `tv_sec`.
-/

namespace EspIotivity.Adapter

open EspIotivity.Foundation

/-- A `configTICK_RATE_HZ` at which `portTICK_RATE_MS` is at least 1. -/
structure TickPeriod where
  hz : Nat
  hz_pos : 0 < hz
  hz_le : hz ≤ 1000
  deriving DecidableEq

def TickPeriod.ms (period : TickPeriod) : Nat := 1000 / period.hz

/-- `ocClockTime` at any tick period, a divisor of 1000 or not. -/
def ocClockTimeAt (period : TickPeriod) (now : Timeval) : Nat :=
  (now.tvSec * period.ms % 4294967296 +
    now.tvUsec / (1000 * 1000 / period.ms)) % 4294967296

theorem ocClockTimeAt_eq (rate : TickRate) (hz_pos : 0 < rate.hz)
    (hz_le : rate.hz ≤ 1000) (now : Timeval) :
    ocClockTimeAt ⟨rate.hz, hz_pos, hz_le⟩ now = ocClockTime rate now := rfl

/-- Readings in the order of time. -/
instance : Preorder Timeval := Preorder.lift Timeval.micros

theorem timeval_le_iff {first second : Timeval} :
    first ≤ second ↔ first.tvSec < second.tvSec ∨
      first.tvSec = second.tvSec ∧ first.tvUsec ≤ second.tvUsec := by
  change first.micros ≤ second.micros ↔ _
  have hfirst := first.usec_lt
  have hsecond := second.usec_lt
  rw [Timeval.micros, Timeval.micros]
  omega

/-! ## The count without a width -/

def ticks (period : TickPeriod) (now : Timeval) : Nat :=
  now.tvSec * period.ms + now.tvUsec / (1000 * 1000 / period.ms)

theorem ocClockTimeAt_ticks (period : TickPeriod) (now : Timeval) :
    ocClockTimeAt period now = ticks period now % 4294967296 := by
  rw [ocClockTimeAt, ticks, Nat.mod_add_mod]

section Period

variable (period : TickPeriod)

theorem ms_pos : 0 < period.ms :=
  Nat.div_pos period.hz_le period.hz_pos

theorem ms_le : period.ms ≤ 1000 :=
  Nat.div_le_self 1000 period.hz

/-- A second has its whole number of ticks, with less than one to spare. -/
theorem second_ticks :
    period.ms * (1000 * 1000 / period.ms) ≤ 1000000 ∧
      1000000 ≤ (period.ms + 1) * (1000 * 1000 / period.ms) := by
  have hpos := ms_pos period
  have hle := ms_le period
  have hlow := Nat.mul_div_le (1000 * 1000) period.ms
  have hhigh := Nat.lt_mul_div_succ (1000 * 1000) hpos
  have hroom : 1000 ≤ 1000 * 1000 / period.ms := by
    rw [Nat.le_div_iff_mul_le hpos]
    exact Nat.mul_le_mul_left 1000 hle
  rw [Nat.mul_add, Nat.mul_one] at hhigh
  rw [Nat.add_mul, Nat.one_mul]
  omega

theorem subticks_le (now : Timeval) :
    now.tvUsec / (1000 * 1000 / period.ms) ≤ period.ms := by
  have husec := now.usec_lt
  have hroom := (second_ticks period).2
  apply Nat.le_of_lt_add_one
  apply Nat.div_lt_of_lt_mul
  rw [Nat.mul_comm]
  exact husec.trans_le hroom

theorem ticks_monotone : Monotone (ticks period) := by
  intro first second hle
  rcases timeval_le_iff.mp hle with hsec | ⟨hsec, husec⟩
  · calc ticks period first
        ≤ (first.tvSec + 1) * period.ms := by
          rw [Nat.add_mul, Nat.one_mul]
          exact Nat.add_le_add_left (subticks_le period first) _
      _ ≤ second.tvSec * period.ms := Nat.mul_le_mul_right _ hsec
      _ ≤ ticks period second := Nat.le_add_right _ _
  · rw [ticks, ticks, hsec]
    exact Nat.add_le_add_left (Nat.div_le_div_right husec) _

theorem ticks_leavesNoneOut : LeavesNoneOut (ticks period) := by
  intro last n hn
  rcases hn.eq_or_lt with rfl | hlt
  · exact ⟨last, le_rfl, rfl⟩
  have hpos := ms_pos period
  have hstep : 0 < 1000 * 1000 / period.ms :=
    Nat.div_pos ((ms_le period).trans (by decide)) hpos
  have hsub := subticks_le period last
  have hsec : n / period.ms ≤ last.tvSec := by
    apply Nat.le_of_lt_add_one
    rw [Nat.div_lt_iff_lt_mul hpos, Nat.add_mul, Nat.one_mul]
    exact hlt.trans_le (Nat.add_le_add_left hsub _)
  have husec : n % period.ms * (1000 * 1000 / period.ms) < 1000000 :=
    (Nat.mul_lt_mul_of_pos_right (Nat.mod_lt n hpos) hstep).trans_le
      (second_ticks period).1
  let time : Timeval := ⟨n / period.ms,
    n % period.ms * (1000 * 1000 / period.ms),
    hsec.trans_lt last.sec_lt, husec⟩
  have htime : ticks period time = n := by
    rw [ticks, Nat.mul_div_cancel _ hstep]
    exact Nat.div_add_mod' n period.ms
  refine ⟨time, ?_, htime⟩
  rcases le_total time.micros last.micros with hle | hge
  · exact hle
  · have hticks := ticks_monotone period (show last ≤ time from hge)
    omega

end Period

/-! ## When the clock runs backwards -/

/-- The last reading before `tv_sec` would overflow. -/
def Timeval.latest : Timeval := ⟨2147483647, 999999, by decide, by decide⟩

theorem le_latest (now : Timeval) : now ≤ .latest := by
  have hsec := now.sec_lt
  have husec := now.usec_lt
  rw [timeval_le_iff, Timeval.latest]
  dsimp only
  omega

/-- The later reading is not below the earlier one. -/
def RunsForward (period : TickPeriod) (first second : Timeval) : Prop :=
  first ≤ second → ocClockTimeAt period first ≤ ocClockTimeAt period second

theorem ticks_latest_lt_iff (period : TickPeriod) :
    ticks period .latest < 4294967296 ↔ period.ms ≤ 2 := by
  have hpos := ms_pos period
  simp only [ticks, Timeval.latest]
  generalize period.ms = ms at hpos
  constructor
  · intro hlt
    by_contra hms
    have hseconds : 2147483647 * ms < 4294967296 :=
      (Nat.le_add_right _ _).trans_lt hlt
    omega
  · intro hms
    interval_cases ms <;> decide

/--
Two readings are in order exactly when the count of ticks has grown by 2^32
for every turn between them; all readings up to one are when the count there
is below 2^32, and all readings there are when a tick is 1 or 2 milliseconds.
-/
theorem runsForward_iff (period : TickPeriod) :
    (∀ first second : Timeval, first ≤ second →
      (RunsForward period first second ↔
        4294967296 *
            turns 4294967296 (ticks period first) (ticks period second) ≤
          ticks period second - ticks period first)) ∧
      (∀ last : Timeval,
        (∀ first second, second ≤ last → RunsForward period first second) ↔
          ticks period last < 4294967296) ∧
      ((∀ first second, RunsForward period first second) ↔ period.ms ≤ 2) := by
  have hupto : ∀ last : Timeval,
      (∀ first second, second ≤ last → RunsForward period first second) ↔
        ticks period last < 4294967296 := by
    intro last
    rw [← neverBackwards_iff_lt (by decide) (ticks_monotone period)
      (ticks_leavesNoneOut period) last]
    simp only [NeverBackwards, RunsForward, ocClockTimeAt_ticks]
    exact forall₂_congr fun _ _ => forall_comm
  refine ⟨?_, hupto, ?_⟩
  · intro first second hle
    rw [← mod_le_mod_iff_turns (ticks_monotone period hle), RunsForward,
      ocClockTimeAt_ticks, ocClockTimeAt_ticks]
    exact ⟨fun h => h hle, fun h _ => h⟩
  · rw [← ticks_latest_lt_iff, ← hupto]
    exact forall₂_congr fun _ second =>
      ⟨fun h _ => h, fun h => h (le_latest second)⟩

/-- At 100 ticks a second the clock is in order up to second 429496729. -/
theorem runsForward_beforeTurn :
    RunsForward ⟨100, by decide, by decide⟩ ⟨1, 999999, by decide, by decide⟩
      ⟨429496729, 0, by decide, by decide⟩ := by
  have hticks : ticks ⟨100, by decide, by decide⟩
      ⟨429496729, 0, by decide, by decide⟩ < 4294967296 := by
    decide
  exact ((runsForward_iff _).2.1 _).mpr hticks _ _ le_rfl

theorem runsForward_fails :
    ¬ ∀ (period : TickPeriod) (first second : Timeval),
      RunsForward period first second := by
  intro h
  have hle := h ⟨100, by decide, by decide⟩
    ⟨429496729, 0, by decide, by decide⟩ ⟨429496730, 0, by decide, by decide⟩
    (timeval_le_iff.mpr (.inl (by decide)))
  exact absurd hle (by decide)

end EspIotivity.Adapter
