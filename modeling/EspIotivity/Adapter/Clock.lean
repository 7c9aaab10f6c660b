import EspIotivity.Foundation.Narrowing

/-!
# The clock and the event-loop deadline

`oc_clock_time` of `clock.c` turns a wall-clock reading into clock units, and
both main loops turn a clock value back into the `timespec` they sleep until.
The two agree on what a clock unit is when `portTICK_RATE_MS`, by which the
first multiplies, is `OC_CLOCK_SECOND`, by which the second divides.
-/

namespace EspIotivity.Adapter

open EspIotivity.Foundation

/-- `CLOCKS_PER_SEC`, which `config.h` takes as the clock resolution. -/
def ocClockSecond : Nat := 1000

/-- `configTICK_RATE_HZ`, a divisor of 1000. -/
structure TickRate where
  hz : Nat
  dvd : hz ∣ 1000
  deriving DecidableEq

/-- What `gettimeofday` stores; `tv_sec` is a `long` of 32 bits. -/
structure Timeval where
  tvSec : Nat
  tvUsec : Nat
  sec_lt : tvSec < 2147483648
  usec_lt : tvUsec < 1000000
  deriving DecidableEq

structure Timespec where
  tvSec : Int
  tvNsec : Int
  deriving DecidableEq, Repr

def portTickRateMs (rate : TickRate) : Nat := 1000 / rate.hz

/-- Computed in 32 bits unsigned, then widened to `oc_clock_time_t`. -/
def ocClockTime (rate : TickRate) (now : Timeval) : Nat :=
  (now.tvSec * portTickRateMs rate % 4294967296 +
    now.tvUsec / (1000 * 1000 / portTickRateMs rate)) % 4294967296

/-- `ts` as `server_main` and `client_main` compute it from `next_event`. -/
def deadline (nextEvent : Nat) : Timespec where
  tvSec := toInt32 (nextEvent / ocClockSecond : Nat)
  tvNsec :=
    (nextEvent % ocClockSecond * 1000000000 / ocClockSecond : Nat)

/-- `next_event`, `interval` clock units after the reading, in 64 bits. -/
def nextEvent (rate : TickRate) (now : Timeval) (interval : Nat) : Nat :=
  (ocClockTime rate now + interval) % 18446744073709551616

def Timespec.instant (ts : Timespec) : ℚ :=
  ts.tvSec + ts.tvNsec / 1000000000

def Timeval.instant (now : Timeval) : ℚ :=
  now.tvSec + now.tvUsec / 1000000

/--
The deadline is a proper `timespec` within one clock unit of the instant that
lies `interval` clock units after the reading.
-/
def DeadlineAccurate (rate : TickRate) (now : Timeval) (interval : Nat) :
    Prop :=
  let ts := deadline (nextEvent rate now interval)
  0 ≤ ts.tvNsec ∧ ts.tvNsec < 1000000000 ∧
    |ts.instant - (now.instant + interval / ocClockSecond)| ≤
      1 / ocClockSecond

/-! ## Milliseconds and microseconds -/

def Timeval.micros (now : Timeval) : Nat := now.tvSec * 1000000 + now.tvUsec

def elapsedUnits (rate : TickRate) (now : Timeval) : Nat :=
  now.tvSec * portTickRateMs rate +
    now.tvUsec / (1000 * 1000 / portTickRateMs rate)

def deadlineMillis (nextEvent : Nat) : Int :=
  1000 * toInt32 (nextEvent / 1000 : Nat) + (nextEvent % 1000 : Nat)

theorem ocClockTime_eq (rate : TickRate) (now : Timeval) :
    ocClockTime rate now = elapsedUnits rate now % 4294967296 := by
  rw [ocClockTime, elapsedUnits, Nat.mod_add_mod]

theorem deadline_tvNsec (next : Nat) :
    (deadline next).tvNsec = ((next % 1000 * 1000000 : Nat) : Int) := by
  simp only [deadline, ocClockSecond]
  omega

theorem deadline_instant (next : Nat) :
    (deadline next).instant = (deadlineMillis next : ℚ) / 1000 := by
  rw [Timespec.instant, deadline_tvNsec, deadlineMillis]
  simp only [deadline, ocClockSecond]
  push_cast
  ring

theorem Timeval.instant_eq (now : Timeval) :
    now.instant = (now.micros : ℚ) / 1000000 := by
  simp only [Timeval.instant, Timeval.micros]
  push_cast
  ring

theorem deadlineAccurate_iff_int (rate : TickRate) (now : Timeval)
    (interval : Nat) :
    DeadlineAccurate rate now interval ↔
      |1000 * deadlineMillis (nextEvent rate now interval) -
        (now.micros + 1000 * interval : Nat)| ≤ 1000 := by
  have hnsec : ∀ next, 0 ≤ (deadline next).tvNsec ∧
      (deadline next).tvNsec < 1000000000 := by
    intro next
    rw [deadline_tvNsec]
    omega
  obtain ⟨hlo, hhi⟩ := hnsec (nextEvent rate now interval)
  simp only [DeadlineAccurate, hlo, hhi, true_and]
  rw [deadline_instant, now.instant_eq]
  generalize deadlineMillis (nextEvent rate now interval) = millis
  have hscale : (millis : ℚ) / 1000 -
      ((now.micros : ℚ) / 1000000 + interval / (ocClockSecond : Nat)) =
        ((1000 * millis - (now.micros + 1000 * interval : Nat) : Int) : ℚ) /
          1000000 := by
    simp only [ocClockSecond]
    push_cast
    ring
  rw [hscale, abs_div, ← Int.cast_abs]
  generalize |1000 * millis - ((now.micros + 1000 * interval : Nat) : Int)| =
    distance
  simp only [ocClockSecond]
  constructor
  · intro h
    rw [div_le_div_iff₀ (by norm_num) (by norm_num)] at h
    norm_num at h
    have : (distance : ℚ) ≤ 1000 := by linarith
    exact_mod_cast this
  · intro h
    have : (distance : ℚ) ≤ 1000 := by exact_mod_cast h
    rw [div_le_div_iff₀ (by norm_num) (by norm_num)]
    norm_num
    linarith

/-! ## Width: an overflow only ever makes the deadline too early -/

theorem deadlineMillis_of_fits {next : Nat} (hfits : next < 2147483648000) :
    deadlineMillis next = next := by
  rw [deadlineMillis, toInt32_of_lt (by omega) (by omega)]
  omega

theorem deadlineMillis_le (next : Nat) : deadlineMillis next ≤ next := by
  by_cases hfits : next < 2147483648000
  · exact (deadlineMillis_of_fits hfits).le
  · have := toInt32_of_le (x := (next / 1000 : Nat)) (by omega)
    rw [deadlineMillis]
    omega

def DeadlineFits (rate : TickRate) (now : Timeval) (interval : Nat) : Prop :=
  elapsedUnits rate now < 4294967296 ∧
    elapsedUnits rate now + interval < 2147483648000

theorem deadlineMillis_nextEvent {rate : TickRate} {now : Timeval}
    {interval : Nat} (hfits : DeadlineFits rate now interval) :
    deadlineMillis (nextEvent rate now interval) =
      elapsedUnits rate now + interval := by
  obtain ⟨hunits, hsum⟩ := hfits
  have hnext : nextEvent rate now interval =
      elapsedUnits rate now + interval := by
    rw [nextEvent, ocClockTime_eq, Nat.mod_eq_of_lt hunits,
      Nat.mod_eq_of_lt (by omega)]
  rw [hnext, deadlineMillis_of_fits hsum]
  push_cast
  rfl

theorem deadlineMillis_nextEvent_le {rate : TickRate} {now : Timeval}
    {interval : Nat} (hfits : ¬ DeadlineFits rate now interval) :
    deadlineMillis (nextEvent rate now interval) ≤
      elapsedUnits rate now + interval - 4294967296 := by
  have hle := deadlineMillis_le (nextEvent rate now interval)
  rw [DeadlineFits, not_and_or] at hfits
  have hnext : nextEvent rate now interval =
      (elapsedUnits rate now % 4294967296 + interval) %
        18446744073709551616 := by
    rw [nextEvent, ocClockTime_eq]
  by_cases hwrap : nextEvent rate now interval =
      elapsedUnits rate now + interval
  · -- Nothing was cut off before the seconds were narrowed to `time_t`.
    have hlong : 2147483648000 ≤ nextEvent rate now interval := by omega
    have := toInt32_of_le (x := (nextEvent rate now interval / 1000 : Nat))
      (by omega)
    rw [deadlineMillis]
    omega
  · omega

/-! ## Drift: the clock unit must be a millisecond -/

/-- The readings that are worth a millisecond per unit all the same. -/
def UnitsAgree (rate : TickRate) (now : Timeval) : Prop :=
  rate.hz = 1 ∨ now.micros ≤ 1000 ∨ (rate.hz = 2 ∧ now.micros = 2000)

theorem elapsedUnits_drift (rate : TickRate) (now : Timeval) :
    1000 * elapsedUnits rate now ≤ now.micros ∧
      (now.micros ≤ 1000 * elapsedUnits rate now + 1000 ↔
        UnitsAgree rate now) := by
  rcases rate with ⟨hz, hdvd⟩
  rcases now with ⟨sec, usec, hsec, husec⟩
  have hmem : hz ∈ Nat.divisors 1000 := Nat.mem_divisors.mpr ⟨hdvd, by decide⟩
  have hdivisors : Nat.divisors 1000 =
      {1, 2, 4, 5, 8, 10, 20, 25, 40, 50, 100, 125, 200, 250, 500, 1000} := by
    decide +kernel
  rw [hdivisors] at hmem
  simp only [Finset.mem_insert, Finset.mem_singleton] at hmem
  simp only [elapsedUnits, portTickRateMs, UnitsAgree, Timeval.micros]
  rcases hmem with rfl | rfl | rfl | rfl | rfl | rfl | rfl | rfl | rfl | rfl |
    rfl | rfl | rfl | rfl | rfl | rfl <;> norm_num <;> omega

/--
The deadline denotes the intended instant exactly when a tick lasts a second,
so that the two clock units agree (or the reading is within a millisecond or
two of zero), and no width on the way is exceeded.
-/
theorem deadlineAccurate_iff (rate : TickRate) (now : Timeval)
    (interval : Nat) :
    DeadlineAccurate rate now interval ↔
      UnitsAgree rate now ∧ DeadlineFits rate now interval := by
  rw [deadlineAccurate_iff_int, abs_le]
  obtain ⟨hdrift, hunits⟩ := elapsedUnits_drift rate now
  rw [← hunits]
  by_cases hfits : DeadlineFits rate now interval
  · rw [deadlineMillis_nextEvent hfits]
    simp only [hfits, and_true]
    omega
  · have hle := deadlineMillis_nextEvent_le hfits
    simp only [hfits, and_false, iff_false]
    omega

theorem deadlineAccurate_fails :
    ¬ DeadlineAccurate ⟨100, by decide⟩ ⟨100, 0, by decide, by decide⟩ 5000 := by
  rw [deadlineAccurate_iff_int]
  decide +kernel

end EspIotivity.Adapter
