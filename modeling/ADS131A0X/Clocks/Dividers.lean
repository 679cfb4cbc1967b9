import ADS131A0X.Base.Waveform
import ADS131A0X.Rtl.ClockSynthesizer

/-!
# The dividers from power-up

The two dividers of the repository, run edge by edge from their power-up state. For every limit
the registers of `clock_synthesizer` are the closed form `ClockSynthesizer.afterTicks`, from which
the bounds of its counter and the edges of its output follow. `heartbeat` is the same divider with
another limit.

## Main definitions

* `ClockSynthesizer.fromPowerUp`, `Heartbeat.fromPowerUp`: the registers after `t` input edges
* `ClockSynthesizer.clockPolWire`: the output `clock_pol` as a waveform over input edges

## Main results

* `ClockSynthesizer.divider_closed_form`: counter, output, edges and phases for every limit
* `Heartbeat.clockPol_eq_iff`: when `heartbeat` shows the level of the default divider
-/

namespace ADS131A0X

open Divider Waveform

namespace ClockSynthesizer

variable (counterLimit : BitVec 32)

/-- The registers after `t` edges of the input clock, from power-up. -/
def fromPowerUp (t : ℕ) : ClockSynthesizer := (posedgeInputClock counterLimit)^[t] {}

/-- The output `clock_pol` over the edges of the input clock. -/
def clockPolWire : Signal := fun t => (fromPowerUp counterLimit t).clockPol

theorem fromPowerUp_eq_afterTicks (t : ℕ) :
    fromPowerUp counterLimit t = afterTicks counterLimit t := by
  induction t with
  | zero => exact (afterTicks_zero counterLimit).symm
  | succ t ih =>
    rw [fromPowerUp, Function.iterate_succ_apply', ← fromPowerUp, ih, posedgeInputClock_afterTicks]

theorem toNat_counter_fromPowerUp (t : ℕ) :
    (fromPowerUp counterLimit t).counter.toNat = t % (counterLimit.toNat + 1) := by
  rw [fromPowerUp_eq_afterTicks, toNat_counter_afterTicks]

theorem clockPolWire_eq (t : ℕ) :
    clockPolWire counterLimit t = dividerLevel (counterLimit.toNat + 1) t := by
  rw [clockPolWire, fromPowerUp_eq_afterTicks, clockPol_afterTicks]

theorem counter_fromPowerUp_le (t : ℕ) : (fromPowerUp counterLimit t).counter ≤ counterLimit := by
  rw [BitVec.le_def, toNat_counter_fromPowerUp]
  exact Nat.lt_succ_iff.mp (Nat.mod_lt _ (Nat.succ_pos _))

/-- An edge that does not clear the counter adds one to it without a carry out. -/
theorem counter_fromPowerUp_succ {t : ℕ} (h : (fromPowerUp counterLimit t).counter ≠ counterLimit) :
    (fromPowerUp counterLimit (t + 1)).counter.toNat =
      (fromPowerUp counterLimit t).counter.toNat + 1 := by
  have hle := counter_fromPowerUp_le counterLimit t
  have hne : (fromPowerUp counterLimit t).counter.toNat ≠ counterLimit.toNat :=
    fun he => h (BitVec.eq_of_toNat_eq he)
  have hlt : t % (counterLimit.toNat + 1) + 1 < counterLimit.toNat + 1 := by
    rw [BitVec.le_def] at hle
    rw [← toNat_counter_fromPowerUp]
    omega
  rw [toNat_counter_fromPowerUp, toNat_counter_fromPowerUp, (div_mod_succ_of_lt hlt).2]

theorem clockPolWire_changesAt_iff (t : ℕ) :
    (clockPolWire counterLimit).ChangesAt t ↔ (t + 1) % (counterLimit.toNat + 1) = 0 := by
  rw [Signal.ChangesAt, clockPolWire_eq, clockPolWire_eq]
  exact dividerLevel_changes_iff (Nat.succ_pos _)

theorem clockPolWire_risesAt_iff (t : ℕ) :
    (clockPolWire counterLimit).RisesAt t ↔
      (t + 1) % ((counterLimit.toNat + 1) * 2) = counterLimit.toNat + 1 := by
  rw [Signal.RisesAt, clockPolWire_eq, clockPolWire_eq]
  exact dividerLevel_rises_iff (Nat.succ_pos _)

theorem length_clockPolWire_rises (t : ℕ) :
    (stepsIn (clockPolWire counterLimit).RisesAt 0 t).length =
      (t + counterLimit.toNat + 1) / (2 * (counterLimit.toNat + 1)) := by
  rw [stepsIn_congr fun k _ _ => clockPolWire_risesAt_iff counterLimit k, length_stepsIn_zero,
    count_dividerLevel_rises (Nat.succ_pos _), Nat.mul_comm 2, Nat.add_assoc]

/-- **The divider in closed form.** For every limit `N`: the counter is the number of input edges
modulo `N + 1`, it stays within the limit and never overflows; the output is the parity of the
number of wraps, its rising edges are counted, and each of its phases lasts `N + 1` edges. -/
theorem divider_closed_form :
    (∀ t, (fromPowerUp counterLimit t).counter.toNat = t % (counterLimit.toNat + 1) ∧
        (fromPowerUp counterLimit t).clockPol.toNat = t / (counterLimit.toNat + 1) % 2) ∧
      (∀ t, (fromPowerUp counterLimit t).counter ≤ counterLimit) ∧
      (∀ t, (fromPowerUp counterLimit t).counter ≠ counterLimit →
        (fromPowerUp counterLimit (t + 1)).counter.toNat =
          (fromPowerUp counterLimit t).counter.toNat + 1) ∧
      (∀ t, (stepsIn (clockPolWire counterLimit).RisesAt 0 t).length =
        (t + counterLimit.toNat + 1) / (2 * (counterLimit.toNat + 1))) ∧
      ((clockPolWire counterLimit).ChangesAt counterLimit.toNat ∧
        ∀ k < counterLimit.toNat, ¬ (clockPolWire counterLimit).ChangesAt k) ∧
      ∀ i j, (clockPolWire counterLimit).ChangesAt i → (clockPolWire counterLimit).ChangesAt j →
        i < j → (∀ k, i < k → k < j → ¬ (clockPolWire counterLimit).ChangesAt k) →
          j = i + (counterLimit.toNat + 1) := by
  refine ⟨fun t => ⟨toNat_counter_fromPowerUp counterLimit t, ?_⟩,
    counter_fromPowerUp_le counterLimit,
    fun t => counter_fromPowerUp_succ counterLimit,
    length_clockPolWire_rises counterLimit, ⟨?_, ?_⟩, ?_⟩
  · have hlevel := clockPolWire_eq counterLimit t
    rw [clockPolWire, dividerLevel] at hlevel
    rw [hlevel, toNat_decide_odd]
  · rw [clockPolWire_changesAt_iff]
    exact Nat.mod_self _
  · intro k hk
    rw [clockPolWire_changesAt_iff, Nat.mod_eq_of_lt (by omega)]
    omega
  · intro i j hi hj hij hnone
    simp only [clockPolWire_changesAt_iff] at hi hj hnone
    -- the edges are one step before the multiples of the period
    have hnext : j + 1 = i + 1 + (counterLimit.toNat + 1) := by
      apply eq_add_of_next_multiple hi hj (by omega)
      intro k hik hkj
      obtain ⟨k, rfl⟩ : ∃ k', k = k' + 1 := ⟨k - 1, by omega⟩
      exact hnone k (by omega) (by omega)
    omega

end ClockSynthesizer

namespace Heartbeat

/-- The registers after `t` edges of the input clock, from power-up. -/
def fromPowerUp (t : ℕ) : Heartbeat := posedgeInputClock^[t] {}

/-- The registers of the divider that `heartbeat` copies. -/
def toClockSynthesizer (h : Heartbeat) : ClockSynthesizer where
  counter := h.counter
  clockState := h.clockState

/-- `heartbeat` is `clock_synthesizer` with the limit `32'd24_99_999`. -/
theorem posedgeInputClock_toClockSynthesizer (h : Heartbeat) :
    h.posedgeInputClock.toClockSynthesizer =
      h.toClockSynthesizer.posedgeInputClock 24_99_999#32 := by
  unfold posedgeInputClock ClockSynthesizer.posedgeInputClock
  by_cases hw : h.counter = 24_99_999#32 <;> simp [toClockSynthesizer, hw]

theorem toClockSynthesizer_fromPowerUp (t : ℕ) :
    (fromPowerUp t).toClockSynthesizer = ClockSynthesizer.fromPowerUp 24_99_999#32 t := by
  induction t with
  | zero => rfl
  | succ t ih =>
    rw [fromPowerUp, ClockSynthesizer.fromPowerUp, Function.iterate_succ_apply',
      Function.iterate_succ_apply', posedgeInputClock_toClockSynthesizer]
    exact congrArg _ ih

theorem clockPol_fromPowerUp (t : ℕ) : (fromPowerUp t).clockPol = dividerLevel 2500000 t := by
  have hlevel := ClockSynthesizer.clockPolWire_eq 24_99_999#32 t
  rw [ClockSynthesizer.clockPolWire, ← toClockSynthesizer_fromPowerUp] at hlevel
  exact hlevel

/-- **The heartbeat against the 1 Hz divider.** Ten half-periods of `heartbeat` fit one of the
default divider, so the two outputs agree in ten of every twenty half-periods of `heartbeat`. -/
theorem clockPol_eq_iff (t : ℕ) :
    (fromPowerUp t).clockPol =
        (ClockSynthesizer.fromPowerUp ClockSynthesizer.defaultCounterLimit t).clockPol ↔
      t / 2500000 % 20 ∈ [0, 2, 4, 6, 8, 11, 13, 15, 17, 19] := by
  have hdefault := ClockSynthesizer.clockPolWire_eq ClockSynthesizer.defaultCounterLimit t
  rw [ClockSynthesizer.clockPolWire] at hdefault
  rw [hdefault, clockPol_fromPowerUp]
  change dividerLevel 2500000 t = dividerLevel 25000000 t ↔ _
  have hdiv : t / 25000000 = t / 2500000 / 10 := by rw [Nat.div_div_eq_div_mul]
  simp only [dividerLevel, hdiv, decide_eq_decide, List.mem_cons, List.not_mem_nil, or_false]
  omega

/-- After the first half-period of `heartbeat` the two outputs differ. -/
theorem clockPol_ne_first :
    ¬ ∀ t, (fromPowerUp t).clockPol =
      (ClockSynthesizer.fromPowerUp ClockSynthesizer.defaultCounterLimit t).clockPol := by
  intro h
  have h1 := h 2500000
  have hdefault := ClockSynthesizer.clockPolWire_eq ClockSynthesizer.defaultCounterLimit 2500000
  rw [ClockSynthesizer.clockPolWire] at hdefault
  rw [hdefault, clockPol_fromPowerUp] at h1
  exact absurd h1 (by decide)

end Heartbeat

end ADS131A0X
