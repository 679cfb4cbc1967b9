import ADS131A0X.SingleClock.Invariant
import ADS131A0X.Base.Waveform

/-!
# The schedule of a frame

From the slow edge at which `SPI_CS` falls to the next such edge, and as long as `reset_n` is high,
the single-clock machine runs through a fixed schedule: 65 slow edges in `TRANSACTION_IN_PROGRESS`,
the wait in `TRANSACTION_END`, and one edge each in `WAIT_TRANSACTION` and `WAIT_CS`. The only thing
that varies is the residue `d` of the delay counter at the start, which shortens the wait.

## Main definitions

* `frameAt d p`: the registers `p` slow edges after the fall of `SPI_CS`
* `frameSclk`, `frameMosi`: the levels of `SPI_SCLK` and `SPI_MOSI` along a frame

## Main results

* `stepsIn_frameSclk_rises`, `stepsIn_frameSclk_falls`: the clock edges of a frame
* `slowEdge_frameAt`, `slowEdge_frameAt_last`: a slow edge advances the schedule
* `iterate_slowEdge_waitReset`: the ADC reset lasts as long as its counter lacks
* `iterate_slowEdge_repeat`: from the first frame on, the schedule repeats with period 250068
-/

namespace ADS131A0X

open Waveform

namespace SingleClock

/-- The registers `p` slow edges after the fall of `SPI_CS`, when the delay counter held `d`. -/
def frameAt (d p : ℕ) : SingleClock :=
  -- the bits, two slow periods each
  if p ≤ 64 then
    { phase := .transactionInProgress
      spiCs := false
      spiMosi := mosiLevel p
      spiSclk := decide (p % 2 = 1)
      adcResetCount := 21
      delayCounter := d
      clockCycles := p }
  -- `TRANSACTION_END` is entered; `SPI_CS` follows one slow edge later
  else if p = 65 then
    { phase := .transactionEnd
      spiCs := false
      spiMosi := mosiLevel 64
      spiSclk := false
      adcResetCount := 21
      delayCounter := d
      clockCycles := 64 }
  -- the delay, one edge in `WAIT_TRANSACTION` and one in `WAIT_CS`
  else
    { phase :=
        if d + p ≤ 250065 then .transactionEnd
        else if d + p = 250066 then .waitTransaction
        else .waitCs
      spiMosi := mosiLevel 64
      spiSclk := false
      adcResetCount := 21
      delayCounter := if d + p ≤ 250065 then d + p - 65 else 0 }

theorem frameAt_of_le {d p : ℕ} (h : p ≤ 64) :
    frameAt d p =
      { phase := .transactionInProgress
        spiCs := false
        spiMosi := mosiLevel p
        spiSclk := decide (p % 2 = 1)
        adcResetCount := 21
        delayCounter := d
        clockCycles := p } := if_pos h

theorem frameAt_65 (d : ℕ) :
    frameAt d 65 =
      { phase := .transactionEnd
        spiCs := false
        spiMosi := mosiLevel 64
        spiSclk := false
        adcResetCount := 21
        delayCounter := d
        clockCycles := 64 } := rfl

theorem frameAt_of_wait {d p : ℕ} (h : 65 < p) (hw : d + p ≤ 250065) :
    frameAt d p =
      { phase := .transactionEnd
        spiMosi := mosiLevel 64
        spiSclk := false
        adcResetCount := 21
        delayCounter := d + p - 65 } := by
  rw [frameAt, if_neg (by omega), if_neg (by omega), if_pos hw, if_pos hw]

theorem frameAt_of_ready {d p : ℕ} (h : 65 < p) (hw : d + p = 250066) :
    frameAt d p =
      { phase := .waitTransaction
        spiMosi := mosiLevel 64
        spiSclk := false
        adcResetCount := 21 } := by
  rw [frameAt, if_neg (by omega), if_neg (by omega), if_neg (by omega), if_pos hw,
    if_neg (by omega)]

theorem frameAt_of_last {d p : ℕ} (h : 65 < p) (hw : d + p = 250067) :
    frameAt d p =
      { phase := .waitCs
        spiMosi := mosiLevel 64
        spiSclk := false
        adcResetCount := 21 } := by
  rw [frameAt, if_neg (by omega), if_neg (by omega), if_neg (by omega), if_neg (by omega),
    if_neg (by omega)]

/-- A slow edge with `reset_n` high advances the schedule. -/
theorem slowEdge_frameAt {d p : ℕ} (hd : d ≤ 250000) (hp : d + p < 250067) :
    (frameAt d p).slowEdge true = frameAt d (p + 1) := by
  rcases lt_trichotomy p 64 with h | rfl | h
  -- a bit goes on: `SPI_SCLK` toggles with the count
  · have hodd : (!decide (p % 2 = 1)) = decide ((p + 1) % 2 = 1) := by
      rcases Nat.mod_two_eq_zero_or_one p with h2 | h2 <;> simp [Nat.add_mod, h2]
    rw [frameAt_of_le (show p ≤ 64 by omega), frameAt_of_le (show p + 1 ≤ 64 by omega)]
    simp [slowEdge, clocked, latch, nextPhase, h, h.ne, hodd]
  -- the count is at its end
  · rfl
  · by_cases h65 : p = 65
    -- the first slow edge of `TRANSACTION_END` raises `SPI_CS`
    · subst h65
      rw [frameAt_65]
      by_cases hw : d = 250000
      · rw [frameAt_of_ready (by omega) (by omega)]
        simp [slowEdge, clocked, latch, nextPhase, hw]
      · rw [frameAt_of_wait (by omega) (by omega)]
        simp [slowEdge, clocked, latch, nextPhase, hw]
    -- then the delay counter runs, and two states lead to the next frame
    · by_cases hw : d + p ≤ 250065
      · rw [frameAt_of_wait (by omega) hw]
        by_cases hlast : d + p = 250065
        · rw [frameAt_of_ready (by omega) (by omega)]
          simp [slowEdge, clocked, latch, nextPhase, hlast]
        · have hne : d + p - 65 ≠ 250000 := by omega
          have hadd : d + p - 65 + 1 = d + (p + 1) - 65 := by omega
          rw [frameAt_of_wait (by omega) (by omega)]
          simp [slowEdge, clocked, latch, nextPhase, hne, hadd]
      · rw [frameAt_of_ready (by omega) (by omega), frameAt_of_last (by omega) (by omega)]
        rfl

/-- The last slow edge of the schedule starts the next frame, with a clear delay counter. -/
theorem slowEdge_frameAt_last {d p : ℕ} (h : 65 < p) (hp : d + p = 250067) :
    (frameAt d p).slowEdge true = frameAt 0 0 := by
  rw [frameAt_of_last h hp]
  rfl

/-! ## The levels along a frame -/

/-- The level of `SPI_SCLK` along a frame. -/
def frameSclk : Signal := fun p => decide (min p 64 % 2 = 1)

/-- The level of `SPI_MOSI` along a frame. -/
def frameMosi : Signal := fun p => mosiLevel (min p 64)

section Levels

variable (d p : ℕ)

@[simp] theorem frameAt_spiCs : (frameAt d p).spiCs = decide (65 < p) := by
  unfold frameAt
  split_ifs <;> simp <;> omega

@[simp] theorem frameAt_spiReset : (frameAt d p).spiReset = true := by
  unfold frameAt
  split_ifs <;> rfl

@[simp] theorem frameAt_spiSclk : (frameAt d p).spiSclk = frameSclk p := by
  by_cases h : p ≤ 64
  · rw [frameAt_of_le h, frameSclk, Nat.min_eq_left h]
  · rw [frameSclk, Nat.min_eq_right (by omega)]
    unfold frameAt
    split_ifs <;> rfl

@[simp] theorem frameAt_spiMosi : (frameAt d p).spiMosi = frameMosi p := by
  by_cases h : p ≤ 64
  · rw [frameAt_of_le h, frameMosi, Nat.min_eq_left h]
  · rw [frameMosi, Nat.min_eq_right (by omega)]
    unfold frameAt
    split_ifs <;> rfl

end Levels

/-- The clock edges of the schedule: a rising edge at every even position below 64. -/
theorem stepsIn_frameSclk_rises :
    stepsIn frameSclk.RisesAt 0 65 = (List.range 32).map fun k => 2 * k := by
  decide +kernel

/-- The clock edges of the schedule: a falling edge at every odd position below 64. -/
theorem stepsIn_frameSclk_falls :
    stepsIn frameSclk.FallsAt 0 65 = (List.range 32).map fun k => 2 * k + 1 := by
  decide +kernel

/-! ## Repetition -/

theorem iterate_slowEdge_frameAt {d p : ℕ} (hd : d ≤ 250000) (hp : d + p < 250068) :
    (slowEdge true)^[p] (frameAt d 0) = frameAt d p := by
  induction p with
  | zero => rfl
  | succ p ih =>
    rw [Function.iterate_succ_apply', ih (by omega), slowEdge_frameAt hd (by omega)]

/-- After `250068 - d` slow edges the next frame starts. -/
theorem iterate_slowEdge_period {d : ℕ} (hd : d ≤ 250000) :
    (slowEdge true)^[250068 - d] (frameAt d 0) = frameAt 0 0 := by
  rw [show 250068 - d = (250067 - d) + 1 by omega, Function.iterate_succ_apply',
    iterate_slowEdge_frameAt hd (by omega), slowEdge_frameAt_last (by omega) (by omega)]

/-- **From a frame with a clear delay counter on, the schedule repeats.** -/
theorem iterate_slowEdge_repeat (m : ℕ) {r : ℕ} (hr : r < 250068) :
    (slowEdge true)^[250068 * m + r] (frameAt 0 0) = frameAt 0 r := by
  induction m with
  | zero =>
    rw [Nat.mul_zero, Nat.zero_add]
    exact iterate_slowEdge_frameAt (by omega) (by omega)
  | succ m ih =>
    rw [show 250068 * (m + 1) + r = (250068 * m + r) + 250068 by omega, Function.iterate_add_apply,
      iterate_slowEdge_period (d := 0) (by omega), ih]

/-- The first frame starts 26 slow edges after power-up. -/
theorem iterate_slowEdge_powerUp : (slowEdge true)^[26] {} = frameAt 0 0 := by
  decide +kernel

/-! ## The ADC reset -/

/-- In `WAIT_RESET` the counter counts modulo 256 until it is 20. -/
theorem iterate_slowEdge_waitReset {s : SingleClock} (hp : s.phase = .waitReset)
    (hc : s.adcResetCount < 256) {k : ℕ} (hk : k ≤ (276 - s.adcResetCount) % 256) :
    ((slowEdge true)^[k] s).phase = .waitReset ∧
      ((slowEdge true)^[k] s).adcResetCount = (s.adcResetCount + k) % 256 := by
  induction k with
  | zero => exact ⟨hp, (Nat.mod_eq_of_lt hc).symm⟩
  | succ k ih =>
    obtain ⟨hphase, hcount⟩ := ih (by omega)
    have hne : (s.adcResetCount + k) % 256 ≠ 20 := by omega
    rw [Function.iterate_succ_apply']
    constructor
    · rw [slowEdge_phase, if_pos rfl, nextPhase_eq_waitReset, hcount]
      exact Or.inr ⟨hphase, hne⟩
    · rw [slowEdge_adcResetCount, if_pos hphase, hcount]
      omega

/-- The state `WAIT_RESET` is left after the number of slow edges that its counter lacks. -/
theorem iterate_slowEdge_waitReset_last {s : SingleClock} (hp : s.phase = .waitReset)
    (hc : s.adcResetCount < 256) :
    ((slowEdge true)^[(276 - s.adcResetCount) % 256 + 1] s).phase = .waitTransaction := by
  obtain ⟨hphase, hcount⟩ := iterate_slowEdge_waitReset hp hc le_rfl
  rw [Function.iterate_succ_apply', slowEdge_phase, if_pos rfl, nextPhase_eq_waitTransaction, hcount]
  exact Or.inl ⟨hphase, by omega⟩

end SingleClock

end ADS131A0X
