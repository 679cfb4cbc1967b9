import ADS131A0X.SingleClock.Basic

/-!
# The invariant of the single-clock machine

What the registers of the single-clock machine satisfy in every run: the bounds of its counters,
the levels that the pins have in each state, and what the residue of the ADC reset counter can be.
None of the counters is cleared by `reset_n`, so the invariant has to survive a clear of the state
anywhere.

## Main definitions

* `Phase.Preparing`, `Phase.Released`: the states before a frame, and those after the ADC reset
* `SingleClock.Valid`: the invariant

## Main results

* `SingleClock.Valid.slowEdge`, `SingleClock.Valid.clear`: the invariant is kept by what can
  happen
* `Run.valid`: it holds along every run
-/

namespace ADS131A0X

open Transition

namespace Phase

/-- The states in which the machine waits for the start of a frame. -/
def Preparing (p : Phase) : Prop :=
  p = .idle ∨ p = .setup ∨ p = .waitReset ∨ p = .waitTransaction ∨ p = .waitCs

/-- The states that are entered through the end of `WAIT_RESET`. -/
def Released (p : Phase) : Prop :=
  p = .waitTransaction ∨ p = .waitCs ∨ p = .transactionInProgress ∨ p = .transactionEnd

end Phase

namespace SingleClock

/-- The states past the ADC reset are entered from each other, or by the end of `WAIT_RESET`. -/
theorem released_of_slowEdge {s : SingleClock} {r : Bool} (h : (s.slowEdge r).phase.Released) :
    s.phase.Released ∨
      (s.slowEdge r).phase = .waitTransaction ∧ s.phase = .waitReset ∧ s.adcResetCount = 20 := by
  rcases h with h | h | h | h
  · obtain ⟨-, hn⟩ := (slowEdge_phase_eq_iff _ _ (by simp)).mp h
    -- `WAIT_TRANSACTION` has two ways in
    rcases (nextPhase_eq_waitTransaction s).mp hn with ⟨hp, hc⟩ | ⟨hp, -⟩
    · exact Or.inr ⟨h, hp, hc⟩
    · exact Or.inl (Or.inr (Or.inr (Or.inr hp)))
  · obtain ⟨-, hn⟩ := (slowEdge_phase_eq_iff _ _ (by simp)).mp h
    exact Or.inl (Or.inl ((nextPhase_eq_waitCs s).mp hn))
  · obtain ⟨-, hn⟩ := (slowEdge_phase_eq_iff _ _ (by simp)).mp h
    rcases (nextPhase_eq_transactionInProgress s).mp hn with hp | ⟨hp, -⟩
    · exact Or.inl (Or.inr (Or.inl hp))
    · exact Or.inl (Or.inr (Or.inr (Or.inl hp)))
  · obtain ⟨-, hn⟩ := (slowEdge_phase_eq_iff _ _ (by simp)).mp h
    rcases (nextPhase_eq_transactionEnd s).mp hn with ⟨hp, -⟩ | ⟨hp, -⟩
    · exact Or.inl (Or.inr (Or.inr (Or.inl hp)))
    · exact Or.inl (Or.inr (Or.inr (Or.inr hp)))

/-- The state `WAIT_RESET` is none of those past the ADC reset. -/
theorem ne_waitReset_of_released {p : Phase} (h : p.Released) : p ≠ .waitReset := by
  rcases h with rfl | rfl | rfl | rfl <;> simp

/-- The invariant of the registers. The last exception of `spiSclk` is the state at power-up, in
which `SPI_SCLK` is high. -/
structure Valid (s : SingleClock) : Prop where
  adcResetCount_lt : s.adcResetCount < 256
  delayCounter_le : s.delayCounter ≤ 250000
  clockCycles_le : s.clockCycles ≤ 64
  spiCs_preparing : s.phase.Preparing → s.spiCs = true
  spiCs_inProgress : s.phase = .transactionInProgress → s.spiCs = false
  clockCycles_high : s.spiCs = true → s.clockCycles = 0
  clockCycles_end : s.phase = .transactionEnd → s.spiCs = false → s.clockCycles = 64
  spiSclk : s.spiSclk = decide (s.clockCycles % 2 = 1) ∨ s = {}
  spiMosi : s.spiCs = false → s.spiMosi = mosiLevel s.clockCycles
  spiReset_low : s.spiReset = false → s.spiCs = true
  spiReset_released : s.phase.Released → s.phase ≠ .waitTransaction → s.spiReset = true
  adcResetCount_released : s.phase.Released → s.adcResetCount = 21
  adcResetCount_high : s.spiReset = true → s.adcResetCount = 0 ∨ s.adcResetCount = 21

/-- Outside `RESET` the level of `SPI_SCLK` is the parity of the count. -/
theorem Valid.spiSclk_of_ne_reset {s : SingleClock} (h : s.Valid) (hp : s.phase ≠ .reset) :
    s.spiSclk = decide (s.clockCycles % 2 = 1) := by
  refine h.spiSclk.resolve_right fun h0 => hp ?_
  rw [h0]

theorem Valid.init : Valid {} := by
  constructor <;> simp [Phase.Preparing, Phase.Released]

theorem Valid.clear {s : SingleClock} (h : s.Valid) : s.clear.Valid where
  adcResetCount_lt := h.adcResetCount_lt
  delayCounter_le := h.delayCounter_le
  clockCycles_le := h.clockCycles_le
  spiCs_preparing := by simp [SingleClock.clear, Phase.Preparing]
  spiCs_inProgress := by simp [SingleClock.clear]
  clockCycles_high := h.clockCycles_high
  clockCycles_end := by simp [SingleClock.clear]
  spiSclk := h.spiSclk.imp id fun h0 => by simp [h0, SingleClock.clear]
  spiMosi := h.spiMosi
  spiReset_low := h.spiReset_low
  spiReset_released := by simp [SingleClock.clear, Phase.Released]
  adcResetCount_released := by simp [SingleClock.clear, Phase.Released]
  adcResetCount_high := h.adcResetCount_high

theorem Valid.slowEdge {s : SingleClock} {r : Bool} (h : s.Valid)
    (hr : r = false → s.phase = .reset) : (s.slowEdge r).Valid where
  adcResetCount_lt := by
    have := h.adcResetCount_lt
    rw [slowEdge_adcResetCount]
    split <;> omega
  delayCounter_le := by
    have := h.delayCounter_le
    rw [slowEdge_delayCounter]
    split_ifs <;> omega
  clockCycles_le := by
    have := h.clockCycles_le
    rw [slowEdge_clockCycles]
    split_ifs <;> omega
  spiCs_preparing := by
    intro hp
    rw [slowEdge_spiCs, if_neg]
    -- the two states that pull `SPI_CS` low lead to no state before a frame
    rintro (hs | hs) <;> cases r <;>
      simp [Phase.Preparing, slowEdge_phase, nextPhase, hs, ite_eq_iff] at hp
  spiCs_inProgress := by
    intro hp
    rw [slowEdge_phase_eq_iff _ _ (by simp)] at hp
    rw [slowEdge_spiCs, if_pos]
    exact (nextPhase_eq_transactionInProgress s).mp hp.2 |>.imp id And.left
  clockCycles_high := by
    intro hcs
    rw [slowEdge_clockCycles, if_neg]
    intro hp
    simp [hp] at hcs
  clockCycles_end := by
    intro hp hcs
    obtain ⟨-, hn⟩ := (slowEdge_phase_eq_iff _ _ (by simp)).mp hp
    rcases (nextPhase_eq_transactionEnd s).mp hn with ⟨hs, hc⟩ | ⟨hs, -⟩
    -- the frame has just ended: the count rests at 64
    · simp [hs, hc]
    -- the wait goes on: `SPI_CS` is high
    · simp [hs] at hcs
  spiSclk := by
    left
    rw [slowEdge_spiSclk, slowEdge_clockCycles]
    by_cases hp : s.phase = .transactionInProgress
    -- the level and the count move together, or not at all
    · have hs := h.spiSclk_of_ne_reset (by simp [hp])
      rw [if_pos hp, if_pos hp, hs]
      split
      · rcases Nat.mod_two_eq_zero_or_one s.clockCycles with h2 | h2 <;> simp [Nat.add_mod, h2]
      · rfl
    · rw [if_neg hp, if_neg hp]
      rfl
  spiMosi := by
    intro hcs
    rw [slowEdge_spiMosi]
    split
    · rfl
    · next hp =>
      -- `SPI_CS` stays low past the latch only at the end of the count, where the count rests
      rw [slowEdge_spiCs] at hcs
      have hr' : r = true := by
        cases r
        · simp [hr rfl] at hcs
        · rfl
      rw [slowEdge_phase_eq_iff _ _ (by simp), nextPhase_eq_transactionInProgress] at hp
      have hs : s.phase = .transactionInProgress ∧ s.clockCycles = 64 := by
        by_cases hw : s.phase = .waitCs
        · exact absurd ⟨hr', Or.inl hw⟩ hp
        · have ht : s.phase = .transactionInProgress := by simpa [hw] using hcs
          refine ⟨ht, ?_⟩
          by_contra hc
          exact hp ⟨hr', Or.inr ⟨ht, hc⟩⟩
      rw [slowEdge_clockCycles, if_pos hs.1, if_neg (by omega)]
      exact h.spiMosi (h.spiCs_inProgress hs.1)
  spiReset_low := by
    intro hlow
    rw [slowEdge_spiCs, if_neg]
    intro hp
    -- the states that pull `SPI_CS` low come after the release of `SPI_RESET`
    have hs : s.phase.Released ∧ s.phase ≠ .waitTransaction := by
      rcases hp with hp | hp <;> simp [Phase.Released, hp]
    rw [slowEdge_spiReset, if_neg (ne_waitReset_of_released hs.1), if_neg hs.2,
      h.spiReset_released hs.1 hs.2] at hlow
    cases hlow
  spiReset_released := by
    intro hp hw
    rcases released_of_slowEdge hp with hs | ⟨hw', -⟩
    · rw [slowEdge_spiReset, if_neg (ne_waitReset_of_released hs)]
      split
      · rfl
      · next hne => exact h.spiReset_released hs hne
    · exact absurd hw' hw
  adcResetCount_released := by
    intro hp
    rcases released_of_slowEdge hp with hs | ⟨-, hs, hc⟩
    -- past the ADC reset the counter rests
    · rw [slowEdge_adcResetCount, if_neg (ne_waitReset_of_released hs)]
      exact h.adcResetCount_released hs
    -- the exit of `WAIT_RESET` counts once more, from 20
    · rw [slowEdge_adcResetCount, if_pos hs, hc]
  adcResetCount_high := by
    intro hhigh
    rw [slowEdge_spiReset] at hhigh
    by_cases hs : s.phase = .waitReset
    · simp [hs] at hhigh
    -- `SPI_RESET` is raised by `WAIT_TRANSACTION`, or was high before
    rw [slowEdge_adcResetCount, if_neg hs]
    by_cases hw : s.phase = .waitTransaction
    · exact Or.inr (h.adcResetCount_released (Or.inl hw))
    · rw [if_neg hs, if_neg hw] at hhigh
      exact h.adcResetCount_high hhigh

/-- `SPI_CS` is low in a transaction, up to the slow edge after its end or after a clear. -/
theorem Valid.phase_of_spiCs_low {s : SingleClock} (h : s.Valid) (hcs : s.spiCs = false) :
    s.phase = .reset ∨ s.phase = .transactionInProgress ∨ s.phase = .transactionEnd := by
  have hp : ¬ s.phase.Preparing := fun hp => by simp [h.spiCs_preparing hp] at hcs
  cases hs : s.phase <;> simp [Phase.Preparing, hs] at hp ⊢

/-- `SPI_CS` falls from `WAIT_CS` only: the other state that pulls it low has it low already. -/
theorem Valid.phase_of_spiCs_falls {s : SingleClock} (h : s.Valid) {r : Bool}
    (h0 : s.spiCs = true) (h1 : (s.slowEdge r).spiCs = false) : s.phase = .waitCs := by
  rw [slowEdge_spiCs] at h1
  by_contra hp
  have ht : s.phase = .transactionInProgress := by simpa [hp] using h1
  rw [h.spiCs_inProgress ht] at h0
  cases h0

/-- Between the edges the latch holds its level. -/
theorem Valid.latch {s : SingleClock} (h : s.Valid) : s.latch = s := by
  by_cases hp : s.phase = .transactionInProgress
  · have hm := h.spiMosi (h.spiCs_inProgress hp)
    rw [latch_eq, if_pos hp, ← hm]
  · rw [latch_eq, if_neg hp]

end SingleClock

/-! ## Whole runs -/

/-- The invariant of the machine with its time: while `reset_n` is low the state is `RESET`, and
the slow edges taken are those of the ticks 4, 12, 20, ... -/
structure Timed.Valid (y : Timed) : Prop where
  regs : y.regs.Valid
  reset_low : y.resetN = false → y.regs.phase = .reset
  slowEdges : y.slowEdges = (y.ticks + 4) / 8

theorem Timed.Valid.step {y : Timed} (h : y.Valid) (e : Event) : (y.step e).Valid := by
  cases e with
  | systemClock =>
    have hs := h.slowEdges
    by_cases he : (y.ticks + 1) % 8 = 4
    · rw [Timed.step_slow he]
      refine ⟨h.regs.slowEdge h.reset_low, ?_, ?_⟩
      · intro hr
        have hr' : y.resetN = false := hr
        simp [hr']
      · show y.slowEdges + 1 = (y.ticks + 1 + 4) / 8
        omega
    · rw [Timed.step_quiet he]
      refine ⟨h.regs, h.reset_low, ?_⟩
      show y.slowEdges = (y.ticks + 1 + 4) / 8
      omega
  | resetN level =>
    refine ⟨?_, ?_, h.slowEdges⟩
    · simp only [Timed.step]
      split
      · exact h.regs.clear
      · exact h.regs
    · intro hr
      have hl : level = false := hr
      cases hy : y.resetN with
      | false => simpa [Timed.step, hy] using h.reset_low hy
      | true => simp [Timed.step, hy, hl, SingleClock.clear]
  | spiMiso level => exact h

/-- **The invariant holds along every run.** -/
theorem Run.valid (ρ : Run) (n : ℕ) : (ρ.timed n).Valid :=
  Machine.run_invariant ⟨.init, fun _ => rfl, show 0 = (0 + 4) / 8 by decide⟩ (fun _ e h => h.step e) _ n

end ADS131A0X
