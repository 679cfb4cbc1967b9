import ADS131A0X.Driver.Frame

/-!
# The reset of the ADC

The machine holds `SPI_RESET` low in `WAIT_RESET` and releases it in `WAIT_TRANSACTION`. Neither
`SPI_RESET` nor the counter of `WAIT_RESET` is cleared by `reset_n`: a pass that `reset_n`
interrupts leaves the pin low and the counter where it is, and the next pass goes on from there.
What survives is a lower bound on the length of a low pulse, counted from its falling edge, and
that no frame starts before the pulse has ended.

## Main definitions

* `Run.AdcReleased`: `SPI_RESET` has risen since the last falling edge of `reset_n`

## Main results

* `Run.slowEdges_add_le_of_lowPulse`: the length of a low pulse
* `Run.adcReleased`: in which states the ADC has been released
* `Run.adc_reset_before_traffic`: no frame without a finished reset pulse of at least 21 periods
-/

namespace ADS131A0X

open Waveform SingleClock

namespace Run

variable {ρ : Run} {i j n : ℕ}

/-! ## The reset pulse -/

/-- The pins `SPI_RESET` and `SPI_CS` are never low together. -/
theorem spiCs_of_spiReset_low (h : ρ.spiReset n = false) : ρ.spiCs n = true := by
  rw [spiReset_eq] at h
  rw [spiCs_eq]
  exact (ρ.regs_valid n).spiReset_low h

/-- `SPI_RESET` moves at slow edges. -/
theorem slowEdgeAt_of_spiReset (h : ρ.spiReset.ChangesAt n) : ρ.SlowEdgeAt n := by
  by_contra hn
  exact h (spiReset_rest hn)

/-- `SPI_RESET` falls in `WAIT_RESET`, where the counter is 0 or has its value after a full pass. -/
theorem regs_of_spiReset_falls (h : ρ.spiReset.FallsAt i) :
    ρ.SlowEdgeAt i ∧
      ((ρ.regs (i + 1)).adcResetCount = 1 ∨ (ρ.regs (i + 1)).adcResetCount = 22) := by
  have hs := slowEdgeAt_of_spiReset (Signal.changesAt_iff.mpr (Or.inr h))
  refine ⟨hs, ?_⟩
  obtain ⟨h0, h1⟩ := h
  rw [spiReset_eq] at h0
  rw [spiReset_eq, regs_of_slowEdgeAt hs, slowEdge_spiReset] at h1
  have hp : (ρ.regs i).phase = .waitReset := by
    by_contra hp
    rw [if_neg hp, h0] at h1
    simp at h1
  rw [regs_of_slowEdgeAt hs, slowEdge_adcResetCount, if_pos hp]
  rcases (ρ.regs_valid i).adcResetCount_high h0 with hc | hc
  · exact Or.inl (by rw [hc])
  · exact Or.inr (by rw [hc])

/-- `SPI_RESET` rises in `WAIT_TRANSACTION`, with the counter one past its exit value. -/
theorem regs_of_spiReset_rises (h : ρ.spiReset.RisesAt j) :
    ρ.SlowEdgeAt j ∧ (ρ.regs j).phase = .waitTransaction ∧ (ρ.regs j).adcResetCount = 21 := by
  have hs := slowEdgeAt_of_spiReset (Signal.changesAt_iff.mpr (Or.inl h))
  obtain ⟨h0, h1⟩ := h
  rw [spiReset_eq] at h0
  rw [spiReset_eq, regs_of_slowEdgeAt hs, slowEdge_spiReset, h0] at h1
  have hp : (ρ.regs j).phase = .waitTransaction := by
    by_contra hp
    simp [hp] at h1
  exact ⟨hs, hp, (ρ.regs_valid j).adcResetCount_released (Or.inl hp)⟩

/-- Along a low pulse the counter cannot reach its exit value early: it started at 1 or at 22, and
moves by one at most. -/
theorem adcResetCount_of_lowSince (h : ρ.spiReset.LowSince i n) :
    20 ≤ ρ.position i n ∨ (ρ.regs n).adcResetCount ≤ ρ.position i n + 1 ∨
      22 ≤ (ρ.regs n).adcResetCount ∧ (ρ.regs n).adcResetCount ≤ 22 + ρ.position i n := by
  refine h.induction (P := fun n => 20 ≤ ρ.position i n ∨
    (ρ.regs n).adcResetCount ≤ ρ.position i n + 1 ∨
      22 ≤ (ρ.regs n).adcResetCount ∧ (ρ.regs n).adcResetCount ≤ 22 + ρ.position i n) ?_ ?_
  · rw [position_first]
    have hfirst := (regs_of_spiReset_falls h.falls).2
    omega
  · intro k hk _ ih
    by_cases hs : ρ.SlowEdgeAt k
    -- the bounds grow by one and the counter by one at most, or it wraps to 0
    · rw [position_succ_of_slowEdgeAt hk.lt hs, regs_of_slowEdgeAt hs, slowEdge_adcResetCount]
      split <;> omega
    · rw [position_succ_of_not hs, regs_of_not_slowEdgeAt hs]
      exact ih

/-- A low pulse of `SPI_RESET` lasts at least 21 slow periods. -/
theorem slowEdges_add_le_of_lowPulse (h : ρ.spiReset.LowPulse i j) :
    ρ.slowEdges i + 21 ≤ ρ.slowEdges j := by
  have hs := (regs_of_spiReset_falls h.falls).1
  have hcount := adcResetCount_of_lowSince h.toLowSince
  obtain ⟨-, -, hexit⟩ := regs_of_spiReset_rises h.risesAt
  have hpos : 20 ≤ ρ.position i j := by omega
  rw [position, slowEdges_succ_of_slowEdgeAt _ _ hs] at hpos
  omega

/-! ## No frame before the release -/

/-- `SPI_RESET` has risen since the last falling edge of `reset_n`. -/
def AdcReleased (ρ : Run) (n : ℕ) : Prop :=
  ∃ k < n, ρ.spiReset.RisesAt k ∧ ∀ a < n, ρ.resetN.FallsAt a → a < k

/-- Only a falling edge of `reset_n` takes the release back. -/
theorem AdcReleased.succ (h : ρ.AdcReleased n) (hn : ¬ ρ.resetN.FallsAt n) :
    ρ.AdcReleased (n + 1) := by
  obtain ⟨k, hk, hr, hlast⟩ := h
  refine ⟨k, by omega, hr, ?_⟩
  intro a ha hf
  rcases Nat.lt_succ_iff_lt_or_eq.mp ha with ha | rfl
  · exact hlast a ha hf
  · exact absurd hf hn

/-- A rising edge of `SPI_RESET` is a release. -/
theorem adcReleased_of_risesAt (h : ρ.spiReset.RisesAt n) (hn : ¬ ρ.resetN.FallsAt n) :
    ρ.AdcReleased (n + 1) := by
  refine ⟨n, n.lt_succ_self, h, ?_⟩
  intro a ha hf
  rcases Nat.lt_succ_iff_lt_or_eq.mp ha with ha | rfl
  · exact ha
  · exact absurd hf hn

/-- A slow edge is not an edge of `reset_n`. -/
theorem not_resetN_falls (h : ρ.SlowEdgeAt n) : ¬ ρ.resetN.FallsAt n := by
  rcases ρ.regs_succ n with ⟨-, hr, -⟩ | ⟨hn, -⟩ | ⟨hn, -⟩
  · exact Signal.not_fallsAt_of_eq hr
  · exact absurd h hn
  · exact absurd h hn

/-- **In the states past the ADC reset, the ADC has been released**, except in the first slow
period of `WAIT_TRANSACTION` after the reset, whose slow edge is the release. -/
theorem adcReleased (ρ : Run) (n : ℕ) (h : (ρ.regs n).phase.Released)
    (hw : (ρ.regs n).phase = .waitTransaction → ρ.spiReset n = true) : ρ.AdcReleased n := by
  induction n with
  | zero => exact absurd h (by simp [regs_zero, Phase.Released])
  | succ n ih =>
    rcases ρ.regs_succ n with ⟨hs, -, hregs⟩ | ⟨-, -, hregs⟩ | ⟨-, hf, hregs⟩
    -- a slow edge: from a state past the ADC reset, or by the end of `WAIT_RESET`
    · have hf := not_resetN_falls hs
      have hp := h
      rw [hregs] at hp
      rcases released_of_slowEdge hp with hp | ⟨hp, hreset, -⟩
      · by_cases hrise : ρ.spiReset.RisesAt n
        · exact adcReleased_of_risesAt hrise hf
        · refine (ih hp fun hwait => ?_).succ hf
          -- without a rise here, `SPI_RESET` was high already, as `WAIT_TRANSACTION` raises it
          by_contra hlow
          refine hrise ⟨by simpa using hlow, ?_⟩
          rw [spiReset_eq, hregs, slowEdge_spiReset, hwait]
          rfl
      · have hhigh := hw (hregs ▸ hp)
        rw [spiReset_eq, hregs, slowEdge_spiReset, if_pos hreset] at hhigh
        cases hhigh
    -- a clear leaves these states
    · rw [hregs] at h
      exact absurd h (by simp [SingleClock.clear, Phase.Released])
    -- nothing moves
    · have hreset : ρ.spiReset (n + 1) = ρ.spiReset n := by rw [spiReset_eq, spiReset_eq, hregs]
      rw [hregs] at h hw
      rw [hreset] at hw
      exact (ih h hw).succ hf

/-- **ADC reset before traffic.** `SPI_CS` is high while `SPI_RESET` is low; every low pulse of
`SPI_RESET` lasts at least 21 slow periods of 8 ticks; and before `SPI_CS` falls, `SPI_RESET` has
risen since the last falling edge of `reset_n`, or since power-up if there was none. -/
theorem adc_reset_before_traffic (ρ : Run) :
    (∀ n, ρ.spiReset n = false → ρ.spiCs n = true) ∧
    (∀ i j, ρ.spiReset.LowPulse i j →
      ρ.slowEdges i + 21 ≤ ρ.slowEdges j ∧ ρ.ticks i + 8 * 21 ≤ ρ.ticks j) ∧
    (∀ j, ρ.spiCs.FallsAt j →
      ∃ k < j, ρ.spiReset.RisesAt k ∧ ∀ a < j, ρ.resetN.FallsAt a → a < k) := by
  refine ⟨fun n => spiCs_of_spiReset_low, ?_, ?_⟩
  · intro i j h
    have hle := slowEdges_add_le_of_lowPulse h
    have hti := ρ.ticks_of_slowEdgeAt i (regs_of_spiReset_falls h.falls).1
    have htj := ρ.ticks_of_slowEdgeAt j (regs_of_spiReset_rises h.risesAt).1
    exact ⟨hle, by omega⟩
  · intro j h
    obtain ⟨-, hp, -⟩ := regs_of_spiCs_falls h
    exact ρ.adcReleased j (Or.inr (Or.inl hp)) (by simp [hp])

/-- The first reset pulse of the free run, which has the least length, and the frame after it. -/
theorem adc_reset_before_traffic_freeRun :
    (freeRun false).spiReset.LowPulse 27 195 ∧
      (freeRun false).ticks 27 + 8 * 21 ≤ (freeRun false).ticks 195 ∧
      (freeRun false).spiCs.FallsAt 203 ∧
      ∃ k < 203, (freeRun false).spiReset.RisesAt k ∧
        ∀ a < 203, (freeRun false).resetN.FallsAt a → a < k := by
  have hreset : ∀ n, (freeRun false).spiReset n =
      ((slowEdge true)^[(n + 4) / 8] {}).spiReset := by
    intro n
    rw [spiReset_eq, regs_eq_iterate_powerUp (freeRun_resetHigh false _ _), freeRun_slowEdges]
  have hlow : ∀ e < 25, 3 < e → ((slowEdge true)^[e] {}).spiReset = false := by decide +kernel
  have hpulse : (freeRun false).spiReset.LowPulse 27 195 := by
    refine ⟨⟨⟨?_, ?_⟩, by omega, fun k hk hk' => ?_⟩, ?_⟩
    · rw [hreset]
      decide +kernel
    · rw [hreset]
      exact hlow _ (by omega) (by omega)
    · rw [hreset]
      exact hlow _ (by omega) (by omega)
    · rw [hreset]
      decide +kernel
  obtain ⟨-, hlength, hrelease⟩ := adc_reset_before_traffic (freeRun false)
  have hcs := (freeRun_lowPulse false).falls
  exact ⟨hpulse, (hlength 27 195 hpulse).2, hcs, hrelease 203 hcs⟩

end Run

end ADS131A0X
