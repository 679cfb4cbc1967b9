import ADS131A0X.Driver.Progress

/-!
# After the last reset

What the resets of the past can do to the frames to come. The delay counter can be left anywhere, so
the first gap can be as short as two slow periods, but not shorter; and one frame later nothing is left
of the past: the run is on the schedule of the free run for ever.

## Main definitions

* `SingleClock.soonest`: the slow edges to the next frame, if the delay is skipped

## Main results

* `SingleClock.soonest_slowEdge`, `SingleClock.soonest_clear`: no event skips more than one
* `Run.frames_spaced`: frames are at least 68 slow periods apart, whatever `reset_n` does
* `Run.settles`: the schedule after the last reset
-/

namespace ADS131A0X

open Transition Waveform

namespace SingleClock

variable {s : SingleClock}

/-! ## The shortest way to a frame -/

/-- The number of slow edges before the one at which `SPI_CS` falls, at least. The delay counter can
be at its end, and a reset leads to the ADC reset. -/
def soonest (s : SingleClock) : ℕ :=
  match s.phase with
  | .transactionInProgress => 67 - s.clockCycles
  | .transactionEnd => 2
  | _ => s.edgesLeft

theorem soonest_frameAt (d : ℕ) : (frameAt d 0).soonest = 67 := rfl

theorem soonest_of_waitCs (hp : s.phase = .waitCs) : s.soonest = 0 := by
  rw [soonest, hp]
  simp [edgesLeft, hp]

/-- A slow edge takes off one at most. -/
theorem soonest_slowEdge (h : s.Valid) {r : Bool} (hr : r = false → s.phase = .reset) :
    s.soonest ≤ (s.slowEdge r).soonest + 1 := by
  have hadc := h.adcResetCount_lt
  have hcycles := h.clockCycles_le
  cases r with
  | false =>
    have hp := hr rfl
    simp [soonest, edgesLeft, slowEdge_phase, slowEdge_adcResetCount, hp]
  | true =>
    cases hp : s.phase with
    | reset => simp [soonest, edgesLeft, nextPhase, hp]
    | idle => simp [soonest, edgesLeft, nextPhase, hp]
    | setup => simp [soonest, edgesLeft, nextPhase, hp]
    | waitReset =>
      by_cases hc : s.adcResetCount = 20
      · simp [soonest, edgesLeft, nextPhase, hp, hc]
      · simp [soonest, edgesLeft, nextPhase, hp, hc]
        omega
    | waitTransaction => simp [soonest, edgesLeft, nextPhase, hp]
    | waitCs => simp [soonest, edgesLeft, hp]
    | transactionInProgress =>
      by_cases hc : s.clockCycles = 64
      · simp [soonest, nextPhase, hp, hc]
      · have hlt : s.clockCycles < 64 := by omega
        simp [soonest, nextPhase, hp, hc, hlt]
        omega
    | transactionEnd =>
      by_cases hd : s.delayCounter = 250000
      · simp [soonest, edgesLeft, nextPhase, hp, hd]
      · simp [soonest, nextPhase, hp, hd]

/-- A clear never brings a frame closer: past the ADC reset its counter is at 21, and has to turn. -/
theorem soonest_clear (h : s.Valid) : s.soonest ≤ s.clear.soonest := by
  have hadc := h.adcResetCount_lt
  have hclear : s.clear.soonest = (276 - s.adcResetCount) % 256 + 5 := rfl
  rw [hclear]
  cases hp : s.phase with
  | transactionInProgress =>
    have h21 := h.adcResetCount_released (by simp [Phase.Released, hp])
    simp [soonest, hp, h21]
    omega
  | reset | idle | setup | waitReset | waitTransaction | waitCs | transactionEnd =>
    unfold soonest edgesLeft
    simp only [hp]
    omega

/-! ## The first frame -/

/-- `WAIT_CS` starts the schedule, with the delay counter as it is. -/
theorem slowEdge_of_waitCs (h : s.Valid) (hp : s.phase = .waitCs) :
    s.slowEdge true = frameAt s.delayCounter 0 := by
  have hadc := h.adcResetCount_released (Or.inr (Or.inl hp))
  have hreset := h.spiReset_released (Or.inr (Or.inl hp)) (by simp [hp])
  rw [frameAt_of_le (by omega)]
  ext <;> simp [slowEdge_spiMosi, nextPhase, hp, hadc, hreset]

end SingleClock

/-- After two frames at most, a valid state is at the start of a frame with a clear delay counter. -/
theorem ValidState.exists_frameAt (s : ValidState) :
    ∃ e, e ≤ 500136 ∧ (SingleClock.slowEdge true)^[e] s.1 = SingleClock.frameAt 0 0 := by
  have hgoal := ValidState.ranking.goal_stepsUntil s
  set s' := slowEdge^[ValidState.ranking.stepsUntil s] s with hs'
  have hle : ValidState.ranking.stepsUntil s + 1 ≤ 250068 := s.edgesToFrame_le
  have hd := s'.2.delayCounter_le
  have hfirst : (SingleClock.slowEdge true)^[ValidState.ranking.stepsUntil s + 1] s.1 =
      SingleClock.frameAt s'.1.delayCounter 0 := by
    rw [Function.iterate_succ_apply', ← ValidState.iterate_slowEdge_val, ← hs']
    exact SingleClock.slowEdge_of_waitCs s'.2 (s'.2.atFrame_iff.mp hgoal)
  refine ⟨(250068 - s'.1.delayCounter) + (ValidState.ranking.stepsUntil s + 1), by omega, ?_⟩
  rw [Function.iterate_add_apply, hfirst, SingleClock.iterate_slowEdge_period hd]

namespace Run

variable {ρ : Run} {i j k n : ℕ}

/-- From the start of a frame on, the next one is at least 67 slow edges away. -/
theorem soonest_after_frame (h : ρ.spiCs.FallsAt i) (hin : i < n) :
    67 ≤ (ρ.regs n).soonest + ρ.position i n := by
  induction n, hin using Nat.le_induction with
  | base =>
    obtain ⟨-, -, d, -, hregs⟩ := regs_of_spiCs_falls h
    rw [hregs, SingleClock.soonest_frameAt]
    omega
  | succ n hin ih =>
    have hv := ρ.regs_valid n
    rcases ρ.regs_succ n with ⟨hs, -, hregs⟩ | ⟨hs, -, hregs⟩ | ⟨hs, -, hregs⟩
    · have hedge := SingleClock.soonest_slowEdge hv (ρ.phase_of_resetN_low n)
      rw [position_succ_of_slowEdgeAt hin hs, hregs]
      omega
    · have hclear := SingleClock.soonest_clear hv
      rw [position_succ_of_not hs, hregs]
      omega
    · rw [position_succ_of_not hs, hregs]
      exact ih

/-- **Frames are at least 68 slow periods apart**, 544 ticks, whatever `reset_n` does: no pattern of
resets makes the driver send frames in a burst, or gives the ADC less than two slow periods between
two frames. -/
theorem frames_spaced (ρ : Run) (i j : ℕ) (hi : ρ.spiCs.FallsAt i) (hj : ρ.spiCs.FallsAt j)
    (hij : i < j) :
    ρ.slowEdges i + 68 ≤ ρ.slowEdges j ∧ ρ.ticks i + 544 ≤ ρ.ticks j := by
  obtain ⟨hsi, -, -⟩ := regs_of_spiCs_falls hi
  obtain ⟨hsj, hp, -⟩ := regs_of_spiCs_falls hj
  have hsoon := soonest_after_frame hi hij
  rw [SingleClock.soonest_of_waitCs hp, Nat.zero_add, position,
    slowEdges_succ_of_slowEdgeAt _ _ hsi] at hsoon
  have hti := ρ.ticks_of_slowEdgeAt i hsi
  have htj := ρ.ticks_of_slowEdgeAt j hsj
  omega

/-- The first two frames of the free run. -/
theorem frames_spaced_freeRun :
    (freeRun false).slowEdges 203 + 68 ≤ (freeRun false).slowEdges 2000747 := by
  have hcs : ∀ n m r, r < 250068 → (n + 4) / 8 = 26 + 250068 * m + r →
      (freeRun false).spiCs n = decide (65 < r) := fun n m r hr hn => by
    rw [spiCs_eq, regs_eq_frameAt (freeRun_resetHigh false _ _) hr
      ((freeRun_slowEdges false n).trans hn), SingleClock.frameAt_spiCs]
  have hfall : (freeRun false).spiCs.FallsAt 2000747 :=
    ⟨hcs _ 0 250067 (by omega) (by omega), hcs _ 1 0 (by omega) (by omega)⟩
  exact (frames_spaced (freeRun false) 203 2000747 (freeRun_lowPulse false).falls hfall (by omega)).1

/-- **The past is forgotten.** From any step of any run there is a number of slow edges, of two frames
at most, after which the run is on the schedule of the free run, as long as `reset_n` stays high:
`SPI_CS` is low iff `r < 66`, `SPI_SCLK` is high iff `r` is odd and below 64, `SPI_MOSI` has its bit
of the command word, and `SPI_RESET` is high. After `t` edges of `system_clock` there have been
`⌊(t + 4) / 8⌋` slow edges. -/
theorem settles (ρ : Run) (n : ℕ) :
    (∀ k, ρ.slowEdges k = (ρ.ticks k + 4) / 8) ∧
      ∃ e, e ≤ 500136 ∧ ∀ k m r, n ≤ k → ρ.ResetHigh n k → r < 250068 →
        ρ.slowEdges k = ρ.slowEdges n + e + 250068 * m + r →
          (ρ.spiCs k = false ↔ r < 66) ∧ (ρ.spiSclk k = true ↔ r % 2 = 1 ∧ r < 64) ∧
            ρ.spiMosi k = mosiLevel (min r 64) ∧ ρ.spiReset k = true := by
  refine ⟨fun k => ρ.slowEdges_eq k, ?_⟩
  obtain ⟨e, he, hframe⟩ := (ρ.validState n).exists_frameAt
  refine ⟨e, he, fun k m r hnk hr hlt hk => ?_⟩
  have hregs : ρ.regs k = SingleClock.frameAt 0 r := by
    rw [regs_eq_iterate hnk hr, hk,
      show ρ.slowEdges n + e + 250068 * m + r - ρ.slowEdges n = (250068 * m + r) + e by omega,
      Function.iterate_add_apply]
    rw [validState_val] at hframe
    rw [hframe, SingleClock.iterate_slowEdge_repeat m hlt]
  refine ⟨?_, ?_, ?_, ?_⟩
  · rw [spiCs_eq, hregs, SingleClock.frameAt_spiCs, decide_eq_false_iff_not]
    omega
  · rw [spiSclk_eq, hregs, SingleClock.frameAt_spiSclk, SingleClock.frameSclk, decide_eq_true_iff]
    omega
  · rw [spiMosi_eq, hregs, SingleClock.frameAt_spiMosi]
    rfl
  · rw [spiReset_eq, hregs, SingleClock.frameAt_spiReset]

/-- After the pulse of `reset_n` in the first frame, a whole frame comes within two. -/
theorem settles_abortedRun : ∃ e, e ≤ 500136 ∧ abortedRun.spiCs (215 + 8 * e) = false ∧
    abortedRun.spiSclk (215 + 8 * (e + 1)) = true ∧ abortedRun.spiCs (215 + 8 * (e + 65)) = false ∧
      abortedRun.spiCs (215 + 8 * (e + 66)) = true := by
  obtain ⟨-, e, he, hpins⟩ := settles abortedRun 215
  have hat : ∀ r < 250068, _ := fun r hr =>
    hpins (215 + 8 * (e + r)) 0 r (by omega) (fun k hk _ => (pulsedRun_after hk).2) hr (by
      rw [pulsedRun_slowEdges (by omega), pulsedRun_slowEdges (by omega)]
      omega)
  refine ⟨e, he, (hat 0 (by omega)).1.mpr (by omega), (hat 1 (by omega)).2.1.mpr (by omega),
    (hat 65 (by omega)).1.mpr (by omega), ?_⟩
  rw [← Bool.not_eq_false, (hat 66 (by omega)).1]
  omega

end Run

end ADS131A0X
