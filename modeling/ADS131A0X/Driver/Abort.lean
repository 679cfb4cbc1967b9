import ADS131A0X.Driver.Frame

/-!
# Frames cut short by `reset_n`

A falling edge of `reset_n` clears the state register and nothing else. The pins follow at the next
slow edge, where both modules react to the cleared state: `SPI_CS` rises, `SPI_SCLK` falls and its
count is cleared, all at once. So an aborted frame can end in a falling edge of `SPI_SCLK` that
coincides with the rise of `SPI_CS`; this, and the edge by which `SPI_SCLK` leaves its level at
power-up, are the only clock edges with `SPI_CS` not low on both sides.

## Main results

* `Run.phase_after_abort`: the state stays cleared up to the next slow edge
* `Run.clean_abort`: what the pins do after a falling edge of `reset_n`
* `Run.resetN_fell`: a cleared state in a frame comes from a falling edge of `reset_n` in the same
  slow period
* `Run.quiet_clock`: the clock edges outside frames
-/

namespace ADS131A0X

open Waveform SingleClock

namespace Run

variable {ρ : Run} {a e n : ℕ}

/-! ## After a falling edge of `reset_n` -/

/-- The state stays cleared up to the next slow edge, whatever `reset_n` does. -/
theorem phase_after_abort (h : ρ.resetN.FallsAt a) (han : a < n)
    (hquiet : stepsIn ρ.SlowEdgeAt a n = []) : (ρ.regs n).phase = .reset := by
  rw [stepsIn_eq_nil] at hquiet
  induction n, han using Nat.le_induction with
  | base =>
    rw [(regs_of_resetN_falls h).2]
    rfl
  | succ n han ih =>
    have han : a < n := han
    have hp := ih fun k hk hkn => hquiet k hk (by omega)
    rcases phase_of_not_slowEdgeAt (hquiet n han.le n.lt_succ_self) with hk | hk
    · exact hk.trans hp
    · exact hk

/-- The pins rest up to the next slow edge. -/
theorem pins_after_abort (han : a ≤ n) (hquiet : stepsIn ρ.SlowEdgeAt a n = []) :
    ρ.spiCs n = ρ.spiCs a ∧ ρ.spiSclk n = ρ.spiSclk a ∧ ρ.spiMosi n = ρ.spiMosi a := by
  rw [stepsIn_eq_nil] at hquiet
  induction n, han using Nat.le_induction with
  | base => exact ⟨rfl, rfl, rfl⟩
  | succ n han ih =>
    obtain ⟨hcs, hsclk, hmosi⟩ := ih fun k hk hkn => hquiet k hk (by omega)
    have hn := hquiet n han n.lt_succ_self
    exact ⟨(spiCs_rest hn).trans hcs, (spiSclk_rest hn).trans hsclk, (spiMosi_rest hn).trans hmosi⟩

/-- The next slow edge ends the frame and clears the clock and its count. -/
theorem slowEdge_after_abort (h : ρ.resetN.FallsAt a) (hae : a ≤ e) (he : ρ.SlowEdgeAt e)
    (hquiet : stepsIn ρ.SlowEdgeAt a e = []) :
    ρ.spiCs (e + 1) = true ∧ ρ.spiSclk (e + 1) = false ∧ ρ.countCs (e + 1) = 0#8 := by
  have hne : a ≠ e := by
    rintro rfl
    exact (regs_of_resetN_falls h).1 he
  have hp := phase_after_abort h (lt_of_le_of_ne hae hne) hquiet
  have hregs := regs_of_slowEdgeAt he
  refine ⟨?_, ?_, ?_⟩
  · rw [spiCs_eq, hregs, slowEdge_spiCs, hp]
    rfl
  · rw [spiSclk_eq, hregs, slowEdge_spiSclk, hp]
    rfl
  · refine BitVec.eq_of_toNat_eq ?_
    rw [countCs_eq, hregs, slowEdge_clockCycles, hp]
    rfl

/-- The clock is not started again before `SPI_CS` falls. -/
theorem phase_before_next_frame (h : ρ.resetN.FallsAt a) (han : a < n)
    (hquiet : stepsIn ρ.spiCs.FallsAt a n = []) :
    (ρ.regs n).phase ≠ .transactionInProgress := by
  rw [stepsIn_eq_nil] at hquiet
  induction n, han using Nat.le_induction with
  | base =>
    rw [(regs_of_resetN_falls h).2]
    simp [SingleClock.clear]
  | succ n han ih =>
    have han : a < n := han
    have hp := ih fun k hk hkn => hquiet k hk (by omega)
    intro ht
    by_cases hs : ρ.SlowEdgeAt n
    · have hregs := regs_of_slowEdgeAt hs
      rw [hregs, slowEdge_phase_eq_iff _ _ (by simp), nextPhase_eq_transactionInProgress] at ht
      obtain ⟨-, hw | ⟨ht, -⟩⟩ := ht
      -- `TRANSACTION_IN_PROGRESS` is entered from `WAIT_CS`, with the fall of `SPI_CS`
      · refine hquiet n han.le n.lt_succ_self ⟨?_, ?_⟩
        · rw [spiCs_eq]
          exact (ρ.regs_valid n).spiCs_preparing (by simp [Phase.Preparing, hw])
        · rw [spiCs_eq, hregs, slowEdge_spiCs, if_pos (Or.inl hw)]
      · exact hp ht
    · rcases phase_of_not_slowEdgeAt hs with hk | hk
      · exact hp (hk.symm.trans ht)
      · rw [hk] at ht
        cases ht

/-- `SPI_SCLK` rises in `TRANSACTION_IN_PROGRESS` only. -/
theorem phase_of_spiSclk_rises (h : ρ.spiSclk.RisesAt n) :
    (ρ.regs n).phase = .transactionInProgress := by
  by_contra hp
  have h1 := h.2
  rw [spiSclk_eq, regs_of_slowEdgeAt (slowEdgeAt_of_rises h), slowEdge_spiSclk, if_neg hp] at h1
  cases h1

/-- The count is 0 when a frame has started. -/
theorem countCs_first (h : ρ.spiCs.FallsAt n) : ρ.countCs (n + 1) = 0#8 := by
  obtain ⟨-, -, d, -, hregs⟩ := regs_of_spiCs_falls h
  refine BitVec.eq_of_toNat_eq ?_
  rw [countCs_eq, hregs]
  rfl

/-- **Clean abort.** After any falling edge of `reset_n`, and whatever `reset_n` does afterwards:
`SPI_CS`, `SPI_SCLK` and `SPI_MOSI` rest up to the next slow edge; at that edge `SPI_CS` is set and
`SPI_SCLK` and its count are cleared; `SPI_SCLK` does not rise up to the next fall of `SPI_CS`, and
there `SPI_SCLK` is low and the count is 0. -/
theorem clean_abort (ρ : Run) (a : ℕ) (h : ρ.resetN.FallsAt a) :
    (∀ n, a ≤ n → stepsIn ρ.SlowEdgeAt a n = [] →
      ρ.spiCs n = ρ.spiCs a ∧ ρ.spiSclk n = ρ.spiSclk a ∧ ρ.spiMosi n = ρ.spiMosi a) ∧
    (∀ e, a ≤ e → ρ.SlowEdgeAt e → stepsIn ρ.SlowEdgeAt a e = [] →
      ρ.spiCs (e + 1) = true ∧ ρ.spiSclk (e + 1) = false ∧ ρ.countCs (e + 1) = 0#8) ∧
    (∀ n, a ≤ n → stepsIn ρ.spiCs.FallsAt a n = [] → ¬ ρ.spiSclk.RisesAt n) ∧
    (∀ n, a ≤ n → ρ.spiCs.FallsAt n →
      ρ.spiSclk n = false ∧ ρ.spiSclk (n + 1) = false ∧ ρ.countCs (n + 1) = 0#8) := by
  refine ⟨fun n => pins_after_abort, fun e => slowEdge_after_abort h, ?_, ?_⟩
  · intro n han hquiet hr
    have hne : a ≠ n := by
      rintro rfl
      exact (regs_of_resetN_falls h).1 (slowEdgeAt_of_rises hr)
    exact phase_before_next_frame h (lt_of_le_of_ne han hne) hquiet (phase_of_spiSclk_rises hr)
  · intro n _ hf
    obtain ⟨h0, h1⟩ := spiSclk_first hf
    exact ⟨h0, h1, countCs_first hf⟩

/-! ## Clock edges and frames -/

/-- A cleared state in a frame comes from a falling edge of `reset_n` in the same slow period. -/
theorem resetN_fell (ρ : Run) (n : ℕ) (hp : (ρ.regs n).phase = .reset) (hcs : ρ.spiCs n = false) :
    ∃ k < n, ρ.resetN.FallsAt k ∧ ρ.slowEdges k = ρ.slowEdges n := by
  induction n with
  | zero =>
    have h0 : ρ.spiCs 0 = true := rfl
    simp [h0] at hcs
  | succ n ih =>
    rcases ρ.regs_succ n with ⟨-, -, hregs⟩ | ⟨hs, hf, -⟩ | ⟨hs, -, hregs⟩
    -- a slow edge that keeps the state cleared, or clears it, raises `SPI_CS`
    · have hr : ρ.resetN n = false := by
        by_contra hr
        rw [hregs, slowEdge_phase, if_pos (by simpa using hr)] at hp
        exact nextPhase_ne_reset _ hp
      rw [spiCs_eq, hregs, slowEdge_spiCs, ρ.phase_of_resetN_low n hr] at hcs
      cases hcs
    -- the clear itself
    · exact ⟨n, n.lt_succ_self, hf, (ρ.slowEdges_succ_of_not n hs).symm⟩
    -- nothing moves
    · rw [hregs] at hp
      rw [spiCs_rest hs] at hcs
      obtain ⟨k, hk, hf, hcount⟩ := ih hp hcs
      exact ⟨k, by omega, hf, hcount.trans (ρ.slowEdges_succ_of_not n hs).symm⟩

/-- After the first slow edge the clock is not in its state of power-up. -/
theorem regs_ne_powerUp (h : 0 < ρ.slowEdges n) : ρ.regs n ≠ {} := by
  suffices hs : ρ.spiSclk n = true → ρ.spiCs n = false by
    intro h0
    rw [spiSclk_eq, spiCs_eq, h0] at hs
    exact absurd (hs rfl) (by decide)
  induction n with
  | zero => exact absurd h (by simp [slowEdges])
  | succ n ih =>
    by_cases hs : ρ.SlowEdgeAt n
    -- a slow edge that leaves `SPI_SCLK` high is one of a transaction
    · intro hh
      rw [spiSclk_eq, regs_of_slowEdgeAt hs, slowEdge_spiSclk] at hh
      rw [spiCs_eq, regs_of_slowEdgeAt hs, slowEdge_spiCs]
      by_cases hp : (ρ.regs n).phase = .transactionInProgress
      · exact if_pos (Or.inr hp)
      · rw [if_neg hp] at hh
        cases hh
    · rw [slowEdges_succ_of_not _ _ hs] at h
      rw [spiSclk_rest hs, spiCs_rest hs]
      exact ih h

/-- **The clock edges outside frames.** After the first slow edge, `SPI_SCLK` changes only at slow
edges with `SPI_CS` low before the step, and low after it unless the step ends a frame that `reset_n`
has cut short: then `SPI_SCLK` falls as `SPI_CS` rises, the state is `RESET`, and `reset_n` has fallen
since the last slow edge. -/
theorem quiet_clock (ρ : Run) (n : ℕ) (hfirst : 0 < ρ.slowEdges n) (h : ρ.spiSclk.ChangesAt n) :
    ρ.SlowEdgeAt n ∧ ρ.spiCs n = false ∧
      (ρ.spiCs (n + 1) = false ∨
        ρ.spiSclk.FallsAt n ∧ ρ.spiCs.RisesAt n ∧ ρ.state n = SpiMaster.reset ∧
          ∃ k < n, ρ.resetN.FallsAt k ∧ ρ.slowEdges k = ρ.slowEdges n) := by
  have hs := slowEdgeAt_of_changesAt (Or.inr h)
  have hregs := regs_of_slowEdgeAt hs
  have hv := ρ.regs_valid n
  have hsclk := hv.spiSclk.resolve_right (regs_ne_powerUp hfirst)
  by_cases hp : (ρ.regs n).phase = .transactionInProgress
  -- in a transaction `SPI_CS` is low and stays low
  · refine ⟨hs, ?_, Or.inl ?_⟩
    · rw [spiCs_eq, hv.spiCs_inProgress hp]
    · rw [spiCs_eq, hregs, slowEdge_spiCs, if_pos (Or.inr hp)]
  -- outside `TRANSACTION_IN_PROGRESS` the edge can only be a fall, from an odd count
  · have hlow : ρ.spiSclk (n + 1) = false := by
      rw [spiSclk_eq, hregs, slowEdge_spiSclk, if_neg hp]
    have hhigh : ρ.spiSclk n = true := by
      by_contra hh
      have hh : ρ.spiSclk n = false := by simpa using hh
      exact h (hlow.trans hh.symm)
    have hodd : (ρ.regs n).clockCycles % 2 = 1 := by
      rw [spiSclk_eq, hsclk] at hhigh
      exact of_decide_eq_true hhigh
    have hcs : ρ.spiCs n = false := by
      by_contra hh
      rw [spiCs_eq] at hh
      have := hv.clockCycles_high (by simpa using hh)
      omega
    have hcs' : (ρ.regs n).spiCs = false := (ρ.spiCs_eq n).symm.trans hcs
    have hreset : (ρ.regs n).phase = .reset := by
      rcases hv.phase_of_spiCs_low hcs' with hreset | ht | hend
      · exact hreset
      · exact absurd ht hp
      -- a transaction that has run to its end has an even count
      · have := hv.clockCycles_end hend hcs'
        omega
    refine ⟨hs, hcs, Or.inr ⟨⟨hhigh, hlow⟩, ⟨hcs, ?_⟩, ?_, ρ.resetN_fell n hreset hcs⟩⟩
    · rw [spiCs_eq, hregs, slowEdge_spiCs, hreset]
      rfl
    · exact (ρ.state_eq_encode_iff n (p := .reset)).mpr hreset

/-! ## An aborted frame -/

section AbortedRun

theorem abortedRun_resetN_falls : abortedRun.resetN.FallsAt 213 :=
  ⟨(pulsedRun_before le_rfl).2, resetN_succ _ _⟩

theorem clean_abort_abortedRun :
    abortedRun.resetN.FallsAt 213 ∧
    (∀ e, 213 ≤ e → abortedRun.SlowEdgeAt e → stepsIn abortedRun.SlowEdgeAt 213 e = [] →
      abortedRun.spiCs (e + 1) = true ∧ abortedRun.spiSclk (e + 1) = false ∧
        abortedRun.countCs (e + 1) = 0#8) ∧
    (∀ n, 213 ≤ n → stepsIn abortedRun.spiCs.FallsAt 213 n = [] → ¬ abortedRun.spiSclk.RisesAt n) := by
  obtain ⟨-, hedge, hrise, -⟩ := clean_abort abortedRun 213 abortedRun_resetN_falls
  exact ⟨abortedRun_resetN_falls, hedge, hrise⟩

/-- The frame that the pulse cuts short ends with `SPI_SCLK` falling as `SPI_CS` rises. -/
theorem abortedRun_last_edge : abortedRun.spiSclk.FallsAt 221 ∧ abortedRun.spiCs.RisesAt 221 := by
  have h0 : abortedRun.regs 221 = (frameAt 0 1).clear := abortedRun_regs_after (by omega)
  have h1 : abortedRun.regs 222 = (frameAt 0 1).clear.slowEdge true :=
    abortedRun_regs_after (by omega)
  rw [Signal.FallsAt, Signal.RisesAt, spiSclk_eq, spiSclk_eq, spiCs_eq, spiCs_eq, h0, h1]
  exact ⟨⟨rfl, rfl⟩, rfl, rfl⟩

theorem quiet_clock_abortedRun :
    abortedRun.SlowEdgeAt 221 ∧ abortedRun.spiCs 221 = false ∧
      (abortedRun.spiCs 222 = false ∨
        abortedRun.spiSclk.FallsAt 221 ∧ abortedRun.spiCs.RisesAt 221 ∧
          abortedRun.state 221 = SpiMaster.reset ∧
          ∃ k < 221, abortedRun.resetN.FallsAt k ∧
            abortedRun.slowEdges k = abortedRun.slowEdges 221) :=
  quiet_clock abortedRun 221 (by rw [slowEdges_eq, (pulsedRun_after (by omega)).1]; decide)
    (Signal.changesAt_iff.mpr (Or.inr abortedRun_last_edge.1))

/-- `SPI_SCLK` changes outside a frame at the first slow edge after power-up, and as an aborted
frame ends. -/
theorem quiet_clock_broken :
    ((freeRun false).spiSclk.FallsAt 3 ∧ (freeRun false).spiCs 3 = true ∧
        (freeRun false).spiCs 4 = true) ∧
      (abortedRun.spiSclk.FallsAt 221 ∧ abortedRun.spiCs 222 = true) := by
  have h0 : (freeRun false).regs 3 = {} := by
    rw [regs_eq_iterate_powerUp (freeRun_resetHigh false _ _), freeRun_slowEdges]
    rfl
  have h1 : (freeRun false).regs 4 = slowEdge true {} := by
    rw [regs_eq_iterate_powerUp (freeRun_resetHigh false _ _), freeRun_slowEdges]
    rfl
  refine ⟨?_, abortedRun_last_edge.1, abortedRun_last_edge.2.2⟩
  rw [Signal.FallsAt, spiSclk_eq, spiSclk_eq, spiCs_eq, spiCs_eq, h0, h1]
  exact ⟨⟨rfl, rfl⟩, rfl, rfl⟩

end AbortedRun

end Run

end ADS131A0X
