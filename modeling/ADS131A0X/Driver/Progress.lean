import ADS131A0X.Driver.Frame

/-!
# Progress

With `reset_n` high the machine always reaches the next frame. The loops of the state machine exit
on equalities only, so this needs the bounds of the invariant: a counter that has passed its exit
value would keep its state for ever, or for a full turn of the counter. Within the bounds, the
number of slow edges to the next fall of `SPI_CS` is known from the state and the counters, and
each slow edge takes one off.

## Main definitions

* `SingleClock.AtFrame`: the next slow edge starts a frame
* `SingleClock.edgesLeft`: the slow edges to such a state
* `ValidState`, `ValidState.edgesToFrame`: the iteration of slow edges until `SPI_CS` falls

## Main results

* `SingleClock.edgesLeft_slowEdge`: a slow edge takes one off
* `ValidState.edgesToFrame_eq`: the slow edges to the next frame in closed form
* `Run.no_trap_state`: the next frame starts after at most 250068 slow edges
-/

namespace ADS131A0X

open Transition Waveform

namespace SingleClock

/-- The next slow edge makes `SPI_CS` fall. -/
def AtFrame (s : SingleClock) : Prop := s.spiCs = true ∧ (s.slowEdge true).spiCs = false

instance : DecidablePred AtFrame := fun s =>
  inferInstanceAs (Decidable (s.spiCs = true ∧ (s.slowEdge true).spiCs = false))

/-- The number of slow edges before the one at which `SPI_CS` falls. -/
def edgesLeft (s : SingleClock) : ℕ :=
  match s.phase with
  | .waitCs => 0
  | .waitTransaction => 1
  -- what the counter lacks to 20, modulo 256, and the edge that leaves the state
  | .waitReset => (276 - s.adcResetCount) % 256 + 2
  | .setup => (276 - s.adcResetCount) % 256 + 3
  | .idle => (276 - s.adcResetCount) % 256 + 4
  | .reset => (276 - s.adcResetCount) % 256 + 5
  -- the rest of the delay, and for a transaction the rest of the count before it
  | .transactionEnd => 250002 - s.delayCounter
  | .transactionInProgress => 250067 - s.clockCycles - s.delayCounter

variable {s : SingleClock}

/-- No state is further from a frame than the start of a frame is. -/
theorem edgesLeft_le (s : SingleClock) : s.edgesLeft ≤ 250067 := by
  unfold edgesLeft
  split <;> omega

/-- A frame starts from `WAIT_CS` only. -/
theorem Valid.atFrame_iff (h : s.Valid) : s.AtFrame ↔ s.phase = .waitCs := by
  constructor
  · rintro ⟨h0, h1⟩
    exact h.phase_of_spiCs_falls h0 h1
  · intro hp
    refine ⟨h.spiCs_preparing (by simp [Phase.Preparing, hp]), ?_⟩
    rw [slowEdge_spiCs, if_pos (Or.inl hp)]

/-- **A slow edge brings the next frame one edge closer.** -/
theorem edgesLeft_slowEdge (h : s.Valid) (hgoal : ¬ s.AtFrame) :
    (s.slowEdge true).edgesLeft + 1 = s.edgesLeft := by
  rw [h.atFrame_iff] at hgoal
  have hadc := h.adcResetCount_lt
  have hdelay := h.delayCounter_le
  have hcycles := h.clockCycles_le
  -- the three loops count towards their exits, the other states pass on
  cases hp : s.phase with
  | reset => simp [edgesLeft, nextPhase, hp]
  | idle => simp [edgesLeft, nextPhase, hp]
  | setup => simp [edgesLeft, nextPhase, hp]
  | waitReset =>
    by_cases hc : s.adcResetCount = 20
    · simp [edgesLeft, nextPhase, hp, hc]
    · simp [edgesLeft, nextPhase, hp, hc]
      omega
  | waitTransaction => simp [edgesLeft, nextPhase, hp]
  | waitCs => exact absurd hp hgoal
  | transactionInProgress =>
    by_cases hc : s.clockCycles = 64
    · simp [edgesLeft, nextPhase, hp, hc]
      omega
    · have hlt : s.clockCycles < 64 := by omega
      simp [edgesLeft, nextPhase, hp, hc, hlt]
      omega
  | transactionEnd =>
    by_cases hd : s.delayCounter = 250000
    · simp [edgesLeft, nextPhase, hp, hd]
    · simp [edgesLeft, nextPhase, hp, hd]
      omega

end SingleClock

/-! ## Iterating slow edges -/

/-- The states that satisfy the invariant; all states of runs do. -/
abbrev ValidState := { s : SingleClock // s.Valid }

namespace ValidState

/-- A slow edge with `reset_n` high. -/
def slowEdge (s : ValidState) : ValidState :=
  ⟨s.1.slowEdge true, s.2.slowEdge fun h => absurd h (by decide)⟩

theorem iterate_slowEdge_val (s : ValidState) (k : ℕ) :
    (slowEdge^[k] s).1 = (SingleClock.slowEdge true)^[k] s.1 :=
  Function.Semiconj.iterate_right (f := Subtype.val) (fun _ => rfl) k s

/-- The slow edges left are a rank for the start of the next frame. -/
def ranking : Ranking slowEdge fun s => s.1.AtFrame where
  rank s := s.1.edgesLeft
  drops s h := by
    have := SingleClock.edgesLeft_slowEdge s.2 h
    show (s.1.slowEdge true).edgesLeft < s.1.edgesLeft
    omega

/-- The number of slow edges from a state to the next fall of `SPI_CS`, by iterating them until the
edge that makes it fall. -/
def edgesToFrame (s : ValidState) : ℕ := ranking.stepsUntil s + 1

/-- The number of slow edges to the next frame, from the state and the counters. -/
theorem edgesToFrame_eq (s : ValidState) : s.edgesToFrame = s.1.edgesLeft + 1 := by
  refine congrArg (· + 1) (ranking.stepsUntil_eq_rank (fun s h => ?_) (fun s h => ?_) s)
  · exact SingleClock.edgesLeft_slowEdge s.2 h
  · show s.1.edgesLeft = 0
    rw [SingleClock.edgesLeft, s.2.atFrame_iff.mp h]

theorem edgesToFrame_le (s : ValidState) : s.edgesToFrame ≤ 250068 := by
  have := s.1.edgesLeft_le
  rw [edgesToFrame_eq]
  omega

end ValidState

namespace Run

variable {ρ : Run} {n m k : ℕ}

/-- The state of a run after `n` events. -/
def validState (ρ : Run) (n : ℕ) : ValidState := ⟨ρ.regs n, ρ.regs_valid n⟩

theorem validState_val (ρ : Run) (n : ℕ) : (ρ.validState n).1 = ρ.regs n := rfl

theorem validState_eq_iterate (hnk : n ≤ k) (hr : ρ.ResetHigh n k) :
    ρ.validState k = ValidState.slowEdge^[ρ.slowEdges k - ρ.slowEdges n] (ρ.validState n) :=
  Subtype.ext <| (regs_eq_iterate hnk hr).trans (ValidState.iterate_slowEdge_val (ρ.validState n) _).symm

/-- With `reset_n` high, `SPI_CS` falls at the slow edges from states before a frame. -/
theorem spiCs_falls_iff (hr : ρ.resetN k = true) :
    ρ.spiCs.FallsAt k ↔ ρ.SlowEdgeAt k ∧ (ρ.validState k).1.AtFrame := by
  constructor
  · intro h
    have hs := (regs_of_spiCs_falls h).1
    have h1 := h.2
    rw [spiCs_eq, regs_of_slowEdgeAt hs, hr] at h1
    exact ⟨hs, (ρ.spiCs_eq k).symm.trans h.1, h1⟩
  · rintro ⟨hs, h0, h1⟩
    refine ⟨(ρ.spiCs_eq k).trans h0, ?_⟩
    rw [spiCs_eq, regs_of_slowEdgeAt hs, hr]
    exact h1

/-- **No trap state.** From every state of every run, iterating slow edges until `SPI_CS` falls
takes at most 250068 of them. In the run, while `reset_n` stays high, `SPI_CS` falls at exactly that
slow edge, from `WAIT_CS`, and not before; so no state is kept for ever. -/
theorem no_trap_state (ρ : Run) (n : ℕ) :
    (ρ.validState n).edgesToFrame ≤ 250068 ∧
    (∀ m, n ≤ m → ρ.ResetHigh n m →
      ρ.slowEdges n + (ρ.validState n).edgesToFrame ≤ ρ.slowEdges m →
      ∃ k, n ≤ k ∧ k < m ∧ ρ.spiCs.FallsAt k ∧ ρ.state k = SpiMaster.waitCs ∧
        ρ.slowEdges (k + 1) = ρ.slowEdges n + (ρ.validState n).edgesToFrame) ∧
    (∀ k, n ≤ k → ρ.ResetHigh n k →
      ρ.slowEdges (k + 1) < ρ.slowEdges n + (ρ.validState n).edgesToFrame →
      ¬ ρ.spiCs.FallsAt k) := by
  refine ⟨(ρ.validState n).edgesToFrame_le, ?_, ?_⟩
  -- the slow edge with the number that the iteration gives
  · intro m hnm hr hm
    obtain ⟨k, hnk, hkm, hs, hcount⟩ := exists_slowEdge (Nat.le_add_right _ _) hm
    have hk := validState_eq_iterate hnk (hr.of_le le_rfl hkm.le)
    rw [hcount, Nat.add_sub_cancel_left] at hk
    have hgoal : (ρ.validState k).1.AtFrame := by
      rw [hk]
      exact ValidState.ranking.goal_stepsUntil _
    refine ⟨k, hnk, hkm, (spiCs_falls_iff (hr k hnk hkm.le)).mpr ⟨hs, hgoal⟩, ?_, ?_⟩
    · exact (ρ.state_eq_encode_iff k (p := .waitCs)).mpr ((ρ.regs_valid k).atFrame_iff.mp hgoal)
    · rw [ρ.slowEdges_succ_of_slowEdgeAt k hs, hcount]
      rfl
  -- an earlier fall would have ended the iteration
  · intro k hnk hr hk hf
    obtain ⟨hs, hgoal⟩ := (spiCs_falls_iff (hr k hnk le_rfl)).mp hf
    rw [ρ.slowEdges_succ_of_slowEdgeAt k hs] at hk
    have hmono : ρ.slowEdges n ≤ ρ.slowEdges k := ρ.slowEdges_monotone hnk
    have hlt : ρ.slowEdges k - ρ.slowEdges n < ValidState.ranking.stepsUntil (ρ.validState n) := by
      have : ρ.slowEdges k + 1 <
        ρ.slowEdges n + (ValidState.ranking.stepsUntil (ρ.validState n) + 1) := hk
      omega
    rw [validState_eq_iterate hnk hr] at hgoal
    exact ValidState.ranking.not_goal_of_lt _ hlt hgoal

/-- From the start of a frame it takes all of them. -/
theorem no_trap_state_freeRun :
    (freeRun false).regs 204 = SingleClock.frameAt 0 0 ∧
      ((freeRun false).validState 204).edgesToFrame = 250068 ∧
      ∃ k, 204 ≤ k ∧ k < 3000000 ∧ (freeRun false).spiCs.FallsAt k := by
  have hregs : (freeRun false).regs 204 = SingleClock.frameAt 0 0 :=
    regs_eq_frameAt (m := 0) (r := 0) (freeRun_resetHigh false _ _) (by omega)
      (freeRun_slowEdges false 204)
  have hedges : ((freeRun false).validState 204).edgesToFrame = 250068 := by
    rw [ValidState.edgesToFrame_eq, validState_val, hregs, SingleClock.frameAt_of_le (by omega)]
    simp [SingleClock.edgesLeft]
  refine ⟨hregs, hedges, ?_⟩
  obtain ⟨k, hk, hkm, hf, -⟩ := (no_trap_state (freeRun false) 204).2.1 3000000 (by omega)
    (freeRun_resetHigh false _ _) (by rw [hedges, freeRun_slowEdges, freeRun_slowEdges]; omega)
  exact ⟨k, hk, hkm, hf⟩

end Run

end ADS131A0X
