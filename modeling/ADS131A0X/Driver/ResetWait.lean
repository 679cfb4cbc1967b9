import ADS131A0X.Driver.FreeRun
import ADS131A0X.SingleClock.Counters

/-!
# The length of the ADC reset wait

The machine leaves `WAIT_RESET` when its counter is 20. The counter starts at 0 after power-up, and
then the wait is 21 slow edges. Nothing clears it afterwards, whereas the counter of
`TRANSACTION_END` is cleared on exit: it counts all slow edges in `WAIT_RESET` since power-up,
modulo 256. A later pass therefore waits for as long as the counter takes to come round to 20.

## Main definitions

* `Run.ResetPass`: a pass of the machine from `SETUP` through `WAIT_RESET` to `WAIT_TRANSACTION`
* `Run.waitResetEdges`: the number of slow edges in `WAIT_RESET` along a stretch of the run

## Main results

* `Run.adcResetCount_eq`: what the counter holds
* `Run.waitResetEdges_of_pass`: the length of a pass in terms of the counter at its start
* `Run.reset_wait`: when a pass has the length of the first one
-/

namespace ADS131A0X

open Waveform SingleClock

namespace Run

variable {ρ : Run} {a b n : ℕ}

/-- A pass of the machine through `WAIT_RESET`, with `reset_n` high: it enters the state at step
`a` from `SETUP`, and leaves it at step `b` to `WAIT_TRANSACTION`. -/
structure ResetPass (ρ : Run) (a b : ℕ) : Prop where
  resetHigh : ρ.ResetHigh a (b + 1)
  lt : a < b
  setup : ρ.state a = SpiMaster.setup
  waitReset : ∀ n, a < n → n ≤ b → ρ.state n = SpiMaster.waitReset
  waitTransaction : ρ.state (b + 1) = SpiMaster.waitTransaction

/-- The number of slow edges in `WAIT_RESET` at the steps from `a` to `b`. -/
def waitResetEdges (ρ : Run) (a b : ℕ) : ℕ := ρ.edgesIn SpiMaster.waitReset a b

/-- **The counter counts the slow edges in `WAIT_RESET` since power-up**, modulo 256. -/
theorem adcResetCount_eq (ρ : Run) (n : ℕ) :
    (ρ.regs n).adcResetCount = ρ.waitResetEdges 0 n % 256 := adcResetCount_eq_edgesIn ρ n

/-! ## A pass -/

namespace ResetPass

variable (h : ρ.ResetPass a b)

include h

theorem phase_setup : (ρ.regs a).phase = .setup :=
  (ρ.state_eq_encode_iff a (p := .setup)).mp h.setup

theorem phase_waitReset (hn : a < n) (hn' : n ≤ b) : (ρ.regs n).phase = .waitReset :=
  (ρ.state_eq_encode_iff n (p := .waitReset)).mp (h.waitReset n hn hn')

theorem phase_waitTransaction : (ρ.regs (b + 1)).phase = .waitTransaction :=
  (ρ.state_eq_encode_iff (b + 1) (p := .waitTransaction)).mp h.waitTransaction

/-- The pass starts and ends at slow edges, as it changes the state there without a reset. -/
theorem slowEdgeAt : ρ.SlowEdgeAt a ∧ ρ.SlowEdgeAt b := by
  have hlt := h.lt
  have hfirst := h.phase_waitReset a.lt_succ_self hlt
  have hlast := h.phase_waitReset hlt le_rfl
  constructor
  · by_contra hs
    have hp := phase_of_not_slowEdgeAt hs
    simp [h.phase_setup, hfirst] at hp
  · by_contra hs
    have hp := phase_of_not_slowEdgeAt hs
    simp [h.phase_waitTransaction, hlast] at hp

/-- `SETUP` leaves the counter alone. -/
theorem adcResetCount_first : (ρ.regs (a + 1)).adcResetCount = (ρ.regs a).adcResetCount := by
  rw [regs_of_slowEdgeAt h.slowEdgeAt.1, slowEdge_adcResetCount, h.phase_setup]
  rfl

/-- The registers along the pass are those of the slow edges in it. -/
theorem regs_eq (hn : a < n) (hn' : n ≤ b + 1) :
    ρ.regs n = (slowEdge true)^[ρ.slowEdges n - ρ.slowEdges (a + 1)] (ρ.regs (a + 1)) :=
  regs_eq_iterate hn (h.resetHigh.of_le (Nat.le_succ a) hn')

/-- The pass cannot outlast the counter: once it is 20 the next slow edge ends the pass. -/
theorem slowEdges_le :
    ρ.slowEdges b ≤ ρ.slowEdges (a + 1) + (276 - (ρ.regs a).adcResetCount) % 256 := by
  by_contra hlong
  -- otherwise the pass contains the slow edge that leaves `WAIT_RESET`
  have hp := h.phase_waitReset a.lt_succ_self h.lt
  have hc := (ρ.regs_valid (a + 1)).adcResetCount_lt
  obtain ⟨m, ham, hmb, hm, hcount⟩ :=
    exists_slowEdge (Nat.le_add_right _ _) (Nat.lt_of_not_le hlong)
  have hstep : ρ.slowEdges (m + 1) =
      ρ.slowEdges (a + 1) + ((276 - (ρ.regs (a + 1)).adcResetCount) % 256 + 1) := by
    rw [ρ.slowEdges_succ_of_slowEdgeAt m hm, h.adcResetCount_first, hcount, Nat.add_assoc]
  have hregs := h.regs_eq (show a < m + 1 by omega) (by omega)
  have hlast := iterate_slowEdge_waitReset_last hp hc
  rw [hstep, Nat.add_sub_cancel_left] at hregs
  rw [← hregs, h.phase_waitReset (by omega) hmb] at hlast
  cases hlast

/-- The pass ends when the counter has come round to 20. -/
theorem slowEdges_eq_add :
    ρ.slowEdges b = ρ.slowEdges (a + 1) + (276 - (ρ.regs a).adcResetCount) % 256 := by
  have hlt := h.lt
  have hle := h.slowEdges_le
  have hmono : ρ.slowEdges (a + 1) ≤ ρ.slowEdges b := ρ.slowEdges_monotone hlt
  have hp := h.phase_waitReset a.lt_succ_self hlt
  have hc := (ρ.regs_valid (a + 1)).adcResetCount_lt
  have hcount := (iterate_slowEdge_waitReset hp hc
    (k := ρ.slowEdges b - ρ.slowEdges (a + 1)) (by rw [h.adcResetCount_first]; omega)).2
  rw [← h.regs_eq hlt b.le_succ, h.adcResetCount_first] at hcount
  rw [h.adcResetCount_first] at hc
  -- the slow edge at step `b` leaves the state, so its exit test holds
  have hexit : (ρ.regs b).adcResetCount = 20 := by
    have hlast := h.phase_waitTransaction
    rw [regs_of_slowEdgeAt h.slowEdgeAt.2, slowEdge_phase_eq_iff _ _ (by simp),
      nextPhase_eq_waitTransaction, h.phase_waitReset hlt le_rfl] at hlast
    simpa using hlast.2
  omega

end ResetPass

/-- **The length of a pass** is what its counter lacks to 20, and one more. -/
theorem waitResetEdges_of_pass (h : ρ.ResetPass a b) :
    ρ.waitResetEdges a (b + 1) = (276 - (ρ.regs a).adcResetCount) % 256 + 1 := by
  have hlt := h.lt
  have hmono : ρ.slowEdges (a + 1) ≤ ρ.slowEdges b := ρ.slowEdges_monotone hlt
  have hsetup : ¬ (ρ.SlowEdgeAt a ∧ ρ.state a = SpiMaster.waitReset) := by
    rintro ⟨-, hs⟩
    rw [h.setup] at hs
    cases hs
  -- past its first step the whole pass is in `WAIT_RESET`
  have hsame : stepsIn (fun k => ρ.SlowEdgeAt k ∧ ρ.state k = SpiMaster.waitReset) (a + 1) (b + 1) =
      stepsIn ρ.SlowEdgeAt (a + 1) (b + 1) := by
    apply List.filter_congr
    intro k hk
    have hk := List.Ico.mem.mp hk
    simp [h.waitReset k (by omega) (by omega)]
  have hlen := length_stepsIn (p := ρ.SlowEdgeAt) (show a + 1 ≤ b + 1 by omega)
  have hcount : ρ.slowEdges (b + 1) = ρ.slowEdges b + 1 :=
    ρ.slowEdges_succ_of_slowEdgeAt b h.slowEdgeAt.2
  have heq := h.slowEdges_eq_add
  rw [waitResetEdges, edgesIn, stepsIn_of_not_first (by omega) hsetup, hsame]
  change _ + ρ.slowEdges (a + 1) = ρ.slowEdges (b + 1) at hlen
  omega

/-- A pass starts at the slow edge that leaves `SETUP`, if `reset_n` stays high. -/
theorem resetPass_of_setup (hs : ρ.SlowEdgeAt a) (hp : (ρ.regs a).phase = .setup)
    (hr : ρ.ResetHigh a (b + 1)) (hb : ρ.SlowEdgeAt b)
    (hcount : ρ.slowEdges b = ρ.slowEdges a + 1 + (276 - (ρ.regs a).adcResetCount) % 256) :
    ρ.ResetPass a b := by
  have hlt : a < b := ρ.slowEdges_monotone.reflect_lt (by omega)
  have hfirst := regs_of_slowEdgeAt hs
  have hc : (ρ.regs (a + 1)).adcResetCount = (ρ.regs a).adcResetCount := by
    rw [hfirst, slowEdge_adcResetCount, hp]
    rfl
  have hw : (ρ.regs (a + 1)).phase = .waitReset := by
    rw [hfirst, slowEdge_phase, hr a le_rfl (by omega), if_pos rfl, nextPhase_eq_waitReset]
    exact Or.inl hp
  have hlt256 := (ρ.regs_valid (a + 1)).adcResetCount_lt
  have hstart := ρ.slowEdges_succ_of_slowEdgeAt a hs
  have hregs : ∀ n, a < n → n ≤ b + 1 →
      ρ.regs n = (slowEdge true)^[ρ.slowEdges n - ρ.slowEdges (a + 1)] (ρ.regs (a + 1)) :=
    fun n hn hn' => regs_eq_iterate hn (hr.of_le (Nat.le_succ a) hn')
  refine ⟨hr, hlt, (ρ.state_eq_encode_iff a (p := .setup)).mpr hp, ?_, ?_⟩
  · intro n hn hn'
    have hle : ρ.slowEdges n ≤ ρ.slowEdges b := ρ.slowEdges_monotone hn'
    refine (ρ.state_eq_encode_iff n (p := .waitReset)).mpr ?_
    rw [hregs n hn (by omega)]
    exact (iterate_slowEdge_waitReset hw hlt256 (by rw [hc]; omega)).1
  · have hend := ρ.slowEdges_succ_of_slowEdgeAt b hb
    refine (ρ.state_eq_encode_iff (b + 1) (p := .waitTransaction)).mpr ?_
    have hlast := iterate_slowEdge_waitReset_last hw hlt256
    rw [hc] at hlast
    rw [hregs (b + 1) (by omega) le_rfl, show ρ.slowEdges (b + 1) - ρ.slowEdges (a + 1) =
      (276 - (ρ.regs a).adcResetCount) % 256 + 1 by omega]
    exact hlast

/-- **The ADC reset wait.** For every pass through `WAIT_RESET`, the machine spends 21 slow edges
there if and only if its counter is 0 when the pass starts; that is, if and only if the slow edges
spent in `WAIT_RESET` before are a multiple of 256. In general the wait is one more than what the
counter lacks to 20, modulo 256. -/
theorem reset_wait (h : ρ.ResetPass a b) :
    (ρ.waitResetEdges a (b + 1) = 21 ↔ (ρ.top a).spiMasterUut.adcResetCount = 0#8) ∧
      (ρ.waitResetEdges a (b + 1) = 21 ↔ ρ.waitResetEdges 0 a % 256 = 0) ∧
      ρ.waitResetEdges a (b + 1) =
        (276 - (ρ.top a).spiMasterUut.adcResetCount.toNat) % 256 + 1 := by
  have hc := (ρ.regs_valid a).adcResetCount_lt
  have hcount := waitResetEdges_of_pass h
  have htoNat := ρ.adcResetCount_toNat a
  refine ⟨?_, ?_, ?_⟩
  · rw [BitVec.toNat_inj.symm.trans (by rfl), htoNat, hcount]
    show _ ↔ _ = 0
    omega
  · rw [← adcResetCount_eq, hcount]
    omega
  · rw [htoNat, hcount]

/-! ## Two passes of one run -/

/-- The pass after power-up. -/
theorem abortedRun_resetPass_first : abortedRun.ResetPass 19 187 := by
  have hregs : abortedRun.regs 19 = (slowEdge true)^[2] {} := pulsedRun_regs_before (by omega)
  refine resetPass_of_setup (pulsedRun_slowEdgeAt_before (by omega) (by omega))
    (by rw [hregs]; rfl) (fun n _ hn => (pulsedRun_before (by omega)).2)
    (pulsedRun_slowEdgeAt_before (by omega) (by omega)) ?_
  rw [hregs, slowEdges_eq, slowEdges_eq, (pulsedRun_before (by omega)).1,
    (pulsedRun_before (by omega)).1]
  rfl

/-- The pass after the reset pulse. -/
theorem abortedRun_resetPass_second : abortedRun.ResetPass 237 2285 := by
  have hregs : abortedRun.regs 237 = (slowEdge true)^[2] (frameAt 0 1).clear :=
    abortedRun_regs_after (by omega)
  refine resetPass_of_setup (pulsedRun_slowEdgeAt_after (by omega) (by omega))
    (by rw [hregs]; rfl) (fun n hn _ => (pulsedRun_after (by omega)).2)
    (pulsedRun_slowEdgeAt_after (by omega) (by omega)) ?_
  rw [hregs, slowEdges_eq, slowEdges_eq, (pulsedRun_after (by omega)).1,
    (pulsedRun_after (by omega)).1]
  rfl

theorem reset_wait_abortedRun :
    (abortedRun.waitResetEdges 19 188 = 21 ↔
        (abortedRun.top 19).spiMasterUut.adcResetCount = 0#8) ∧
      (abortedRun.waitResetEdges 19 188 = 21 ↔ abortedRun.waitResetEdges 0 19 % 256 = 0) ∧
      abortedRun.waitResetEdges 19 188 =
        (276 - (abortedRun.top 19).spiMasterUut.adcResetCount.toNat) % 256 + 1 :=
  reset_wait abortedRun_resetPass_first

/-- After one reset the wait is 256 slow edges, not 21 as after power-up. -/
theorem reset_wait_differs :
    abortedRun.ResetPass 19 187 ∧ abortedRun.waitResetEdges 19 188 = 21 ∧
      abortedRun.ResetPass 237 2285 ∧ abortedRun.waitResetEdges 237 2286 = 256 := by
  refine ⟨abortedRun_resetPass_first, ?_, abortedRun_resetPass_second, ?_⟩
  · rw [waitResetEdges_of_pass abortedRun_resetPass_first, pulsedRun_regs_before (by omega)]
    rfl
  · rw [waitResetEdges_of_pass abortedRun_resetPass_second, abortedRun_regs_after (by omega)]
    rfl

end Run

end ADS131A0X
