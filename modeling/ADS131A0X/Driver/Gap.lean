import ADS131A0X.Driver.Frame
import ADS131A0X.SingleClock.Counters

/-!
# The gap between two frames

Between two frames the machine waits in `TRANSACTION_END` until its delay counter is 250000, and the
exit clears the counter. A reset does not: a reset in the middle of a gap leaves the counter where
it is, and the gap after the next frame is shorter by the slow edges that were counted already.

## Main definitions

* `Run.FrameGap`: two consecutive windows of `SPI_CS` and the gap between them
* `Run.DelayKept`: no reset so far has left a part of the delay in the counter

## Main results

* `Run.FrameGap.slowEdges_add`: the length of the gap in terms of the counter at the first window
* `Run.FrameGap.edgesIn_add`: the slow edges in `TRANSACTION_END` between the windows
* `Run.delayCounter_of_delayKept`: the counter is clear outside `TRANSACTION_END`
* `Run.frame_gap`: when the gap has 250002 slow periods
-/

namespace ADS131A0X

open Waveform SingleClock

/-- The state before the next frame is the last one of the schedule. -/
theorem SingleClock.frameAt_phase_eq_waitCs {d p : ℕ} :
    (frameAt d p).phase = .waitCs ↔ 65 < p ∧ 250066 < d + p := by
  unfold frameAt
  split_ifs <;> simp <;> omega

namespace Run

variable {ρ : Run} {i j k n : ℕ}

/-- Two consecutive windows of `SPI_CS`, with `reset_n` high from the start of the first to the
start of the second: the first is from step `i` to step `j`, and the second starts at step `k`. -/
structure FrameGap (ρ : Run) (i j k : ℕ) : Prop where
  first : ρ.spiCs.LowPulse i j
  lt : j < k
  high : ∀ n, j < n → n ≤ k → ρ.spiCs n = true
  next : ρ.spiCs.FallsAt k
  resetHigh : ρ.ResetHigh (i + 1) k

namespace FrameGap

variable (h : ρ.FrameGap i j k)

include h

/-- From the first window on, the registers follow the schedule. -/
theorem regs_eq (hn : i < n) (hnk : n ≤ k)
    (hd : (ρ.regs i).delayCounter + ρ.position i n < 250068) :
    ρ.regs n = frameAt (ρ.regs i).delayCounter (ρ.position i n) := by
  obtain ⟨-, -, hregs⟩ := regs_succ_of_spiCs_falls h.first.falls
  rw [regs_eq_iterate hn (h.resetHigh.of_le le_rfl hnk), hregs]
  exact iterate_slowEdge_frameAt (ρ.regs_valid i).delayCounter_le hd

theorem position_pulse : ρ.position i j = 65 :=
  position_of_lowPulse h.first (h.resetHigh.of_le le_rfl h.lt.le)

/-- The second window starts at the end of the schedule. -/
theorem position_next : (ρ.regs i).delayCounter + ρ.position i k = 250067 := by
  have hij := h.first.lt
  have hjk := h.lt
  have hd := (ρ.regs_valid i).delayCounter_le
  have hjpos := h.position_pulse
  obtain ⟨-, hphase, -⟩ := regs_succ_of_spiCs_falls h.next
  rcases Nat.lt_or_ge ((ρ.regs i).delayCounter + ρ.position i k) 250068 with hlt | hge
  -- the state before the second window is the last one of the schedule
  · rw [h.regs_eq (by omega) le_rfl hlt, frameAt_phase_eq_waitCs] at hphase
    omega
  -- the schedule would end earlier, and `SPI_CS` would fall in the gap
  · obtain ⟨m, him, hmk, hm, hcount⟩ := exists_slowEdge (ρ := ρ) (a := i + 1) (b := k)
      (e := ρ.slowEdges (i + 1) + (250067 - (ρ.regs i).delayCounter)) (Nat.le_add_right _ _)
      (by rw [position] at hge; omega)
    have hpos : ρ.position i m = 250067 - (ρ.regs i).delayCounter := by
      rw [position, hcount, Nat.add_sub_cancel_left]
    have hjm : j < m := by
      rw [position] at hjpos hpos
      exact ρ.slowEdges_monotone.reflect_lt (by omega)
    have hlast : (ρ.regs m).phase = .waitCs := by
      rw [h.regs_eq him hmk.le (by omega), frameAt_phase_eq_waitCs]
      omega
    have hlow := spiCs_succ_of_waitCs hm hlast
    rw [h.high (m + 1) (by omega) hmk] at hlow
    cases hlow

/-- **The length of the gap**: what the delay counter lacks to 250002 when the first window
starts. -/
theorem slowEdges_add :
    ρ.slowEdges k + (ρ.regs i).delayCounter = ρ.slowEdges j + 250002 := by
  have hd := (ρ.regs_valid i).delayCounter_le
  have hj := h.position_pulse
  have hk := h.position_next
  rw [position] at hj hk
  omega

theorem ticks_add :
    ρ.ticks k + 8 * (ρ.regs i).delayCounter = ρ.ticks j + 8 * 250002 := by
  have hlen := h.slowEdges_add
  have htj := ρ.ticks_of_slowEdgeAt j (regs_of_spiCs_rises h.first.risesAt).1
  have htk := ρ.ticks_of_slowEdgeAt k (regs_succ_of_spiCs_falls h.next).1
  omega

/-- The delay starts with the counter as it was at the start of the first window. -/
theorem delayCounter_pulse : (ρ.regs j).delayCounter = (ρ.regs i).delayCounter := by
  have hd := (ρ.regs_valid i).delayCounter_le
  have hj := h.position_pulse
  rw [h.regs_eq h.first.lt h.lt.le (by omega), hj]
  rfl

/-- The end of the delay clears the counter. -/
theorem delayCounter_next : (ρ.regs k).delayCounter = 0 := by
  have hd := (ρ.regs_valid i).delayCounter_le
  have hnext := h.position_next
  rw [h.regs_eq (h.first.lt.trans h.lt) le_rfl (by omega)]
  unfold frameAt
  split_ifs <;> first | rfl | omega

theorem state_pulse : ρ.state j = SpiMaster.transactionEnd := by
  have hd := (ρ.regs_valid i).delayCounter_le
  have hpos := h.position_pulse
  refine (ρ.state_eq_encode_iff j (p := .transactionEnd)).mpr ?_
  rw [h.regs_eq h.first.lt h.lt.le (by omega), hpos]
  rfl

/-- The slow edges in `TRANSACTION_END` are what the counter lacks to its period. The counter gives
them modulo the period, and the length of the gap bounds them. -/
theorem edgesIn_add :
    ρ.edgesIn SpiMaster.transactionEnd j k + (ρ.regs i).delayCounter = 250001 := by
  have hlen := h.slowEdges_add
  have hd := (ρ.regs_valid i).delayCounter_le
  have hfirst : ρ.edgesIn SpiMaster.transactionEnd j (j + 1) = 1 := by
    rw [edgesIn_of_slowEdgeAt le_rfl (regs_of_spiCs_rises h.first.risesAt).1 h.state_pulse,
      edgesIn, stepsIn_self, List.length_nil]
  have hsplit := ρ.edgesIn_append SpiMaster.transactionEnd (show j ≤ j + 1 by omega) h.lt
  have hle := ρ.edgesIn_add_slowEdges_le SpiMaster.transactionEnd h.lt.le
  have happend := ρ.edgesIn_append SpiMaster.transactionEnd j.zero_le h.lt.le
  have hcj := delayCounter_eq_edgesIn ρ j
  have hck := delayCounter_eq_edgesIn ρ k
  rw [h.delayCounter_pulse] at hcj
  rw [h.delayCounter_next] at hck
  omega

end FrameGap

/-! ## Resets in the gap -/

/-- Every falling edge of `reset_n` before step `n` finds the machine outside `TRANSACTION_END`, or
in it with nothing counted yet. -/
def DelayKept (ρ : Run) (n : ℕ) : Prop :=
  ∀ m < n, ρ.resetN.FallsAt m → ρ.state m = SpiMaster.transactionEnd →
    (ρ.top m).spiMasterUut.delayCounterTransitionLogic = 0#32

/-- **Without a reset in a running delay the counter is clear outside `TRANSACTION_END`.** -/
theorem delayCounter_of_delayKept (h : ρ.DelayKept n)
    (hp : (ρ.regs n).phase ≠ .transactionEnd) : (ρ.regs n).delayCounter = 0 := by
  induction n with
  | zero => rfl
  | succ n ih =>
    have ih := ih fun m hm => h m (by omega)
    rcases ρ.regs_succ n with ⟨hs, -, hregs⟩ | ⟨-, hf, hregs⟩ | ⟨-, -, hregs⟩
    · rw [hregs] at hp ⊢
      rw [slowEdge_delayCounter]
      by_cases hend : (ρ.regs n).phase = .transactionEnd
      -- the slow edge leaves `TRANSACTION_END`, so the counter is at its end
      · have hr : ρ.resetN n = true := ρ.resetN_of_phase_ne_reset n (by simp [hend])
        have hexit : (ρ.regs n).delayCounter = 250000 := by
          by_contra hne
          rw [slowEdge_phase, hr, if_pos rfl] at hp
          exact hp ((nextPhase_eq_transactionEnd _).mpr (Or.inr ⟨hend, hne⟩))
        rw [if_pos hend, if_pos hexit]
      · rw [if_neg hend]
        exact ih hend
    -- the clear finds nothing counted
    · rw [hregs]
      change (ρ.regs n).delayCounter = 0
      by_cases hend : (ρ.regs n).phase = .transactionEnd
      · have hstate := (ρ.state_eq_encode_iff n (p := .transactionEnd)).mpr hend
        rw [← delayCounter_toNat, h n (by omega) hf hstate]
        rfl
      · exact ih hend
    · rw [hregs] at hp ⊢
      exact ih hp

/-- **The gap between two frames.** For any two consecutive windows of `SPI_CS` with `reset_n` high
from the start of the first to the start of the second, the gap and the slow edges of
`TRANSACTION_END` in it are 250002 and 250001, each less what the delay counter holds when the delay
starts. So the gap has 250002 slow periods, and the delay starts at 0, if and only if the slow edges
spent in `TRANSACTION_END` before the first window are a multiple of 250001; and they are if no
reset has come in a running delay. -/
theorem frame_gap (h : ρ.FrameGap i j k) :
    ρ.slowEdges k + (ρ.top j).spiMasterUut.delayCounterTransitionLogic.toNat =
        ρ.slowEdges j + 250002 ∧
      ρ.ticks k + 8 * (ρ.top j).spiMasterUut.delayCounterTransitionLogic.toNat =
        ρ.ticks j + 8 * 250002 ∧
      ρ.edgesIn SpiMaster.transactionEnd j k +
        (ρ.top j).spiMasterUut.delayCounterTransitionLogic.toNat = 250001 ∧
      (ρ.slowEdges k = ρ.slowEdges j + 250002 ↔
        ρ.edgesIn SpiMaster.transactionEnd 0 i % 250001 = 0) ∧
      ((ρ.top j).spiMasterUut.delayCounterTransitionLogic = 0#32 ↔
        ρ.edgesIn SpiMaster.transactionEnd 0 i % 250001 = 0) ∧
      (ρ.DelayKept i → ρ.slowEdges k = ρ.slowEdges j + 250002) := by
  have hcounter : (ρ.top j).spiMasterUut.delayCounterTransitionLogic.toNat =
      (ρ.regs i).delayCounter := (ρ.delayCounter_toNat j).trans h.delayCounter_pulse
  have hlen := h.slowEdges_add
  rw [← delayCounter_eq_edgesIn, ← BitVec.toNat_inj, hcounter]
  refine ⟨hlen, h.ticks_add, h.edgesIn_add, by omega, Iff.rfl, ?_⟩
  intro hkept
  have hphase := (regs_succ_of_spiCs_falls h.first.falls).2.1
  have hzero := delayCounter_of_delayKept hkept (by simp [hphase])
  omega

/-! ## Gaps of given runs -/

/-- A frame without reset that runs to the end of its schedule ends in a gap. -/
theorem frameGap_of_frameAt {d : ℕ} (hd : d ≤ 250000) (hi : ρ.SlowEdgeAt i)
    (hcs : ρ.spiCs i = true) (hregs : ρ.regs (i + 1) = frameAt d 0)
    (hj : ρ.SlowEdgeAt j) (hj' : ρ.slowEdges j = ρ.slowEdges i + 66)
    (hk : ρ.SlowEdgeAt k) (hk' : ρ.slowEdges k + d = ρ.slowEdges i + 250068)
    (hr : ρ.ResetHigh (i + 1) (k + 1)) : ρ.FrameGap i j k := by
  have hstart := ρ.slowEdges_succ_of_slowEdgeAt i hi
  have hij : i < j := ρ.slowEdges_monotone.reflect_lt (by omega)
  have hjk : j < k := ρ.slowEdges_monotone.reflect_lt (by omega)
  -- between the falling edges of `SPI_CS` its level is that of the schedule
  have hsched : ∀ n, i < n → n ≤ k → ρ.regs n = frameAt d (ρ.position i n) := by
    intro n hin hnk
    have hmono := ρ.slowEdges_monotone hnk
    rw [regs_eq_iterate (show i + 1 ≤ n from hin) (hr.of_le le_rfl (by omega)), hregs]
    exact iterate_slowEdge_frameAt hd (by omega)
  have hlevel : ∀ n, i < n → n ≤ k → ρ.spiCs n = decide (65 < ρ.position i n) := by
    intro n hin hnk
    rw [spiCs_eq, hsched n hin hnk, frameAt_spiCs]
  have hafter : ∀ n, j < n → n ≤ k → ρ.spiCs n = true := by
    intro n hjn hnk
    have hstep := ρ.slowEdges_succ_of_slowEdgeAt j hj
    have hmono := ρ.slowEdges_monotone (show j + 1 ≤ n from hjn)
    rw [hlevel n (by omega) hnk, decide_eq_true_iff, position]
    omega
  refine ⟨⟨⟨⟨hcs, ?_⟩, hij, ?_⟩, hafter (j + 1) j.lt_succ_self hjk⟩, hjk, hafter,
    ⟨hafter k hjk le_rfl, ?_⟩, hr.of_le le_rfl k.le_succ⟩
  · rw [hlevel (i + 1) i.lt_succ_self (by omega), position_first]
    rfl
  · intro n hin hnj
    have hmono := ρ.slowEdges_monotone hnj
    rw [hlevel n hin (by omega), decide_eq_false_iff_not, position]
    omega
  -- the schedule ends, and the second window starts
  · have hpos : d + ρ.position i k = 250067 := by
      rw [position]
      omega
    rw [spiCs_eq, regs_of_slowEdgeAt hk, hr k (by omega) k.le_succ, hsched k (by omega) le_rfl,
      slowEdge_frameAt_last (by omega) hpos]
    rfl

/-- The first gap of the free run. -/
theorem freeRun_frameGap : (freeRun false).FrameGap 203 731 2000747 := by
  refine frameGap_of_frameAt (d := 0) (by omega) (freeRun_slowEdgeAt _ (by decide))
    (freeRun_lowPulse false).falls.1 ?_ (freeRun_slowEdgeAt _ (by decide)) ?_
    (freeRun_slowEdgeAt _ (by decide)) ?_ (freeRun_resetHigh false _ _)
  · exact regs_eq_frameAt (m := 0) (r := 0) (freeRun_resetHigh false _ _) (by omega)
      (by rw [freeRun_slowEdges])
  · rw [freeRun_slowEdges, freeRun_slowEdges]
  · rw [freeRun_slowEdges, freeRun_slowEdges]

theorem frame_gap_freeRun :
    (freeRun false).slowEdges 2000747 = (freeRun false).slowEdges 731 + 250002 :=
  (frame_gap freeRun_frameGap).2.2.2.2.2 fun m _ hf => by
    have hlow := hf.2
    rw [freeRun_resetN] at hlow
    cases hlow

/-- The free run with a pulse of `reset_n` in the last slow period of the first delay: the machine
starts again with the counter at 250000. -/
theorem pulsedRun_frameGap : (pulsedRun 2000725).FrameGap 2002813 2003341 2003357 := by
  have hpulse : (pulsedRun 2000725).regs 2000725 = frameAt 0 250065 := by
    rw [regs_eq_frameAt (m := 0) (r := 250065) (fun k _ hk => (pulsedRun_before hk).2) (by omega)]
    rw [slowEdges_eq, (pulsedRun_before le_rfl).1]
  refine frameGap_of_frameAt (d := 250000) (by omega)
    (pulsedRun_slowEdgeAt_after (by omega) (by omega)) ?_ ?_
    (pulsedRun_slowEdgeAt_after (by omega) (by omega)) ?_
    (pulsedRun_slowEdgeAt_after (by omega) (by omega)) ?_
    (fun n hn _ => (pulsedRun_after (by omega)).2)
  · rw [spiCs_eq, pulsedRun_regs_after (by omega), hpulse]
    decide +kernel
  · rw [pulsedRun_regs_after (by omega), hpulse]
    decide +kernel
  · rw [pulsedRun_slowEdges (by omega), pulsedRun_slowEdges (by omega)]
  · rw [pulsedRun_slowEdges (by omega), pulsedRun_slowEdges (by omega)]

/-- After that reset the next gap has 2 slow periods. -/
theorem frame_gap_short :
    (pulsedRun 2000725).FrameGap 2002813 2003341 2003357 ∧
      (pulsedRun 2000725).slowEdges 2003357 = (pulsedRun 2000725).slowEdges 2003341 + 2 ∧
      (pulsedRun 2000725).slowEdges 2003357 ≠ (pulsedRun 2000725).slowEdges 2003341 + 250002 := by
  have hk := pulsedRun_slowEdges (a := 2000725) (n := 2003357) (by omega)
  have hj := pulsedRun_slowEdges (a := 2000725) (n := 2003341) (by omega)
  refine ⟨pulsedRun_frameGap, ?_, ?_⟩
  · rw [hk, hj]
  · rw [hk, hj]
    decide

end Run

end ADS131A0X
