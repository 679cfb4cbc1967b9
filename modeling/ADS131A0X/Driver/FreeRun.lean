import ADS131A0X.SingleClock.Lockstep
import ADS131A0X.SingleClock.Schedule

/-!
# The free run

With `reset_n` high from power-up on, the design runs the ADC reset once and then sends one frame
after the other. The whole run is the schedule of a frame, repeated: the registers after any
number of slow edges are known in closed form.

## Main definitions

* `Run.freeRun`: the run in which the environment does nothing but raise the system clock
* `Run.pulsedRun`: the same with one short pulse of `reset_n`
* `Run.abortedRun`: the pulse comes in the first bit of the first frame

## Main results

* `Run.regs_eq_frameAt`: the registers of a run without reset, from the first frame on
* `Run.free_running_schedule`: the pins of such a run
* `Run.freeRun_lowPulse`: the first frame of the free run
* `Run.pulsedRun_regs_after`: the registers after the pulse
-/

namespace ADS131A0X

open Waveform SingleClock

namespace Run

/-! ## Runs without reset -/

section NoReset

variable {ρ : Run} {n : ℕ}

/-- Without reset the registers are those of the slow edges so far. -/
theorem regs_eq_iterate_powerUp (h : ρ.ResetHigh 0 n) :
    ρ.regs n = (slowEdge true)^[ρ.slowEdges n] {} := by
  have hit := regs_eq_iterate (Nat.zero_le n) h
  rwa [show ρ.slowEdges 0 = 0 from Nat.count_zero _, Nat.sub_zero] at hit

/-- **Without reset, frames follow each other by the schedule**, the first one at slow edge 26. -/
theorem regs_eq_frameAt (h : ρ.ResetHigh 0 n) {m r : ℕ} (hr : r < 250068)
    (hn : ρ.slowEdges n = 26 + 250068 * m + r) : ρ.regs n = frameAt 0 r := by
  rw [regs_eq_iterate_powerUp h, hn, show 26 + 250068 * m + r = (250068 * m + r) + 26 by omega,
    Function.iterate_add_apply, iterate_slowEdge_powerUp, iterate_slowEdge_repeat m hr]

/-- **Free-running schedule.** When `reset_n` is high from power-up on, slow edge `e` is the edge of
`system_clock` number `8 e - 4`, so that after `t` of them there have been `⌊(t + 4) / 8⌋`; and after
slow edge `26 + 250068 m + r`, with `r < 250068`, `SPI_CS` is low iff `r < 66`, `SPI_SCLK` is high iff
`r` is odd and below 64, and `SPI_RESET` is high. -/
theorem free_running_schedule (ρ : Run) (h : ∀ n, ρ.resetN n = true) :
    (∀ k, ρ.SlowEdgeAt k ↔ ρ.event k = .systemClock ∧ ∃ e, 0 < e ∧ ρ.ticks k + 1 = 8 * e - 4) ∧
    (∀ k, ρ.SlowEdgeAt k → ρ.ticks (k + 1) = 8 * ρ.slowEdges (k + 1) - 4) ∧
    (∀ n, ρ.slowEdges n = (ρ.ticks n + 4) / 8) ∧
    (∀ n m r, r < 250068 → (ρ.ticks n + 4) / 8 = 26 + 250068 * m + r →
      (ρ.spiCs n = false ↔ r < 66) ∧ (ρ.spiSclk n = true ↔ r % 2 = 1 ∧ r < 64) ∧
        ρ.spiReset n = true) := by
  refine ⟨fun k => ?_, fun k hk => ?_, fun n => ρ.slowEdges_eq n, fun n m r hr hn => ?_⟩
  · rw [slowEdgeAt_iff]
    refine and_congr_right fun _ => ⟨fun hm => ?_, ?_⟩
    · exact ⟨(ρ.ticks k + 1) / 8 + 1, by omega, by omega⟩
    · rintro ⟨e, he, ht⟩
      omega
  · have ht := ρ.ticks_of_slowEdgeAt k hk
    rw [ticks_succ, slowEdges_succ_of_slowEdgeAt _ _ hk, if_pos ((ρ.slowEdgeAt_iff k).mp hk).1]
    omega
  -- the pins are read off the schedule
  · have hregs := regs_eq_frameAt (fun k _ _ => h k) hr ((ρ.slowEdges_eq n).trans hn)
    refine ⟨?_, ?_, ?_⟩
    · rw [spiCs_eq, hregs, frameAt_spiCs, decide_eq_false_iff_not]
      omega
    · rw [spiSclk_eq, hregs, frameAt_spiSclk, frameSclk, decide_eq_true_iff]
      omega
    · rw [spiReset_eq, hregs, frameAt_spiReset]

end NoReset

/-! ## The environment that only raises the clock -/

/-- The run in which the environment only raises the system clock, with `reset_n` high and
`SPI_MISO` at a fixed level. -/
def freeRun (spiMiso : Bool) : Run where
  resetN₀ := true
  spiMiso₀ := spiMiso
  event := fun _ => .systemClock

section FreeRun

variable (b : Bool) (n : ℕ)

@[simp] theorem freeRun_ticks : (freeRun b).ticks n = n :=
  Nat.count_of_forall fun _ _ => rfl

theorem freeRun_slowEdges : (freeRun b).slowEdges n = (n + 4) / 8 := by
  rw [slowEdges_eq, freeRun_ticks]

theorem freeRun_slowEdgeAt {n : ℕ} (h : (n + 1) % 8 = 4) : (freeRun b).SlowEdgeAt n := by
  rw [slowEdgeAt_iff, freeRun_ticks]
  exact ⟨rfl, h⟩

@[simp] theorem freeRun_resetN : (freeRun b).resetN n = true := by
  induction n with
  | zero => rfl
  | succ n ih => exact (resetN_succ _ _).trans ih

theorem freeRun_resetHigh (a c : ℕ) : (freeRun b).ResetHigh a c := fun n _ _ => freeRun_resetN b n

/-- The first slow edge of the second frame, and the one after it. -/
theorem free_running_schedule_freeRun :
    (freeRun false).SlowEdgeAt 2000747 ∧ (freeRun false).slowEdges 2000748 = 26 + 250068 ∧
      (freeRun false).spiCs 2000747 = true ∧ (freeRun false).spiCs 2000748 = false ∧
        (freeRun false).spiSclk 2000748 = false ∧ (freeRun false).spiSclk 2000756 = true ∧
          (freeRun false).spiReset 2000756 = true := by
  obtain ⟨hat, -, hcount, hpins⟩ := free_running_schedule (freeRun false) (freeRun_resetN false)
  have hlast := hpins 2000747 0 250067 (by decide) (by rw [freeRun_ticks])
  have hfirst := hpins 2000748 1 0 (by decide) (by rw [freeRun_ticks])
  have hsecond := hpins 2000756 1 1 (by decide) (by rw [freeRun_ticks])
  refine ⟨(hat _).mpr ⟨rfl, 250094, by decide, by rw [freeRun_ticks]⟩,
    by rw [hcount, freeRun_ticks], ?_, hfirst.1.mpr (by decide), ?_,
    hsecond.2.1.mpr (by decide), hsecond.2.2⟩
  · rw [← Bool.not_eq_false, hlast.1]
    decide
  · rw [← Bool.not_eq_true, hfirst.2.1]
    decide

/-- The first frame of the free run is from tick 204 to tick 732. -/
theorem freeRun_lowPulse : (freeRun b).spiCs.LowPulse 203 731 := by
  have hcs : ∀ n, 204 ≤ n → n < 1000 → (freeRun b).spiCs n = decide (732 ≤ n) := by
    -- the schedule, on the time base of the ticks
    intro n hn hn'
    have hcount := freeRun_slowEdges b n
    rw [spiCs_eq, regs_eq_frameAt (m := 0) (r := (n + 4) / 8 - 26) (freeRun_resetHigh b _ _)
      (by omega) (by omega), frameAt_spiCs]
    exact decide_eq_decide.mpr (by omega)
  refine ⟨⟨⟨?_, ?_⟩, by omega, fun k hk hk' => ?_⟩, ?_⟩
  · rw [spiCs_eq, regs_eq_iterate_powerUp (freeRun_resetHigh b _ _), freeRun_slowEdges]
    decide +kernel
  · rw [hcs _ (by omega) (by omega)]
    rfl
  · rw [hcs k (by omega) (by omega)]
    exact decide_eq_false (by omega)
  · rw [hcs _ (by omega) (by omega)]
    rfl

end FreeRun

/-! ## A pulse of `reset_n` -/

/-- The free run with a short pulse of `reset_n` at the events `a` and `a + 1`. -/
def pulsedRun (a : ℕ) : Run where
  resetN₀ := true
  spiMiso₀ := false
  event := fun n =>
    if n = a then .resetN false
    else if n = a + 1 then .resetN true
    else .systemClock

section PulsedRun

variable {a n : ℕ}

theorem pulsedRun_event (h : n < a ∨ a + 1 < n) : (pulsedRun a).event n = .systemClock := by
  show (if n = a then _ else if n = a + 1 then _ else _) = _
  rw [if_neg (by omega), if_neg (by omega)]

theorem pulsedRun_event_first : (pulsedRun a).event a = .resetN false := if_pos rfl

theorem pulsedRun_event_last : (pulsedRun a).event (a + 1) = .resetN true := by
  show (if a + 1 = a then _ else if a + 1 = a + 1 then _ else _) = _
  rw [if_neg (by omega), if_pos rfl]

theorem pulsedRun_before (h : n ≤ a) :
    (pulsedRun a).ticks n = n ∧ (pulsedRun a).resetN n = true := by
  induction n with
  | zero => exact ⟨ticks_zero _, rfl⟩
  | succ n ih =>
    obtain ⟨ht, hr⟩ := ih (by omega)
    have he := pulsedRun_event (a := a) (n := n) (by omega)
    rw [ticks_succ, resetN_succ, he, ht]
    exact ⟨rfl, hr⟩

theorem pulsedRun_after (h : a + 2 ≤ n) :
    (pulsedRun a).ticks n = n - 2 ∧ (pulsedRun a).resetN n = true := by
  induction n, h using Nat.le_induction with
  | base =>
    have ht := (pulsedRun_before (le_refl a)).1
    rw [ticks_succ, ticks_succ, resetN_succ, ht, pulsedRun_event_first, pulsedRun_event_last]
    exact ⟨by simp, rfl⟩
  | succ n hn ih =>
    have he := pulsedRun_event (a := a) (n := n) (by omega)
    rw [ticks_succ, resetN_succ, he, ih.1]
    exact ⟨by rw [if_pos rfl]; omega, ih.2⟩

theorem pulsedRun_slowEdgeAt_before (hn : n < a) (h : (n + 1) % 8 = 4) :
    (pulsedRun a).SlowEdgeAt n := by
  rw [slowEdgeAt_iff, pulsedRun_event (by omega), (pulsedRun_before hn.le).1]
  exact ⟨rfl, h⟩

theorem pulsedRun_slowEdgeAt_after (hn : a + 2 ≤ n) (h : (n - 2 + 1) % 8 = 4) :
    (pulsedRun a).SlowEdgeAt n := by
  rw [slowEdgeAt_iff, pulsedRun_event (by omega), (pulsedRun_after hn).1]
  exact ⟨rfl, h⟩

theorem pulsedRun_slowEdges (h : a + 2 ≤ n) : (pulsedRun a).slowEdges n = (n + 2) / 8 := by
  rw [slowEdges_eq, (pulsedRun_after h).1, show n - 2 + 4 = n + 2 by omega]

theorem pulsedRun_regs_before (h : n ≤ a) :
    (pulsedRun a).regs n = (slowEdge true)^[(n + 4) / 8] {} := by
  rw [regs_eq_iterate_powerUp fun k _ hk => (pulsedRun_before (by omega)).2, slowEdges_eq,
    (pulsedRun_before h).1]

/-- The pulse clears the state that the free run has reached. -/
theorem pulsedRun_regs_after (h : a + 2 ≤ n) :
    (pulsedRun a).regs n =
      (slowEdge true)^[(n + 2) / 8 - (a + 4) / 8] ((pulsedRun a).regs a).clear := by
  have hfall : (pulsedRun a).resetN.FallsAt a := by
    refine ⟨(pulsedRun_before le_rfl).2, ?_⟩
    rw [resetN_succ, pulsedRun_event_first]
  have hrest : (pulsedRun a).regs (a + 2) = (pulsedRun a).regs (a + 1) := by
    refine regs_rest (fun hs => ?_) fun hf => ?_
    · have he := ((slowEdgeAt_iff _ _).mp hs).1
      rw [pulsedRun_event_last] at he
      cases he
    · rw [Signal.FallsAt, hfall.2] at hf
      exact absurd hf.1 (by decide)
  rw [regs_eq_iterate h fun k hk _ => (pulsedRun_after hk).2, pulsedRun_slowEdges h,
    pulsedRun_slowEdges le_rfl, hrest, (regs_of_resetN_falls hfall).2]

end PulsedRun

/-! ## A frame cut short -/

/-- The free run with a short pulse of `reset_n` in the first bit of the first frame. -/
abbrev abortedRun : Run := pulsedRun 213

/-- The pulse clears the state one slow edge into the frame. -/
theorem abortedRun_regs_after {n : ℕ} (h : 215 ≤ n) :
    abortedRun.regs n = (slowEdge true)^[(n + 2) / 8 - 27] (frameAt 0 1).clear := by
  have h213 : abortedRun.regs 213 = frameAt 0 1 := by
    rw [regs_eq_frameAt (m := 0) (r := 1) (fun k _ hk => (pulsedRun_before hk).2) (by omega)]
    rw [slowEdges_eq, (pulsedRun_before le_rfl).1]
  rw [pulsedRun_regs_after h, h213]

end Run

end ADS131A0X
