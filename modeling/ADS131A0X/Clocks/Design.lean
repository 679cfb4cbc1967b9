import ADS131A0X.Clocks.Dividers
import ADS131A0X.Clocks.SclkGenerator
import ADS131A0X.SingleClock.Lockstep

/-!
# The clocks in the design

The dividers, the heartbeat and the clock generator are instances in the design. Along every run,
whatever `reset_n` does, each of them is the component alone, run on the edges of the system clock
so far; the clock generator samples the state of the state machine. What holds of a component for
every input holds of its instance.

## Main definitions

* `Run.heartbeat`: the output `heartbeat` along a run

## Main results

* `Run.dividers_eq`, `Run.heartbeatUut_eq`: the instances of `clock_synthesizer` and `heartbeat`
* `Run.spiSclkGeneratorUut_eq`: the instance of `spi_sclk_generator`
* `Run.exists_value`: the pins of the driver are those of the generator at the slow edges
* `Run.count_heartbeat_rises`: the frequency of the output `heartbeat`
-/

namespace ADS131A0X

open Transition Waveform Divider

namespace Run

variable (ρ : Run) (n : ℕ)

/-! ## Instances that only the system clock moves -/

section Instances

variable {ρ n}

theorem spiMasterUut_of_systemClock (h : ρ.event n = .systemClock) :
    (ρ.top (n + 1)).spiMasterUut =
      (ρ.top n).spiMasterUut.posedgeSystemClock (ρ.resetN n) := by
  rw [top_succ, h, Top.step, Top.posedgeSystemClock_spiMasterUut]
  rfl

/-- Between the edges of the system clock only the state and the `SPI_MOSI` latch can move. -/
theorem spiMasterUut_of_not (h : ρ.event n ≠ .systemClock) :
    (ρ.top (n + 1)).spiMasterUut.clockSynthesizerUut =
        (ρ.top n).spiMasterUut.clockSynthesizerUut ∧
      (ρ.top (n + 1)).spiMasterUut.spiSclkGeneratorUut =
        (ρ.top n).spiMasterUut.spiSclkGeneratorUut := by
  rw [top_succ]
  cases he : ρ.event n with
  | systemClock => exact absurd he h
  | resetN level =>
    simp only [Top.step]
    split
    · rw [SpiMaster.negedgeResetN, SpiMaster.spiMosiHandler_eq]
      exact ⟨rfl, rfl⟩
    · exact ⟨rfl, rfl⟩
  | spiMiso level => exact ⟨rfl, rfl⟩

end Instances

/-- **The dividers** of the driver are those of the limits 3, 3 and 6 from power-up. -/
theorem dividers_eq :
    (ρ.top n).spiMasterUut.clockSynthesizerUut = .fromPowerUp 3#32 (ρ.ticks n) ∧
      (ρ.top n).spiMasterUut.spiSclkGeneratorUut.clockSynthesizerUut0 =
        .fromPowerUp 3#32 (ρ.ticks n) ∧
      (ρ.top n).spiMasterUut.spiSclkGeneratorUut.clockSynthesizerUut1 =
        .fromPowerUp 6#32 (ρ.ticks n) := by
  refine ⟨?_, ?_, ?_⟩
  · refine iterate_sampled (fun n => (ρ.top n).spiMasterUut.clockSynthesizerUut) ?_ ?_ n
    · intro n h
      simp only [spiMasterUut_of_systemClock h, SpiMaster.posedgeSystemClock_clockSynthesizerUut]
    · exact fun n h => (spiMasterUut_of_not h).1
  · refine iterate_sampled
      (fun n => (ρ.top n).spiMasterUut.spiSclkGeneratorUut.clockSynthesizerUut0) ?_ ?_ n
    · intro n h
      simp only [spiMasterUut_of_systemClock h, SpiMaster.posedgeSystemClock_spiSclkGeneratorUut,
        SpiSclkGenerator.posedgeSystemClock_uut0]
    · exact fun n h => congrArg _ (spiMasterUut_of_not h).2
  · refine iterate_sampled
      (fun n => (ρ.top n).spiMasterUut.spiSclkGeneratorUut.clockSynthesizerUut1) ?_ ?_ n
    · intro n h
      simp only [spiMasterUut_of_systemClock h, SpiMaster.posedgeSystemClock_spiSclkGeneratorUut,
        SpiSclkGenerator.posedgeSystemClock_uut1]
    · exact fun n h => congrArg _ (spiMasterUut_of_not h).2

/-! ## The heartbeat -/

theorem heartbeatUut_eq : (ρ.top n).heartbeatUut = .fromPowerUp (ρ.ticks n) := by
  refine iterate_sampled (fun n => (ρ.top n).heartbeatUut) ?_ ?_ n
  · intro n h
    simp only [top_succ, h, Top.step]
    unfold Top.posedgeSystemClock
    split <;> rfl
  · intro n h
    simp only [top_succ]
    cases he : ρ.event n with
    | systemClock => exact absurd he h
    | resetN level => rfl
    | spiMiso level => rfl

/-- The output `heartbeat` along the run. -/
def heartbeat (ρ : Run) : Signal := fun n => (ρ.top n).heartbeatUut.clockPol

/-- **The output `heartbeat`** rises once in 5000000 edges of the system clock. -/
theorem count_heartbeat_rises :
    Nat.count ρ.heartbeat.RisesAt n = (ρ.ticks n + 2500000) / 5000000 := by
  refine count_rises_of_divided (m := 2500000) (by decide) fun k => ?_
  rw [heartbeat, heartbeatUut_eq, Heartbeat.clockPol_fromPowerUp]

/-! ## The clock generator -/

/-- **The clock generator** of the driver samples the state at the edges of the system clock. -/
theorem spiSclkGeneratorUut_eq :
    (ρ.top n).spiMasterUut.spiSclkGeneratorUut =
      SpiSclkGenerator.ticks.run
        (fun t => ρ.state (Nat.nth (fun k => ρ.event k = .systemClock) t)) (ρ.ticks n) := by
  refine Machine.run_sampled (fun n => (ρ.top n).spiMasterUut.spiSclkGeneratorUut) ρ.state rfl
    ?_ ?_ n
  · intro n h
    simp only [spiMasterUut_of_systemClock h, SpiMaster.posedgeSystemClock_spiSclkGeneratorUut]
    rfl
  · exact fun n h => (spiMasterUut_of_not h).2

/-- **The pins of the driver are those of the generator at the slow edges**, with the states at
these edges on its port. -/
theorem exists_value :
    ∃ value : ℕ → BitVec 5, (∀ n, ρ.SlowEdgeAt n → value (ρ.slowEdges n) = ρ.state n) ∧
      ∀ n, ρ.spiSclk n = (SpiSclkGenerator.edges.run value (ρ.slowEdges n)).spiSclk ∧
        ρ.countCs n = (SpiSclkGenerator.edges.run value (ρ.slowEdges n)).clockCycles := by
  refine ⟨fun e => ρ.state (Nat.nth (fun k => ρ.event k = .systemClock) (8 * e + 3)), ?_, ?_⟩
  · intro n h
    have he := ((ρ.slowEdgeAt_iff n).mp h).1
    have hnth := Nat.nth_count (p := fun k => ρ.event k = .systemClock) he
    simp only [← ρ.ticks_of_slowEdgeAt n h]
    exact congrArg ρ.state hnth
  · intro n
    obtain ⟨-, hsclk, hcc⟩ := SpiSclkGenerator.ticks_eq_edges
      (fun t => ρ.state (Nat.nth (fun k => ρ.event k = .systemClock) t)) (fun _ => rfl) (ρ.ticks n)
    rw [← spiSclkGeneratorUut_eq, ← slowEdges_eq] at hsclk hcc
    exact ⟨hsclk, hcc⟩

end Run

end ADS131A0X
