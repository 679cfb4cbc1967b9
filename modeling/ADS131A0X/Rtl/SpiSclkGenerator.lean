import ADS131A0X.Rtl.ClockSynthesizer

/-!
# The SPI clock generator

`spi_sclk_generator` toggles `SPI_SCLK` and counts the toggles while the state machine is in
`TRANSACTION_IN_PROGRESS`, on a divided clock of its own.

## Main definitions

* `SpiSclkGenerator`: the registers, with those of its two dividers
* `SpiSclkGenerator.posedgeSynthesizedClock`: the block that drives `SPI_SCLK` and the count
* `SpiSclkGenerator.posedgeSystemClock`: one edge of the system clock
-/

namespace ADS131A0X

/-- The registers of `spi_sclk_generator`. -/
structure SpiSclkGenerator where
  spiSclkClockState : Bool := true
  clockCyclesTemp : BitVec 8 := 0#8
  clockSynthesizerUut0 : ClockSynthesizer := {}
  clockSynthesizerUut1 : ClockSynthesizer := {}
  deriving DecidableEq, Repr

namespace SpiSclkGenerator

/-- The parameter `TRANSACTION_IN_PROGRESS`, at the width of the port `state_machine`. -/
def transactionInProgress : BitVec 5 := 6#5

/-- The wire `synthesized_clock_8_333Mhz`. -/
def synthesizedClock8333 (g : SpiSclkGenerator) : Bool := g.clockSynthesizerUut0.clockPol

/-- The wire `synthesized_clock_4_167Mhz`. -/
def synthesizedClock4167 (g : SpiSclkGenerator) : Bool := g.clockSynthesizerUut1.clockPol

/-- The output `SPI_SCLK`. -/
def spiSclk (g : SpiSclkGenerator) : Bool := g.spiSclkClockState

/-- The output `SPI_SCLK_internal_use`. -/
def spiSclkInternalUse (g : SpiSclkGenerator) : Bool := g.synthesizedClock4167

/-- The output `CLOCK_CYCLES`. -/
def clockCycles (g : SpiSclkGenerator) : BitVec 8 := g.clockCyclesTemp

/-- The block at `posedge synthesized_clock_8_333Mhz`. -/
def posedgeSynthesizedClock (stateMachine : BitVec 5) (g : SpiSclkGenerator) :
    SpiSclkGenerator :=
  if stateMachine = transactionInProgress then
    -- two edges for each of the 32 bits
    if g.clockCyclesTemp.toNat ≤ 15 + 16 + 16 + 16 then
      { g with
        spiSclkClockState := !g.spiSclkClockState
        clockCyclesTemp := g.clockCyclesTemp + 1#8 }
    else
      { g with spiSclkClockState := g.spiSclkClockState }
  else
    -- outside a transaction `SPI_SCLK` is deasserted
    { g with
      spiSclkClockState := false
      clockCyclesTemp := 0#8 }

/-- The two dividers at an edge of the system clock. -/
def divide (g : SpiSclkGenerator) : SpiSclkGenerator :=
  { g with
    clockSynthesizerUut0 := g.clockSynthesizerUut0.posedgeInputClock 3#32
    clockSynthesizerUut1 := g.clockSynthesizerUut1.posedgeInputClock 6#32 }

/-- One edge of the system clock. The block above runs when the first divider raises its output;
it reads the port `state_machine` as it was before the edge. -/
def posedgeSystemClock (stateMachine : BitVec 5) (g : SpiSclkGenerator) : SpiSclkGenerator :=
  if !g.synthesizedClock8333 && g.divide.synthesizedClock8333 then
    g.divide.posedgeSynthesizedClock stateMachine
  else
    g.divide

/-! ## The registers after one edge -/

section Edge

variable (stateMachine : BitVec 5) (g : SpiSclkGenerator)

@[simp] theorem posedgeSynthesizedClock_uut0 :
    (g.posedgeSynthesizedClock stateMachine).clockSynthesizerUut0 = g.clockSynthesizerUut0 := by
  unfold posedgeSynthesizedClock
  split_ifs <;> rfl

@[simp] theorem posedgeSynthesizedClock_uut1 :
    (g.posedgeSynthesizedClock stateMachine).clockSynthesizerUut1 = g.clockSynthesizerUut1 := by
  unfold posedgeSynthesizedClock
  split_ifs <;> rfl

@[simp] theorem posedgeSystemClock_uut0 :
    (g.posedgeSystemClock stateMachine).clockSynthesizerUut0 =
      g.clockSynthesizerUut0.posedgeInputClock 3#32 := by
  unfold posedgeSystemClock
  split
  · rw [posedgeSynthesizedClock_uut0]
    rfl
  · rfl

@[simp] theorem posedgeSystemClock_uut1 :
    (g.posedgeSystemClock stateMachine).clockSynthesizerUut1 =
      g.clockSynthesizerUut1.posedgeInputClock 6#32 := by
  unfold posedgeSystemClock
  split
  · rw [posedgeSynthesizedClock_uut1]
    rfl
  · rfl

/-- Where the first divider raises its output, the pins move as the clocked block says. -/
theorem posedgeSystemClock_of_rise
    (h : g.synthesizedClock8333 = false ∧ g.divide.synthesizedClock8333 = true) :
    (g.posedgeSystemClock stateMachine).spiSclk =
        (g.posedgeSynthesizedClock stateMachine).spiSclk ∧
      (g.posedgeSystemClock stateMachine).clockCycles =
        (g.posedgeSynthesizedClock stateMachine).clockCycles := by
  unfold posedgeSystemClock
  rw [if_pos (by simp [h])]
  unfold posedgeSynthesizedClock divide
  split_ifs <;> exact ⟨rfl, rfl⟩

/-- At every other edge of the system clock the pins rest. -/
theorem posedgeSystemClock_of_not_rise
    (h : ¬ (g.synthesizedClock8333 = false ∧ g.divide.synthesizedClock8333 = true)) :
    (g.posedgeSystemClock stateMachine).spiSclk = g.spiSclk ∧
      (g.posedgeSystemClock stateMachine).clockCycles = g.clockCycles := by
  unfold posedgeSystemClock
  rw [if_neg (by simpa using h)]
  exact ⟨rfl, rfl⟩

end Edge

end SpiSclkGenerator

end ADS131A0X
