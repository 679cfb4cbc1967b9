import ADS131A0X.Base.Machine
import ADS131A0X.Base.Waveform
import ADS131A0X.Rtl.SpiMaster

/-!
# The top module and its runs

The top module connects the SPI master, the heartbeat and the block that captures `SPI_MISO`. Its
environment raises the system clock and moves the levels of `reset_n` and `SPI_MISO` between the
clock edges, in any order. A run is such a sequence of events from power-up; the inputs `adc_init`
and `adc_ready` are connected to nothing.

## Main definitions

* `Top`, `Top.posedgeSystemClock`: the registers of the design and one edge of the system clock
* `Event`, `Top.step`: what the environment does, and the reaction of the design
* `Run`, `Run.top`: a sequence of events from power-up, and the design along it
* `Run.spiCs`, `Run.spiSclk`, ...: the pins along a run
* `Run.SlowEdgeAt`: the rising edges of the divided clock, and `Run.ticks`, `Run.slowEdges`
-/

namespace ADS131A0X

open Transition Waveform

/-- The registers of the design, and the levels at its input pins. -/
structure Top where
  resetN : Bool
  spiMiso : Bool
  heartbeatUut : Heartbeat := {}
  spiMasterUut : SpiMaster := {}
  spiMisoData : BitVec 32 := 0#32
  deriving DecidableEq, Repr

namespace Top

/-- The bit select `data[index] <= level`; a select out of range writes nothing. -/
def writeBit (data : BitVec 32) (index : BitVec 32) (level : Bool) : BitVec 32 :=
  if index.toNat < 32 then
    (data &&& ~~~(1#32 <<< index)) ||| ((BitVec.ofBool level).setWidth 32 <<< index)
  else
    data

/-- The block at `negedge SPI_SCLK_Temp`, for the value `spi_miso_data_cc` of the bit count. -/
def negedgeSpiSclk (spiMisoDataCc : BitVec 8) (t : Top) : Top :=
  { t with
    spiMisoData := writeBit t.spiMisoData (32#32 - spiMisoDataCc.setWidth 32) t.spiMiso }

/-- The instances at an edge of the system clock. -/
def clock (t : Top) : Top :=
  { t with
    heartbeatUut := t.heartbeatUut.posedgeInputClock
    spiMasterUut := t.spiMasterUut.posedgeSystemClock t.resetN }

/-- One edge of the system clock. `SPI_MISO` is captured if `SPI_SCLK` falls at it. -/
def posedgeSystemClock (t : Top) : Top :=
  if t.spiMasterUut.spiSclk && !t.clock.spiMasterUut.spiSclk then
    t.clock.negedgeSpiSclk t.clock.spiMasterUut.spiMisoDataCcOutput
  else
    t.clock

@[simp] theorem posedgeSystemClock_spiMasterUut (t : Top) :
    t.posedgeSystemClock.spiMasterUut = t.spiMasterUut.posedgeSystemClock t.resetN := by
  unfold posedgeSystemClock
  split <;> rfl

@[simp] theorem posedgeSystemClock_resetN (t : Top) :
    t.posedgeSystemClock.resetN = t.resetN := by
  unfold posedgeSystemClock
  split <;> rfl

end Top

/-- What the environment can do: raise the system clock, or move an input pin. -/
inductive Event
  | systemClock
  | resetN (level : Bool)
  | spiMiso (level : Bool)
  deriving DecidableEq, Repr

namespace Top

/-- The reaction of the design to an event. -/
def step (t : Top) : Event → Top
  | .systemClock => t.posedgeSystemClock
  -- only a falling edge of `reset_n` is in the sensitivity list of the state register
  | .resetN level =>
    { t with
      resetN := level
      spiMasterUut :=
        if t.resetN && !level then t.spiMasterUut.negedgeResetN else t.spiMasterUut }
  | .spiMiso level => { t with spiMiso := level }

/-- The design at power-up, with the input pins at the given levels. -/
def machine (resetN spiMiso : Bool) : Machine Event Top where
  init := { resetN, spiMiso }
  step := step

end Top

/-- A run of the design: the levels of the input pins at power-up, and the events that follow. -/
structure Run where
  resetN₀ : Bool
  spiMiso₀ : Bool
  event : ℕ → Event

namespace Run

/-- The design after the first `n` events of the run. -/
def top (ρ : Run) : ℕ → Top := (Top.machine ρ.resetN₀ ρ.spiMiso₀).run ρ.event

theorem top_succ (ρ : Run) (n : ℕ) : ρ.top (n + 1) = (ρ.top n).step (ρ.event n) :=
  Machine.run_succ _ _ n

/-! ## Pins -/

/-- The input pin `reset_n` along the run. -/
def resetN (ρ : Run) : Signal := fun n => (ρ.top n).resetN

/-- The input pin `SPI_MISO` along the run. -/
def spiMiso (ρ : Run) : Signal := fun n => (ρ.top n).spiMiso

/-- The output pin `SPI_CS` along the run. -/
def spiCs (ρ : Run) : Signal := fun n => (ρ.top n).spiMasterUut.spiCs

/-- The output pin `SPI_SCLK` along the run. -/
def spiSclk (ρ : Run) : Signal := fun n => (ρ.top n).spiMasterUut.spiSclk

/-- The output pin `SPI_RESET` along the run. -/
def spiReset (ρ : Run) : Signal := fun n => (ρ.top n).spiMasterUut.spiReset

/-- The output pin `SPI_MOSI` along the run. -/
def spiMosi (ρ : Run) : Signal := fun n => (ρ.top n).spiMasterUut.spiMosi

/-- The output `count_cs_debug` along the run. -/
def countCs (ρ : Run) (n : ℕ) : BitVec 8 := (ρ.top n).spiMasterUut.countCsTracker

/-- The output `state` along the run. -/
def state (ρ : Run) (n : ℕ) : BitVec 5 := (ρ.top n).spiMasterUut.currentState

/-- The output `spi_miso_data_output` along the run. -/
def spiMisoDataOutput (ρ : Run) (n : ℕ) : BitVec 32 := (ρ.top n).spiMisoData

/-! ## Time -/

/-- The divided clock of the state machine along the run. -/
def synthesizedClock (ρ : Run) : Signal := fun n => (ρ.top n).spiMasterUut.synthesizedClock4167

/-- Step `n` is a rising edge of the divided clock of the state machine. -/
def SlowEdgeAt (ρ : Run) (n : ℕ) : Prop := ρ.synthesizedClock.RisesAt n

instance (ρ : Run) : DecidablePred ρ.SlowEdgeAt := fun n =>
  inferInstanceAs (Decidable (ρ.synthesizedClock.RisesAt n))

/-- The number of edges of the system clock among the first `n` events. -/
def ticks (ρ : Run) (n : ℕ) : ℕ := Nat.count (fun k => ρ.event k = .systemClock) n

/-- The number of rising edges of the divided clock among the first `n` events. -/
def slowEdges (ρ : Run) (n : ℕ) : ℕ := Nat.count ρ.SlowEdgeAt n

end Run

end ADS131A0X
