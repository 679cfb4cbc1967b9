import ADS131A0X.Rtl.SpiSclkGenerator

/-!
# The SPI master

`SPI_Master` is the state machine of the driver. Its next-state logic is combinational, its output
logic and its state register are clocked by a divided clock, the state register is cleared
asynchronously by `reset_n`, and `SPI_MOSI` is a latch that follows a table while a transaction is
in progress.

## Main definitions

* `SpiMaster`: the registers, with those of the clock generator and of the divider
* `SpiMaster.nextState`, `SpiMaster.outputLogic`, `SpiMaster.stateRegister`,
  `SpiMaster.spiMosiHandler`: the four blocks of the module
* `SpiMaster.posedgeSystemClock`, `SpiMaster.negedgeResetN`: one edge of an input

## Implementation notes

Nonblocking assignments of one clock edge all read the registers as they were before the edge, so
each clocked block is a function of the old registers and the results are combined. The latch is
evaluated last, on the new state and count. The order of these two updates does not matter to it:
the count rests at the edge that leaves `TRANSACTION_IN_PROGRESS`.
-/

namespace ADS131A0X

/-- The registers of `SPI_Master`. -/
structure SpiMaster where
  messagePart0555 : BitVec 32 :=
    (0b0000_0101_0101_0101_0000_0000_0000_0000#16).setWidth 32
  messagePart0655 : BitVec 32 := 0x06550101#32
  messagePart0000 : BitVec 32 := 0b0000_0000_0000_0000_0000_0000_0000_0000#32
  spiMosiTemp : Bool := false
  spiCsTemp : Bool := true
  spiResetTemp : Bool := true
  spiTrigger : Bool := true
  currentState : BitVec 5 := 0#5
  stateTracker : BitVec 5 := 0#5
  adcResetCount : BitVec 8 := 0#8
  delayCounterTransitionLogic : BitVec 32 := 0#32
  spiMosiBitCount : BitVec 8 := 0#8
  spiMosiByteCount : Bool := true
  spiSclkGeneratorUut : SpiSclkGenerator := {}
  clockSynthesizerUut : ClockSynthesizer := {}
  deriving DecidableEq, Repr

namespace SpiMaster

/-! ## State encoding -/

@[match_pattern] def reset : BitVec 5 := 0#5
@[match_pattern] def idle : BitVec 5 := 1#5
@[match_pattern] def setup : BitVec 5 := 2#5
@[match_pattern] def waitTransaction : BitVec 5 := 3#5
@[match_pattern] def waitReset : BitVec 5 := 4#5
@[match_pattern] def waitCs : BitVec 5 := 5#5
@[match_pattern] def transactionInProgress : BitVec 5 := 6#5
@[match_pattern] def transactionEnd : BitVec 5 := 7#5
@[match_pattern] def transactionInProgress0655 : BitVec 5 := 8#5
@[match_pattern] def transactionEnd0655 : BitVec 5 := 9#5
@[match_pattern] def transactionInProgress0555 : BitVec 5 := 10#5
@[match_pattern] def transactionEnd0555 : BitVec 5 := 11#5

/-! ## Wires -/

/-- The wire `synthesized_clock_4_167Mhz`. -/
def synthesizedClock4167 (m : SpiMaster) : Bool := m.clockSynthesizerUut.clockPol

/-- The wire `count_cs_tracker`. -/
def countCsTracker (m : SpiMaster) : BitVec 8 := m.spiSclkGeneratorUut.clockCycles

/-- The output `SPI_SCLK`. -/
def spiSclk (m : SpiMaster) : Bool := m.spiSclkGeneratorUut.spiSclk

/-- The output `SPI_CS`. -/
def spiCs (m : SpiMaster) : Bool := m.spiCsTemp

/-- The output `SPI_MOSI`. -/
def spiMosi (m : SpiMaster) : Bool := m.spiMosiTemp

/-- The output `SPI_RESET`. -/
def spiReset (m : SpiMaster) : Bool := m.spiResetTemp

/-- The output `clock_4_167Mhz_debug`. -/
def clock4167MhzDebug (m : SpiMaster) : Bool := m.spiSclkGeneratorUut.spiSclkInternalUse

/-- The output `state_tracker_output`. -/
def stateTrackerOutput (m : SpiMaster) : BitVec 5 := m.stateTracker

/-- The output `spi_miso_data_cc_output`. -/
def spiMisoDataCcOutput (m : SpiMaster) : BitVec 8 := m.spiMosiBitCount

/-! ## Blocks -/

/-- State machine transition logic. -/
def nextState (m : SpiMaster) : BitVec 5 :=
  match m.currentState with
  | reset => idle
  | idle => setup
  | setup => waitReset
  | waitReset => if m.adcResetCount = 20#8 then waitTransaction else waitReset
  -- state 4: `spi_trigger` holds back the next transaction, if ever it is 0
  | waitTransaction => if m.spiTrigger then waitCs else waitTransaction
  -- state 5: one slow period between the fall of `SPI_CS` and the first clock edge
  | waitCs => transactionInProgress
  -- state 6: the count is the register of the clock generator, as it was before the edge
  | transactionInProgress =>
    if m.countCsTracker = 64#8 then transactionEnd else transactionInProgress
  | transactionEnd =>
    if m.delayCounterTransitionLogic = 250_000#32 then waitTransaction else transactionEnd
  | _ => idle

/-- State machine output logic. -/
def outputLogic (m : SpiMaster) : SpiMaster :=
  match m.currentState with
  | idle => { m with spiCsTemp := true }
  | setup => { m with spiCsTemp := true }
  -- the counter wraps at 8 bits, and no branch clears it
  | waitReset =>
    { m with
      adcResetCount := m.adcResetCount + 1#8
      spiCsTemp := true
      spiResetTemp := false }
  | waitTransaction =>
    { m with
      spiResetTemp := true
      spiCsTemp := true }
  | waitCs => { m with spiCsTemp := false }
  | transactionInProgress => { m with spiCsTemp := false }
  -- the delay counter is cleared on exit
  | transactionEnd =>
    { m with
      spiCsTemp := true
      delayCounterTransitionLogic :=
        if m.delayCounterTransitionLogic = 250_000#32 then 0#32
        else m.delayCounterTransitionLogic + 1#32 }
  | transactionInProgress0655 => { m with spiCsTemp := false }
  | transactionEnd0655 => { m with spiCsTemp := true }
  | transactionInProgress0555 => { m with spiCsTemp := false }
  | transactionEnd0555 => { m with spiCsTemp := true }
  | _ => { m with spiCsTemp := true }

/-- The state register at a clock edge, with `reset_n` at the given level. -/
def stateRegister (resetN : Bool) (m : SpiMaster) : BitVec 5 :=
  if !resetN then reset else m.nextState

/-- The rows of the `SPI_MOSI` table for `spi_mosi_byte_count` 0. -/
def mosiTable0 (countCsTracker : BitVec 8) : Bool :=
  match countCsTracker with
  | 0 => true  -- preamble (before bit 0)
  | 1 => false  -- bit 0
  | 2 => false
  | 3 => false  -- bit 1
  | 4 => false
  | 5 => false  -- bit 2
  | 6 => false
  | 7 => false  -- bit 3
  | 8 => false
  | 9 => false  -- bit 4
  | 10 => false
  | 11 => false  -- bit 5
  | 12 => false
  | 13 => false  -- bit 6
  | 14 => false
  | 15 => false  -- bit 7
  | 16 => false
  | 17 => false  -- bit 8
  | 18 => false
  | 19 => false  -- bit 9
  | 20 => false
  | 21 => false  -- bit 10
  | 22 => false
  | 23 => false  -- bit 11
  | 24 => false
  | 25 => false  -- bit 12
  | 26 => false
  | 27 => false  -- bit 13
  | 28 => false
  | 29 => false  -- bit 14
  | 30 => false
  | 31 => false  -- bit 15
  | 32 => false  -- between bit 15 and 16 (optional transition or sync)
  | 33 => false  -- bit 16
  | 34 => false
  | 35 => false  -- bit 17
  | 36 => false
  | 37 => false  -- bit 18
  | 38 => false
  | 39 => false  -- bit 19
  | 40 => false
  | 41 => false  -- bit 20
  | 42 => false
  | 43 => false  -- bit 21
  | 44 => false
  | 45 => false  -- bit 22
  | 46 => false
  | 47 => false  -- bit 23
  | 48 => false
  | 49 => false  -- bit 24
  | 50 => false
  | 51 => false  -- bit 25
  | 52 => false
  | 53 => false  -- bit 26
  | 54 => false
  | 55 => false  -- bit 27
  | 56 => false
  | 57 => false  -- bit 28
  | 58 => false
  | 59 => false  -- bit 29
  | 60 => false
  | 61 => false  -- bit 30
  | 62 => false
  | 63 => false  -- bit 31
  | 64 => false  -- end pulse or final transition
  | _ => true

/-- The rows of the `SPI_MOSI` table for `spi_mosi_byte_count` 1. -/
def mosiTable1 (countCsTracker : BitVec 8) : Bool :=
  match countCsTracker with
  | 0 => true  -- preamble (before bit 0)
  | 1 => false  -- bit 0
  | 2 => false
  | 3 => false  -- bit 1
  | 4 => false
  | 5 => false  -- bit 2
  | 6 => false
  | 7 => false  -- bit 3
  | 8 => false
  | 9 => false  -- bit 4
  | 10 => false
  | 11 => true  -- bit 5
  | 12 => true
  | 13 => true  -- bit 6
  | 14 => true
  | 15 => false  -- bit 7
  | 16 => false
  | 17 => false  -- bit 8
  | 18 => false
  | 19 => true  -- bit 9
  | 20 => true
  | 21 => false  -- bit 10
  | 22 => false
  | 23 => true  -- bit 11
  | 24 => true
  | 25 => false  -- bit 12
  | 26 => false
  | 27 => true  -- bit 13
  | 28 => true
  | 29 => false  -- bit 14
  | 30 => false
  | 31 => true  -- bit 15
  | 32 => true
  | 33 => false  -- bit 16
  | 34 => false
  | 35 => false  -- bit 17
  | 36 => false
  | 37 => false  -- bit 18
  | 38 => false
  | 39 => false  -- bit 19
  | 40 => false
  | 41 => false  -- bit 20
  | 42 => false
  | 43 => false  -- bit 21
  | 44 => false
  | 45 => false  -- bit 22
  | 46 => false
  | 47 => false  -- bit 23
  | 48 => false
  | 49 => false  -- bit 24
  | 50 => false
  | 51 => false  -- bit 25
  | 52 => false
  | 53 => false  -- bit 26
  | 54 => false
  | 55 => false  -- bit 27
  | 56 => false
  | 57 => false  -- bit 28
  | 58 => false
  | 59 => false  -- bit 29
  | 60 => false
  | 61 => false  -- bit 30
  | 62 => false
  | 63 => false  -- bit 31
  | 64 => false  -- end pulse or final transition
  | _ => true

/-- The `SPI_MOSI` latch: it follows the table during a transaction and holds otherwise. -/
def spiMosiHandler (m : SpiMaster) : SpiMaster :=
  if m.currentState = transactionInProgress then
    { m with
      spiMosiTemp :=
        match m.spiMosiByteCount with
        | false => mosiTable0 m.countCsTracker
        | true => mosiTable1 m.countCsTracker }
  else
    m

theorem spiMosiHandler_eq (m : SpiMaster) : m.spiMosiHandler = { m with
    spiMosiTemp :=
      if m.currentState = transactionInProgress then
        match m.spiMosiByteCount with
        | false => mosiTable0 m.countCsTracker
        | true => mosiTable1 m.countCsTracker
      else m.spiMosiTemp } := by
  unfold spiMosiHandler
  split <;> rfl

/-! ## Edges of the inputs -/

/-- The two blocks at `posedge synthesized_clock_4_167Mhz`, with `reset_n` at the given level. -/
def posedgeSynthesizedClock (resetN : Bool) (m : SpiMaster) : SpiMaster :=
  { m.outputLogic with currentState := m.stateRegister resetN }

/-- The divider and the clock generator at an edge of the system clock. -/
def divide (m : SpiMaster) : SpiMaster :=
  { m with
    clockSynthesizerUut := m.clockSynthesizerUut.posedgeInputClock 3#32
    spiSclkGeneratorUut := m.spiSclkGeneratorUut.posedgeSystemClock m.currentState }

/-- One edge of the system clock, with `reset_n` at the given level. The state machine moves when
its divider raises `synthesized_clock_4_167Mhz`. It reads the count of the clock generator as it
was before the edge, and the clock generator reads the old state. -/
def posedgeSystemClock (resetN : Bool) (m : SpiMaster) : SpiMaster :=
  spiMosiHandler <|
    -- the rising edge of the divided clock, between the registers before and after the tick
    if !m.synthesizedClock4167 && m.divide.synthesizedClock4167 then
      { m.posedgeSynthesizedClock resetN with
        clockSynthesizerUut := m.divide.clockSynthesizerUut
        spiSclkGeneratorUut := m.divide.spiSclkGeneratorUut }
    else
      m.divide

/-- A falling edge of `reset_n` clears the state register at once, and nothing else. -/
def negedgeResetN (m : SpiMaster) : SpiMaster :=
  spiMosiHandler { m with currentState := reset }

@[simp] theorem posedgeSystemClock_clockSynthesizerUut (resetN : Bool) (m : SpiMaster) :
    (m.posedgeSystemClock resetN).clockSynthesizerUut =
      m.clockSynthesizerUut.posedgeInputClock 3#32 := by
  rw [posedgeSystemClock, spiMosiHandler_eq]
  split <;> rfl

@[simp] theorem posedgeSystemClock_spiSclkGeneratorUut (resetN : Bool) (m : SpiMaster) :
    (m.posedgeSystemClock resetN).spiSclkGeneratorUut =
      m.spiSclkGeneratorUut.posedgeSystemClock m.currentState := by
  rw [posedgeSystemClock, spiMosiHandler_eq]
  split <;> rfl

end SpiMaster

end ADS131A0X
