import ADS131A0X.Base.Machine
import ADS131A0X.Base.Waveform

/-!
# The SPI core of the processor system

`ADS131A0X_SPI` is the SPI master on the bus of the processor: eight data bits, most significant
bit first, one slave, and a bit clock that is 1/392 of the system clock. Software reads and writes
its registers in accesses of two clock cycles. A byte that is written waits in `tx_holding_reg`
until the shift register is free, and a byte that is received waits in `rx_holding_reg` until it is
read or overwritten.

## Main definitions

* `Spi`, `Spi.Inputs`: the registers of the core, and the levels at its inputs
* `Spi.trdy`, `Spi.tmt`, `Spi.spiStatus`, ...: the wires
* `Spi.posedgeClk`: one edge of `clk`
* `Spi.Event`, `Spi.Run`: what the environment does, and a sequence of it from a reset on

## Implementation notes

A register that several nonblocking assignments of the last block write is given by them in
reverse order, since the last one that applies wins. `reset_n` clears every register, at its falling
edge and at every edge of `clk` while it is low; one such moment is one event.
-/

namespace ADS131A0X

open Transition Waveform

/-- The registers of `ADS131A0X_SPI`. -/
structure Spi where
  eop : Bool := false
  misoReg : Bool := false
  roe : Bool := false
  rrdy : Bool := false
  sclkReg : Bool := false
  ssoReg : Bool := false
  toe : Bool := false
  dataRdStrobe : Bool := false
  dataToCpu : BitVec 16 := 0#16
  dataWrStrobe : Bool := false
  endofpacketvalueReg : BitVec 16 := 0#16
  iEopReg : Bool := false
  iEReg : Bool := false
  iRoeReg : Bool := false
  iRrdyReg : Bool := false
  iTmtReg : Bool := false
  iToeReg : Bool := false
  iTrdyReg : Bool := false
  irqReg : Bool := false
  rdStrobe : Bool := false
  rxHoldingReg : BitVec 8 := 0#8
  shiftReg : BitVec 8 := 0#8
  slowcount : BitVec 8 := 0#8
  spiSlaveSelectHoldingReg : BitVec 16 := 1#16
  spiSlaveSelectReg : BitVec 16 := 1#16
  state : BitVec 5 := 0#5
  stateZero : Bool := true
  transactionPrimed : Bool := false
  transmitting : Bool := false
  txHoldingPrimed : Bool := false
  txHoldingReg : BitVec 8 := 0#8
  wrStrobe : Bool := false
  deriving DecidableEq, Repr

namespace Spi

/-- The levels at the inputs of the core at an edge of `clk`. -/
structure Inputs where
  miso : Bool
  dataFromCpu : BitVec 16
  memAddr : BitVec 3
  readN : Bool
  spiSelect : Bool
  writeN : Bool
  deriving DecidableEq, Repr

/-! ## Register map -/

def rxData : BitVec 3 := 0#3
def txData : BitVec 3 := 1#3
def status : BitVec 3 := 2#3
def control : BitVec 3 := 3#3
def slaveEnable : BitVec 3 := 5#3
def endOfPacketValue : BitVec 3 := 6#3

/-! ## Wires -/

section Wires

variable (i : Inputs) (m : Spi)

/-- Read is a two-cycle event. -/
def p1RdStrobe : Bool := !m.rdStrobe && i.spiSelect && !i.readN

def p1DataRdStrobe : Bool := m.p1RdStrobe i && i.memAddr == rxData

/-- Write is a two-cycle event. -/
def p1WrStrobe : Bool := !m.wrStrobe && i.spiSelect && !i.writeN

def p1DataWrStrobe : Bool := m.p1WrStrobe i && i.memAddr == txData

def controlWrStrobe : Bool := m.wrStrobe && i.memAddr == control

def statusWrStrobe : Bool := m.wrStrobe && i.memAddr == status

def slaveselectWrStrobe : Bool := m.wrStrobe && i.memAddr == slaveEnable

def endofpacketvalueWrStrobe : Bool := m.wrStrobe && i.memAddr == endOfPacketValue

def tmt : Bool := !m.transmitting && !m.txHoldingPrimed

def e : Bool := m.roe || m.toe

/-- As long as there is an empty spot somewhere, it is safe to write data. -/
def trdy : Bool := !(m.transmitting && m.txHoldingPrimed)

/-- The wire `spi_status`: ten bits, zero-extended. -/
def spiStatus : BitVec 11 :=
  (BitVec.ofBool m.eop ++ BitVec.ofBool m.e ++ BitVec.ofBool m.rrdy ++ BitVec.ofBool m.trdy ++
    BitVec.ofBool m.tmt ++ BitVec.ofBool m.toe ++ BitVec.ofBool m.roe ++ 0#3).setWidth 11

/-- The wire `spi_control`; the interrupt enable of `TMT` reads as 0. -/
def spiControl : BitVec 11 :=
  BitVec.ofBool m.ssoReg ++ BitVec.ofBool m.iEopReg ++ BitVec.ofBool m.iEReg ++
    BitVec.ofBool m.iRrdyReg ++ BitVec.ofBool m.iTrdyReg ++ 0#1 ++ BitVec.ofBool m.iToeReg ++
    BitVec.ofBool m.iRoeReg ++ 0#3

/-- `slowclock` is active once every 196 system clock pulses. -/
def slowclock : Bool := m.slowcount == 0xC3#8

def p1Slowcount : BitVec 8 := if m.transmitting && !m.slowclock then m.slowcount + 1#8 else 0#8

def p1DataToCpu : BitVec 16 :=
  if i.memAddr = status then m.spiStatus.setWidth 16
  else if i.memAddr = control then m.spiControl.setWidth 16
  else if i.memAddr = endOfPacketValue then m.endofpacketvalueReg
  else if i.memAddr = slaveEnable then m.spiSlaveSelectReg
  else m.rxHoldingReg.setWidth 16

def enableSS : Bool := m.transmitting && !m.stateZero

/-- Enable write to tx_holding_register. -/
def writeTxHolding : Bool := m.dataWrStrobe && m.trdy

/-- Enable write to shift register. -/
def writeShiftReg : Bool := m.txHoldingPrimed && !m.transmitting

/-! ### Outputs -/

def mosi : Bool := m.shiftReg.msb

def sclk : Bool := m.sclkReg

/-- The output `SS_n`, low when the first slave is selected. -/
def ssN : Bool := if m.enableSS || m.ssoReg then !m.spiSlaveSelectReg.getLsbD 0 else true

def irq : Bool := m.irqReg

def dataavailable : Bool := m.rrdy

def readyfordata : Bool := m.trdy

def endofpacket : Bool := m.eop

end Wires

/-! ## An edge of the clock -/

section Clock

variable (i : Inputs) (m : Spi)

/-- The shift register: it takes a byte, or it shifts in the level that `SCLK` has sampled. -/
def nextShiftReg : BitVec 8 :=
  if m.slowclock && !m.sclkReg && (m.state != 0#5 && m.state != 1#5) then
    m.shiftReg.extractLsb' 0 7 ++ BitVec.ofBool m.misoReg
  else if m.writeShiftReg then m.txHoldingReg
  else m.shiftReg

def nextSclkReg : Bool :=
  if m.slowclock && m.state != 17#5 && m.state != 0#5 && m.transmitting then !m.sclkReg
  else if m.transactionPrimed then false
  else m.sclkReg

/-- One edge of `clk`, with `reset_n` high. -/
def posedgeClk (i : Inputs) (m : Spi) : Spi where
  rdStrobe := m.p1RdStrobe i
  dataRdStrobe := m.p1DataRdStrobe i
  wrStrobe := m.p1WrStrobe i
  dataWrStrobe := m.p1DataWrStrobe i
  iEopReg := if m.controlWrStrobe i then i.dataFromCpu.getLsbD 9 else m.iEopReg
  iEReg := if m.controlWrStrobe i then i.dataFromCpu.getLsbD 8 else m.iEReg
  iRrdyReg := if m.controlWrStrobe i then i.dataFromCpu.getLsbD 7 else m.iRrdyReg
  iTrdyReg := if m.controlWrStrobe i then i.dataFromCpu.getLsbD 6 else m.iTrdyReg
  iTmtReg := if m.controlWrStrobe i then i.dataFromCpu.getLsbD 5 else m.iTmtReg
  iToeReg := if m.controlWrStrobe i then i.dataFromCpu.getLsbD 4 else m.iToeReg
  iRoeReg := if m.controlWrStrobe i then i.dataFromCpu.getLsbD 3 else m.iRoeReg
  ssoReg := if m.controlWrStrobe i then i.dataFromCpu.getLsbD 10 else m.ssoReg
  irqReg :=
    (m.eop && m.iEopReg) || ((m.toe || m.roe) && m.iEReg) || (m.rrdy && m.iRrdyReg) ||
      (m.trdy && m.iTrdyReg) || (m.toe && m.iToeReg) || (m.roe && m.iRoeReg)
  spiSlaveSelectReg :=
    if m.writeShiftReg || (m.controlWrStrobe i && i.dataFromCpu.getLsbD 10 && !m.ssoReg) then
      m.spiSlaveSelectHoldingReg
    else m.spiSlaveSelectReg
  spiSlaveSelectHoldingReg :=
    if m.slaveselectWrStrobe i then i.dataFromCpu else m.spiSlaveSelectHoldingReg
  slowcount := m.p1Slowcount
  endofpacketvalueReg :=
    if m.endofpacketvalueWrStrobe i then i.dataFromCpu else m.endofpacketvalueReg
  dataToCpu := m.p1DataToCpu i
  -- `state` counts from 0 to 17
  state :=
    if m.transmitting && m.slowclock then
      if m.state = 17#5 then 0#5 else m.state + 1#5
    else m.state
  stateZero := if m.transmitting && m.slowclock then m.state == 17#5 else m.stateZero
  txHoldingReg := if m.writeTxHolding then i.dataFromCpu.setWidth 8 else m.txHoldingReg
  txHoldingPrimed :=
    if m.writeShiftReg && !m.writeTxHolding then false
    else if m.writeTxHolding then true
    else m.txHoldingPrimed
  -- you wrote when I was not ready
  toe :=
    if m.statusWrStrobe i then false
    else if m.dataWrStrobe && !m.trdy then true
    else m.toe
  -- the first cycle of an access to the data registers compares the byte
  eop :=
    if m.statusWrStrobe i then false
    else if (m.p1DataRdStrobe i && m.rxHoldingReg.setWidth 16 == m.endofpacketvalueReg) ||
        (m.p1DataWrStrobe i && (i.dataFromCpu.setWidth 8).setWidth 16 == m.endofpacketvalueReg) then
      true
    else m.eop
  shiftReg := m.nextShiftReg
  transmitting :=
    if m.transactionPrimed then false
    else if m.writeShiftReg then true
    else m.transmitting
  -- a transaction that completes wins over a read or a status write
  rrdy :=
    if m.transactionPrimed then true
    else if m.statusWrStrobe i then false
    else if m.dataRdStrobe then false
    else m.rrdy
  roe :=
    if m.transactionPrimed && m.rrdy then true
    else if m.statusWrStrobe i then false
    else m.roe
  rxHoldingReg := if m.transactionPrimed then m.shiftReg else m.rxHoldingReg
  sclkReg := m.nextSclkReg
  misoReg := if m.slowclock && m.sclkReg then i.miso else m.misoReg
  transactionPrimed :=
    if m.slowclock && m.state == 17#5 then true
    else if m.transactionPrimed then false
    else m.transactionPrimed

/-! ### The registers of the bus -/

@[simp] theorem posedgeClk_rdStrobe : (m.posedgeClk i).rdStrobe = m.p1RdStrobe i := rfl

@[simp] theorem posedgeClk_dataRdStrobe : (m.posedgeClk i).dataRdStrobe = m.p1DataRdStrobe i := rfl

@[simp] theorem posedgeClk_wrStrobe : (m.posedgeClk i).wrStrobe = m.p1WrStrobe i := rfl

@[simp] theorem posedgeClk_dataWrStrobe : (m.posedgeClk i).dataWrStrobe = m.p1DataWrStrobe i := rfl

end Clock

/-- What the environment can do: raise `clk` with `reset_n` high, or have `reset_n` low. -/
inductive Event
  | clk (i : Inputs)
  | reset
  deriving DecidableEq, Repr

/-- The reaction of the core to an event. -/
def step (m : Spi) : Event → Spi
  | .clk i => m.posedgeClk i
  | .reset => {}

/-- The core after a reset. -/
def machine : Machine Event Spi where
  init := {}
  step := step

/-- A run of the core: the events that follow a reset. -/
structure Run where
  event : ℕ → Event

namespace Run

/-- The core after the first `n` events of the run. -/
def spi (ρ : Run) : ℕ → Spi := machine.run ρ.event

theorem spi_succ (ρ : Run) (n : ℕ) : ρ.spi (n + 1) = (ρ.spi n).step (ρ.event n) :=
  Machine.run_succ _ _ n

end Run

end Spi

end ADS131A0X
