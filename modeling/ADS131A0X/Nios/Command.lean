import ADS131A0X.Nios.Exchange

/-!
# The SPI command of the driver

`alt_avalon_spi_command` sends bytes to the slave and reads bytes back by polling the SPI core. It is
a sequence of register accesses, and between two of them it only computes. An access takes two clock
cycles on the bus, and any number of cycles can pass before the next one. The system is this function
and the core, clock by clock.

## Main definitions

* `AltAvalonSpiCommand`: the local variables of the function, and the access it is at
* `AltAvalonSpiCommand.call`, `AltAvalonSpiCommand.access`, `AltAvalonSpiCommand.next`: a call, the
  access that comes next, and what the function does with its result
* `NiosSystem`, `NiosSystem.step`: the function and the core, and one clock
* `Session`: a call on a core with any past, with any timing and any levels of `MISO`

## Implementation notes

The buffer that `write_data` points to is the list of the bytes from there to `write_end`, and the
stored bytes are the list of those from the start of the buffer of `read_data` to the pointer. From
slave 32 on `1 << slave` is not defined in C; the processor takes the amount modulo 32, and what is
said about `SS_n` is about the slaves below.
-/

namespace ADS131A0X

open Transition Waveform

/-! ## The masks of the registers -/

def statusTmtMsk : BitVec 32 := 0x20#32
def statusTrdyMsk : BitVec 32 := 0x40#32
def statusRrdyMsk : BitVec 32 := 0x80#32
def controlSsoMsk : BitVec 32 := 0x400#32

/-! ## The function -/

/-- The accesses of `alt_avalon_spi_command`, and its return. -/
inductive Place
  | slaveSel
  | control
  | discard
  | poll
  | txData (byte : BitVec 8)
  | rxData
  | waitTmt
  | release
  | done
  deriving DecidableEq, Repr

/-- A register access on the bus. -/
inductive Access
  | read (addr : BitVec 3)
  | write (addr : BitVec 3) (data : BitVec 32)
  deriving DecidableEq, Repr

/-- The local variables of `alt_avalon_spi_command`. -/
structure AltAvalonSpiCommand where
  place : Place
  slave : ℕ
  flags : BitVec 32
  readLength : ℕ
  writeData : List (BitVec 8)
  readData : List (BitVec 8)
  writeZeros : ℕ
  readIgnore : ℕ
  credits : ℤ
  status : BitVec 32
  deriving DecidableEq, Repr

namespace AltAvalonSpiCommand

/-- The flag `ALT_AVALON_SPI_COMMAND_MERGE`. -/
def merge : BitVec 32 := 0x01#32

/-- The flag `ALT_AVALON_SPI_COMMAND_TOGGLE_SS_N`. -/
def toggleSsN : BitVec 32 := 0x02#32

/-- A call of the function. -/
def call (slave : ℕ) (writeData : List (BitVec 8)) (readLength : ℕ) (flags : BitVec 32) :
    AltAvalonSpiCommand where
  place := .slaveSel
  slave
  flags
  readLength
  writeData
  readData := []
  writeZeros := readLength
  readIgnore := writeData.length
  credits := 1
  status := 0#32

variable (c : AltAvalonSpiCommand)

/-- The access that the function makes next. -/
def access : Option Access :=
  match c.place with
  | .slaveSel => some (.write Spi.slaveEnable (1#32 <<< (c.slave % 32)))
  | .control => some (.write Spi.control controlSsoMsk)
  -- discard any stale data present in the register
  | .discard => some (.read Spi.rxData)
  | .poll => some (.read Spi.status)
  | .txData byte => some (.write Spi.txData (byte.setWidth 32))
  | .rxData => some (.read Spi.rxData)
  | .waitTmt => some (.read Spi.status)
  | .release => some (.write Spi.control 0#32)
  | .done => none

/-- The part of the loop after the transmission: a received byte is read, or the loop goes on. -/
def afterTransmit : AltAvalonSpiCommand :=
  if c.status &&& statusRrdyMsk ≠ 0#32 then { c with place := .rxData } else { c with place := .poll }

/-- The loop after a status read: poll again, or transmit. -/
def afterPoll : AltAvalonSpiCommand :=
  if (c.status &&& statusTrdyMsk = 0#32 ∨ c.credits = 0) ∧ c.status &&& statusRrdyMsk = 0#32 then
    { c with place := .poll }
  else if c.status &&& statusTrdyMsk ≠ 0#32 ∧ c.credits > 0 then
    match c.writeData with
    | byte :: rest =>
      { c with
        credits := c.credits - 1
        writeData := rest
        place := .txData byte }
    | [] =>
      if c.writeZeros > 0 then
        { c with
          credits := c.credits - 1
          writeZeros := c.writeZeros - 1
          place := .txData 0#8 }
      else
        { c with credits := -1024 }.afterTransmit
  else
    c.afterTransmit

/-- The last step of the loop: the byte is ignored or stored, and the loop may end. -/
def receive (rxdata : BitVec 32) : AltAvalonSpiCommand :=
  let c' : AltAvalonSpiCommand :=
    if c.readIgnore > 0 then
      { c with readIgnore := c.readIgnore - 1, credits := c.credits + 1 }
    else
      { c with readData := c.readData ++ [rxdata.setWidth 8], credits := c.credits + 1 }
  if c'.readIgnore = 0 ∧ c'.readData.length = c'.readLength then
    { c' with place := .waitTmt }
  else
    { c' with place := .poll }

/-- What the function does with the result of its access. -/
def next (result : BitVec 32) : AltAvalonSpiCommand :=
  match c.place with
  | .slaveSel => { c with place := if c.flags &&& toggleSsN = 0#32 then .control else .discard }
  | .control => { c with place := .discard }
  | .discard => { c with place := .poll }
  | .poll => { c with status := result }.afterPoll
  | .txData _ => c.afterTransmit
  | .rxData => c.receive result
  | .waitTmt =>
    if result &&& statusTmtMsk = 0#32 then { c with status := result }
    -- release the chip select unless the caller keeps using this chip
    else { c with
      status := result
      place := if c.flags &&& merge = 0#32 then .release else .done }
  | .release => { c with place := .done }
  | .done => c

/-- What the function returns. -/
def result : ℕ := c.readLength

end AltAvalonSpiCommand

/-! ## The function and the core -/

/-- The core, the function, and whether the bus is in the second cycle of an access. -/
structure NiosSystem where
  spi : Spi
  command : AltAvalonSpiCommand
  second : Bool := false
  deriving DecidableEq, Repr

namespace NiosSystem

/-- What the environment decides at a clock: the level of `MISO`, whether the processor starts its
next access, and the levels that the bus has apart from an access. -/
structure Inputs where
  miso : Bool
  go : Bool
  memAddr : BitVec 3 := 0#3
  dataFromCpu : BitVec 16 := 0#16
  deriving DecidableEq, Repr

/-- The inputs of the core in a cycle of an access, or in a cycle without one. -/
def Inputs.drive (i : Inputs) : Option Access → Spi.Inputs
  | none =>
    { miso := i.miso
      dataFromCpu := i.dataFromCpu
      memAddr := i.memAddr
      readN := true
      spiSelect := false
      writeN := true }
  | some (.read addr) =>
    { miso := i.miso
      dataFromCpu := i.dataFromCpu
      memAddr := addr
      readN := false
      spiSelect := true
      writeN := true }
  | some (.write addr data) =>
    { miso := i.miso
      dataFromCpu := data.setWidth 16
      memAddr := addr
      readN := true
      spiSelect := true
      writeN := false }

variable (i : Inputs) (s : NiosSystem)

/-- The inputs of the core at a clock. -/
def bus : Spi.Inputs := i.drive (if s.second || i.go then s.command.access else none)

/-- One clock. The result of a read is on the bus in the second cycle of the access. -/
def step : NiosSystem where
  spi := s.spi.posedgeClk (s.bus i)
  command := if s.second then s.command.next (s.spi.dataToCpu.setWidth 32) else s.command
  second := !s.second && i.go && s.command.access.isSome

end NiosSystem

/-! ## A call on a core with a past -/

/-- A call of the function from step `start` of a run of the core on. -/
structure Session where
  history : Spi.Run
  start : ℕ
  command : AltAvalonSpiCommand
  input : ℕ → NiosSystem.Inputs

namespace Session

/-- The system at the start of the call. -/
def machine (σ : Session) : Machine NiosSystem.Inputs NiosSystem where
  init := { spi := σ.history.spi σ.start, command := σ.command }
  step := fun s i => s.step i

/-- The system `n` clocks after the start of the call. -/
def system (σ : Session) : ℕ → NiosSystem := σ.machine.run σ.input

theorem system_succ (σ : Session) (n : ℕ) :
    σ.system (n + 1) = (σ.system n).step (σ.input n) := Machine.run_succ _ _ n

/-- The run of the core: its history up to the call, and the accesses of the function from then
on. -/
def run (σ : Session) : Spi.Run where
  event := fun n =>
    if n < σ.start then σ.history.event n
    else .clk ((σ.system (n - σ.start)).bus (σ.input (n - σ.start)))

variable (σ : Session) (n : ℕ)

theorem run_event : σ.run.event (σ.start + n) = .clk ((σ.system n).bus (σ.input n)) := by
  show (if σ.start + n < σ.start then _ else _) = _
  rw [if_neg (by omega), Nat.add_sub_cancel_left]

theorem run_event_of_lt {n : ℕ} (h : n < σ.start) : σ.run.event n = σ.history.event n := if_pos h

theorem run_spi_of_le {n : ℕ} (h : n ≤ σ.start) : σ.run.spi n = σ.history.spi n := by
  induction n with
  | zero => rfl
  | succ n ih =>
    rw [Spi.Run.spi_succ, Spi.Run.spi_succ, ih (by omega), σ.run_event_of_lt (by omega)]

/-- The core of the system is the core of the run. -/
theorem run_spi : σ.run.spi (σ.start + n) = (σ.system n).spi := by
  induction n with
  | zero => exact σ.run_spi_of_le le_rfl
  | succ n ih =>
    rw [← Nat.add_assoc, Spi.Run.spi_succ_of_clk (σ.run_event n), ih, system_succ]
    rfl

theorem run_noReset (b : ℕ) : σ.run.NoReset σ.start b := by
  intro k hk _ he
  obtain ⟨n, rfl⟩ := Nat.exists_eq_add_of_le hk
  rw [run_event] at he
  cases he

end Session

end ADS131A0X
