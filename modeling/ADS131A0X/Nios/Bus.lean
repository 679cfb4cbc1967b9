import ADS131A0X.Nios.Command

/-!
# The accesses of the driver at the serial port

What the accesses of the driver do to the serial port: a write to the data register is a byte that
is written, a read of the data register is a read of the received byte, and nothing else reaches the
port. The result of a read is what the register held in the first of the two cycles.

## Main definitions

* `NiosSystem.Strobes`: the strobes of the core belong to the access of the function
* `AltAvalonSpiCommand.writes`, `AltAvalonSpiCommand.reads`: what an access does to the port

## Main results

* `NiosSystem.Strobes.step`: they do at every clock
* `NiosSystem.Strobes.portInputs`: what reaches the port at a clock
* `NiosSystem.dataToCpu_status`, `NiosSystem.dataToCpu_rxData`: the result of a read
* `Spi.status_rrdy`, `Spi.status_trdy`, `Spi.status_tmt`: the bits of the status that the function
  tests
-/

namespace ADS131A0X

/-! ## The status word -/

namespace Spi

variable (m : Spi)

/-- The status as the processor reads it. -/
def statusWord : BitVec 32 := (m.spiStatus.setWidth 16).setWidth 32

theorem status_rrdy : m.statusWord &&& statusRrdyMsk = 0#32 ↔ m.rrdy = false := by
  rw [statusWord, spiStatus]
  generalize m.eop = eop, m.e = e, m.rrdy = rrdy, m.trdy = trdy, m.tmt = tmt, m.toe = toe,
    m.roe = roe
  revert eop e rrdy trdy tmt toe roe
  decide

theorem status_trdy : m.statusWord &&& statusTrdyMsk = 0#32 ↔ m.trdy = false := by
  rw [statusWord, spiStatus]
  generalize m.eop = eop, m.e = e, m.rrdy = rrdy, m.trdy = trdy, m.tmt = tmt, m.toe = toe,
    m.roe = roe
  revert eop e rrdy trdy tmt toe roe
  decide

theorem status_tmt : m.statusWord &&& statusTmtMsk = 0#32 ↔ m.tmt = false := by
  rw [statusWord, spiStatus]
  generalize m.eop = eop, m.e = e, m.rrdy = rrdy, m.trdy = trdy, m.tmt = tmt, m.toe = toe,
    m.roe = roe
  revert eop e rrdy trdy tmt toe roe
  decide

end Spi

/-! ## The strobes -/

namespace Access

/-- The access is a write. -/
def isWrite : Option Access → Bool
  | some (.write _ _) => true
  | _ => false

/-- The access is a read. -/
def isRead : Option Access → Bool
  | some (.read _) => true
  | _ => false

/-- The byte that the access writes to the data register. -/
def byteWritten : Option Access → Option (BitVec 8)
  | some (.write addr data) => if addr = Spi.txData then some (data.setWidth 8) else none
  | _ => none

/-- The access reads the data register. -/
def readsData : Option Access → Bool
  | some (.read addr) => addr == Spi.rxData
  | _ => false

end Access

namespace NiosSystem.Inputs

variable (m : Spi) (i : Inputs) (a : Option Access)

@[simp] theorem drive_miso : (i.drive a).miso = i.miso := by
  rcases a with _ | _ | _ <;> rfl

theorem p1WrStrobe_drive : m.p1WrStrobe (i.drive a) = (!m.wrStrobe && Access.isWrite a) := by
  rcases a with _ | _ | _ <;> simp [Spi.p1WrStrobe, drive, Access.isWrite]

theorem p1RdStrobe_drive : m.p1RdStrobe (i.drive a) = (!m.rdStrobe && Access.isRead a) := by
  rcases a with _ | _ | _ <;> simp [Spi.p1RdStrobe, drive, Access.isRead]

theorem p1DataWrStrobe_drive :
    m.p1DataWrStrobe (i.drive a) = (!m.wrStrobe && (Access.byteWritten a).isSome) := by
  rw [Spi.p1DataWrStrobe, p1WrStrobe_drive]
  rcases a with _ | addr | ⟨addr, data⟩
  · simp [Access.isWrite, Access.byteWritten]
  · simp [Access.isWrite, Access.byteWritten]
  · by_cases ha : addr = Spi.txData <;> simp [Access.isWrite, Access.byteWritten, drive, ha]

theorem p1DataRdStrobe_drive :
    m.p1DataRdStrobe (i.drive a) = (!m.rdStrobe && Access.readsData a) := by
  rw [Spi.p1DataRdStrobe, p1RdStrobe_drive]
  rcases a with _ | addr | ⟨addr, data⟩ <;> simp [Access.isRead, Access.readsData, drive]

end NiosSystem.Inputs

namespace NiosSystem

/-- The strobes of the core are high in the second cycle of the access of the function. -/
structure Strobes (s : NiosSystem) : Prop where
  wrStrobe : s.spi.wrStrobe = (s.second && Access.isWrite s.command.access)
  dataWrStrobe : s.spi.dataWrStrobe = (s.second && (Access.byteWritten s.command.access).isSome)
  rdStrobe : s.spi.rdStrobe = (s.second && Access.isRead s.command.access)
  dataRdStrobe : s.spi.dataRdStrobe = (s.second && Access.readsData s.command.access)

variable {s : NiosSystem} {i : Inputs}

theorem step_of_second (h : s.second = true) : s.step i =
    { spi := s.spi.posedgeClk (i.drive s.command.access)
      command := s.command.next (s.spi.dataToCpu.setWidth 32)
      second := false } := by
  simp [step, bus, h]

theorem step_of_go (h : s.second = false) (hgo : i.go = true) : s.step i =
    { spi := s.spi.posedgeClk (i.drive s.command.access)
      command := s.command
      second := s.command.access.isSome } := by
  simp [step, bus, h, hgo]

theorem step_of_rest (h : s.second = false) (hgo : i.go = false) : s.step i =
    { spi := s.spi.posedgeClk (i.drive none)
      command := s.command
      second := false } := by
  simp [step, bus, h, hgo]

/-- **The strobes follow the accesses**, at every clock. -/
theorem Strobes.step (h : s.Strobes) : (s.step i).Strobes := by
  obtain ⟨hwr, -, hrd, -⟩ := h
  cases hs : s.second with
  -- the second cycle of an access ends it
  | true =>
    rw [hs, Bool.true_and] at hwr hrd
    rw [step_of_second hs]
    constructor
    · simp [Inputs.p1WrStrobe_drive, hwr]
    · simp only [Spi.posedgeClk_dataWrStrobe, Inputs.p1DataWrStrobe_drive, hwr, Bool.false_and]
      rcases s.command.access with _ | _ | _ <;> simp [Access.isWrite, Access.byteWritten]
    · simp [Inputs.p1RdStrobe_drive, hrd]
    · simp only [Spi.posedgeClk_dataRdStrobe, Inputs.p1DataRdStrobe_drive, hrd, Bool.false_and]
      rcases s.command.access with _ | _ | _ <;> simp [Access.isRead, Access.readsData]
  | false =>
    rw [hs, Bool.false_and] at hwr hrd
    cases hgo : i.go with
    -- the first cycle of an access raises its strobes
    | true =>
      rw [step_of_go hs hgo]
      constructor
      · simp only [Spi.posedgeClk_wrStrobe, Inputs.p1WrStrobe_drive, hwr]
        rcases s.command.access with _ | _ | _ <;> rfl
      · simp only [Spi.posedgeClk_dataWrStrobe, Inputs.p1DataWrStrobe_drive, hwr]
        rcases s.command.access with _ | _ | _ <;> rfl
      · simp only [Spi.posedgeClk_rdStrobe, Inputs.p1RdStrobe_drive, hrd]
        rcases s.command.access with _ | _ | _ <;> rfl
      · simp only [Spi.posedgeClk_dataRdStrobe, Inputs.p1DataRdStrobe_drive, hrd]
        rcases s.command.access with _ | _ | _ <;> rfl
    | false =>
      rw [step_of_rest hs hgo]
      constructor
      · simp [Inputs.p1WrStrobe_drive, Access.isWrite]
      · simp [Inputs.p1DataWrStrobe_drive, Access.byteWritten]
      · simp [Inputs.p1RdStrobe_drive, Access.isRead]
      · simp [Inputs.p1DataRdStrobe_drive, Access.readsData]

end NiosSystem

/-! ## The accesses of the function -/

namespace AltAvalonSpiCommand

variable (c : AltAvalonSpiCommand)

/-- The byte that the function is about to write to the data register. -/
def writes : Option (BitVec 8) :=
  match c.place with
  | .txData byte => some byte
  | _ => none

/-- The function is about to read the data register. -/
def reads : Bool := c.place == .discard || c.place == .rxData

/-- The function is about to read the status register. -/
def polls : Bool := c.place == .poll || c.place == .waitTmt

theorem byteWritten_access : Access.byteWritten c.access = c.writes := by
  rw [access, writes]
  cases c.place <;> simp [Access.byteWritten, Spi.txData, Spi.control, Spi.slaveEnable]

theorem readsData_access : Access.readsData c.access = c.reads := by
  rw [access, reads]
  cases c.place <;> rfl

/-- The function never writes the status register. -/
theorem access_ne_write_status (data : BitVec 32) : c.access ≠ some (.write Spi.status data) := by
  rw [access]
  cases c.place <;> simp [Spi.status, Spi.control, Spi.slaveEnable, Spi.txData]

theorem access_of_polls (h : c.polls = true) : c.access = some (.read Spi.status) := by
  rw [polls, Bool.or_eq_true, beq_iff_eq, beq_iff_eq] at h
  rw [access]
  rcases h with h | h <;> rw [h]

theorem access_of_reads (h : c.reads = true) : c.access = some (.read Spi.rxData) := by
  rw [reads, Bool.or_eq_true, beq_iff_eq, beq_iff_eq] at h
  rw [access]
  rcases h with h | h <;> rw [h]

end AltAvalonSpiCommand

namespace NiosSystem

variable {s : NiosSystem} {i : Inputs}

/-- **What reaches the port at a clock**: the second cycle of a write to the data register, or of a
read of it. -/
theorem Strobes.portInputs (h : s.Strobes) :
    s.spi.portInputs (s.bus i) =
      { write := if s.second then s.command.writes else none
        read := s.second && s.command.reads
        clear := false
        miso := i.miso } := by
  have hclear := s.command.access_ne_write_status
  rw [Spi.portInputs, h.dataRdStrobe, h.dataWrStrobe, Spi.statusWrStrobe, h.wrStrobe, bus,
    Inputs.drive_miso, ← s.command.byteWritten_access, ← s.command.readsData_access]
  cases s.second with
  | false => simp
  | true =>
    rcases ha : s.command.access with _ | addr | ⟨addr, data⟩
    · simp [Access.isWrite, Access.byteWritten]
    · simp [Access.isWrite, Access.byteWritten]
    · have hne : (addr == Spi.status) = false := by
        rw [beq_eq_false_iff_ne]
        rintro rfl
        exact hclear data ha
      by_cases htx : addr = Spi.txData
      · rw [htx] at hne
        simp [Access.isWrite, Access.byteWritten, Inputs.drive, htx, hne]
      · simp [Access.isWrite, Access.byteWritten, Inputs.drive, htx, hne]

theorem dataToCpu_status (hs : s.second = false) (hgo : i.go = true)
    (hp : s.command.polls = true) :
    (s.step i).spi.dataToCpu.setWidth 32 = s.spi.statusWord := by
  rw [step_of_go hs hgo, s.command.access_of_polls hp]
  rfl

theorem dataToCpu_rxData (hs : s.second = false) (hgo : i.go = true)
    (hp : s.command.reads = true) :
    (s.step i).spi.dataToCpu = s.spi.rxHoldingReg.setWidth 16 := by
  rw [step_of_go hs hgo, s.command.access_of_reads hp]
  rfl

end NiosSystem

end ADS131A0X
