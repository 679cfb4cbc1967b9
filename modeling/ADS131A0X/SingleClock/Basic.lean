import ADS131A0X.Rtl.Top

/-!
# The single-clock machine

The intended view of the driver: one clock, at whose edges the state, the pins and the counters
all move together. The states are the eight that the machine uses, the counters are numbers, and
the `SPI_MOSI` table is the serialisation of one command word. An asynchronous clear of the state
is the only thing that happens between the edges.

## Main definitions

* `Phase`, `SingleClock`: the states and the registers of the machine
* `SingleClock.slowEdge`, `SingleClock.clear`: a clock edge and the asynchronous clear
* `Timed`, `Timed.step`: the machine driven by the events of the design; it steps at the ticks
  4, 12, 20, ... of the system clock

## Main results

* `SingleClock.slowEdge_phase`, `SingleClock.slowEdge_spiCs`, ...: what a clock edge does to each
  register, in terms of the state before it
-/

namespace ADS131A0X

open Transition

/-- The states of the machine. -/
inductive Phase
  | reset
  | idle
  | setup
  | waitTransaction
  | waitReset
  | waitCs
  | transactionInProgress
  | transactionEnd
  deriving DecidableEq, Repr

namespace Phase

/-- The value of a state in the register `current_state`. -/
def encode : Phase → BitVec 5
  | reset => SpiMaster.reset
  | idle => SpiMaster.idle
  | setup => SpiMaster.setup
  | waitTransaction => SpiMaster.waitTransaction
  | waitReset => SpiMaster.waitReset
  | waitCs => SpiMaster.waitCs
  | transactionInProgress => SpiMaster.transactionInProgress
  | transactionEnd => SpiMaster.transactionEnd

theorem encode_injective : Function.Injective encode := by
  intro p q h
  cases p <;> cases q <;> first | rfl | cases h

@[simp] theorem encode_inj {p q : Phase} : p.encode = q.encode ↔ p = q :=
  encode_injective.eq_iff

end Phase

/-- The word that a complete frame sends, most significant bit first. -/
def commandWord : BitVec 32 := 0x06550000#32

/-- The level of `SPI_MOSI` at a count of the clock generator: high before the first bit, and each
bit of the command word for two counts, from the rising edge of `SPI_SCLK` to the next. -/
def mosiLevel (clockCycles : ℕ) : Bool :=
  clockCycles == 0 || commandWord.getMsbD ((clockCycles - 1) / 2)

/-- The registers of the single-clock machine. -/
@[ext] structure SingleClock where
  phase : Phase := .reset
  spiCs : Bool := true
  spiReset : Bool := true
  spiMosi : Bool := false
  spiSclk : Bool := true
  adcResetCount : ℕ := 0
  delayCounter : ℕ := 0
  clockCycles : ℕ := 0
  deriving DecidableEq, Repr

namespace SingleClock

/-- The state that follows at a clock edge. -/
def nextPhase (s : SingleClock) : Phase :=
  match s.phase with
  | .reset => .idle
  | .idle => .setup
  | .setup => .waitReset
  | .waitReset => if s.adcResetCount = 20 then .waitTransaction else .waitReset
  | .waitTransaction => .waitCs
  | .waitCs => .transactionInProgress
  | .transactionInProgress =>
    if s.clockCycles = 64 then .transactionEnd else .transactionInProgress
  | .transactionEnd => if s.delayCounter = 250000 then .waitTransaction else .transactionEnd

/-- The registers that move at a clock edge, the `SPI_MOSI` latch apart. -/
def clocked (resetN : Bool) (s : SingleClock) : SingleClock :=
  let s' := { s with
    phase := if resetN then s.nextPhase else .reset
    spiCs := true
    spiSclk := false
    clockCycles := 0 }
  match s.phase with
  -- the pins follow the state one slow edge after it is entered
  | .waitReset =>
    { s' with
      spiReset := false
      adcResetCount := (s.adcResetCount + 1) % 256 }
  | .waitTransaction => { s' with spiReset := true }
  | .waitCs => { s' with spiCs := false }
  -- `SPI_SCLK` toggles 64 times, then it rests for the edge that leaves the state
  | .transactionInProgress =>
    if s.clockCycles < 64 then
      { s' with
        spiCs := false
        spiSclk := !s.spiSclk
        clockCycles := s.clockCycles + 1 }
    else
      { s' with
        spiCs := false
        spiSclk := s.spiSclk
        clockCycles := s.clockCycles }
  | .transactionEnd =>
    { s' with delayCounter := if s.delayCounter = 250000 then 0 else s.delayCounter + 1 }
  | _ => s'

/-- The `SPI_MOSI` latch is transparent while a transaction is in progress. -/
def latch (s : SingleClock) : SingleClock :=
  if s.phase = .transactionInProgress then { s with spiMosi := mosiLevel s.clockCycles } else s

/-- A clock edge, with `reset_n` at the given level. -/
def slowEdge (resetN : Bool) (s : SingleClock) : SingleClock := (s.clocked resetN).latch

/-- The asynchronous clear of the state. -/
def clear (s : SingleClock) : SingleClock := { s with phase := .reset }

/-! ## What a clock edge enters each state from -/

section NextPhase

variable (s : SingleClock)

theorem nextPhase_ne_reset : s.nextPhase ≠ .reset := by
  cases hp : s.phase <;> simp [nextPhase, hp, ite_eq_iff]

@[simp] theorem nextPhase_eq_waitReset :
    s.nextPhase = .waitReset ↔
      s.phase = .setup ∨ s.phase = .waitReset ∧ s.adcResetCount ≠ 20 := by
  cases hp : s.phase <;> simp [nextPhase, hp, ite_eq_iff]

@[simp] theorem nextPhase_eq_waitTransaction :
    s.nextPhase = .waitTransaction ↔
      s.phase = .waitReset ∧ s.adcResetCount = 20 ∨
        s.phase = .transactionEnd ∧ s.delayCounter = 250000 := by
  cases hp : s.phase <;> simp [nextPhase, hp, ite_eq_iff]

@[simp] theorem nextPhase_eq_waitCs : s.nextPhase = .waitCs ↔ s.phase = .waitTransaction := by
  cases hp : s.phase <;> simp [nextPhase, hp, ite_eq_iff]

@[simp] theorem nextPhase_eq_transactionInProgress :
    s.nextPhase = .transactionInProgress ↔
      s.phase = .waitCs ∨ s.phase = .transactionInProgress ∧ s.clockCycles ≠ 64 := by
  cases hp : s.phase <;> simp [nextPhase, hp, ite_eq_iff]

@[simp] theorem nextPhase_eq_transactionEnd :
    s.nextPhase = .transactionEnd ↔
      s.phase = .transactionInProgress ∧ s.clockCycles = 64 ∨
        s.phase = .transactionEnd ∧ s.delayCounter ≠ 250000 := by
  cases hp : s.phase <;> simp [nextPhase, hp, ite_eq_iff]

end NextPhase

/-! ## A clock edge, register by register -/

section Registers

variable (r : Bool) (s : SingleClock)

theorem latch_eq : s.latch = { s with spiMosi :=
    if s.phase = .transactionInProgress then mosiLevel s.clockCycles else s.spiMosi } := by
  unfold latch
  split <;> rfl

@[simp] theorem slowEdge_phase :
    (s.slowEdge r).phase = if r then s.nextPhase else .reset := by
  rw [slowEdge, latch_eq]
  unfold clocked
  cases s.phase <;> simp only [apply_ite SingleClock.phase, ite_self]

/-- A state other than `RESET` is entered with `reset_n` high, from where its lemma above says. -/
theorem slowEdge_phase_eq_iff {p : Phase} (hp : p ≠ .reset) :
    (s.slowEdge r).phase = p ↔ r = true ∧ s.nextPhase = p := by
  cases r <;> simp [hp.symm]

@[simp] theorem slowEdge_spiCs :
    (s.slowEdge r).spiCs =
      if s.phase = .waitCs ∨ s.phase = .transactionInProgress then false else true := by
  rw [slowEdge, latch_eq]
  unfold clocked
  cases s.phase <;> simp only [apply_ite SingleClock.spiCs, ite_self] <;> rfl

@[simp] theorem slowEdge_spiReset :
    (s.slowEdge r).spiReset =
      if s.phase = .waitReset then false
      else if s.phase = .waitTransaction then true
      else s.spiReset := by
  rw [slowEdge, latch_eq]
  unfold clocked
  cases s.phase <;> simp only [apply_ite SingleClock.spiReset, ite_self] <;> rfl

@[simp] theorem slowEdge_spiSclk :
    (s.slowEdge r).spiSclk =
      if s.phase = .transactionInProgress then
        if s.clockCycles < 64 then !s.spiSclk else s.spiSclk
      else false := by
  rw [slowEdge, latch_eq]
  unfold clocked
  cases s.phase <;> simp only [apply_ite SingleClock.spiSclk] <;> rfl

@[simp] theorem slowEdge_adcResetCount :
    (s.slowEdge r).adcResetCount =
      if s.phase = .waitReset then (s.adcResetCount + 1) % 256 else s.adcResetCount := by
  rw [slowEdge, latch_eq]
  unfold clocked
  cases s.phase <;> simp only [apply_ite SingleClock.adcResetCount, ite_self] <;> rfl

@[simp] theorem slowEdge_delayCounter :
    (s.slowEdge r).delayCounter =
      if s.phase = .transactionEnd then
        if s.delayCounter = 250000 then 0 else s.delayCounter + 1
      else s.delayCounter := by
  rw [slowEdge, latch_eq]
  unfold clocked
  cases s.phase <;> simp only [apply_ite SingleClock.delayCounter, ite_self] <;> rfl

@[simp] theorem slowEdge_clockCycles :
    (s.slowEdge r).clockCycles =
      if s.phase = .transactionInProgress then
        if s.clockCycles < 64 then s.clockCycles + 1 else s.clockCycles
      else 0 := by
  rw [slowEdge, latch_eq]
  unfold clocked
  cases s.phase <;> simp only [apply_ite SingleClock.clockCycles] <;> rfl

theorem slowEdge_spiMosi :
    (s.slowEdge r).spiMosi =
      if (s.slowEdge r).phase = .transactionInProgress then
        mosiLevel (s.slowEdge r).clockCycles
      else s.spiMosi := by
  have hm : (s.clocked r).spiMosi = s.spiMosi := by
    unfold clocked
    cases s.phase <;> simp only [apply_ite SingleClock.spiMosi, ite_self]
  simp only [slowEdge, latch_eq, hm]

end Registers

end SingleClock

/-! ## The machine on the events of the design -/

/-- The single-clock machine with the time it has seen. -/
structure Timed where
  regs : SingleClock := {}
  resetN : Bool
  ticks : ℕ := 0
  slowEdges : ℕ := 0
  deriving DecidableEq, Repr

namespace Timed

/-- The reaction to an event: a clock edge at the ticks 4, 12, 20, ..., and a clear at every
falling edge of `reset_n`. -/
def step (y : Timed) : Event → Timed
  -- both dividers have limit 3: they toggle every 4 ticks, and rise at every other toggle
  | .systemClock =>
    if (y.ticks + 1) % 8 = 4 then
      { y with
        regs := y.regs.slowEdge y.resetN
        ticks := y.ticks + 1
        slowEdges := y.slowEdges + 1 }
    else
      { y with ticks := y.ticks + 1 }
  | .resetN level =>
    { y with
      resetN := level
      regs := if y.resetN && !level then y.regs.clear else y.regs }
  | .spiMiso _ => y

theorem step_slow {y : Timed} (h : (y.ticks + 1) % 8 = 4) :
    y.step .systemClock =
      { y with
        regs := y.regs.slowEdge y.resetN
        ticks := y.ticks + 1
        slowEdges := y.slowEdges + 1 } := if_pos h

theorem step_quiet {y : Timed} (h : (y.ticks + 1) % 8 ≠ 4) :
    y.step .systemClock = { y with ticks := y.ticks + 1 } := if_neg h

/-- The machine at power-up, with `reset_n` at the given level. -/
def machine (resetN : Bool) : Machine Event Timed where
  init := { resetN }
  step := step

end Timed

/-- The single-clock machine along a run of the design. -/
def Run.timed (ρ : Run) : ℕ → Timed := (Timed.machine ρ.resetN₀).run ρ.event

/-- Its registers along the run. -/
def Run.regs (ρ : Run) (n : ℕ) : SingleClock := (ρ.timed n).regs

theorem Run.regs_zero (ρ : Run) : ρ.regs 0 = {} := rfl

theorem Run.timed_succ (ρ : Run) (n : ℕ) :
    ρ.timed (n + 1) = (ρ.timed n).step (ρ.event n) := Machine.run_succ _ _ n

end ADS131A0X
