import ADS131A0X.Base.Divider
import ADS131A0X.Base.Machine

/-!
# The timer of the processor system

`ADS131A0X_TIMER` counts down a 32-bit counter and raises an interrupt when it comes to 0. Software
starts and stops it, sets its period, and acknowledges a timeout by a write to the status register.

## Main definitions

* `Timer`, `Timer.Inputs`, `Timer.posedgeClk`: the registers, the levels at the inputs, one edge of
  `clk`
* `Timer.Run.Undisturbed`: nobody stops the timer or changes its period

## Main results

* `Timer.Run.timeouts_exact`: when a started timer times out, in continuous mode and once

## Implementation notes

`reset_n` clears every register, at its falling edge and at every edge of `clk` while it is low; one
such moment is one event. `clk_en` is constant, and left out.
-/

namespace ADS131A0X

open Transition Divider

/-- The registers of `ADS131A0X_TIMER`. -/
structure Timer where
  controlRegister : BitVec 4 := 0#4
  counterIsRunning : Bool := false
  counterSnapshot : BitVec 32 := 0#32
  delayedCounterIsZero : Bool := false
  forceReload : Bool := false
  internalCounter : BitVec 32 := 0x17D783F#32
  periodHRegister : BitVec 16 := 381#16
  periodLRegister : BitVec 16 := 30783#16
  readdata : BitVec 16 := 0#16
  timeoutOccurred : Bool := false
  deriving DecidableEq, Repr

namespace Timer

/-- The levels at the inputs of the timer at an edge of `clk`. -/
structure Inputs where
  address : BitVec 3
  chipselect : Bool
  writeN : Bool
  writedata : BitVec 16
  deriving DecidableEq, Repr

/-! ## Wires -/

namespace Inputs

variable (i : Inputs)

def statusWrStrobe : Bool := i.chipselect && !i.writeN && i.address == 0#3

def controlWrStrobe : Bool := i.chipselect && !i.writeN && i.address == 1#3

def periodLWrStrobe : Bool := i.chipselect && !i.writeN && i.address == 2#3

def periodHWrStrobe : Bool := i.chipselect && !i.writeN && i.address == 3#3

def snapStrobe : Bool :=
  (i.chipselect && !i.writeN && i.address == 4#3) || (i.chipselect && !i.writeN && i.address == 5#3)

def startStrobe : Bool := i.writedata.getLsbD 2 && i.controlWrStrobe

def stopStrobe : Bool := i.writedata.getLsbD 3 && i.controlWrStrobe

end Inputs

section Wires

variable (i : Inputs) (m : Timer)

def counterIsZero : Bool := m.internalCounter == 0#32

def counterLoadValue : BitVec 32 := m.periodHRegister ++ m.periodLRegister

def controlContinuous : Bool := m.controlRegister.getLsbD 1

def controlInterruptEnable : Bool := m.controlRegister.getLsbD 0

def doStopCounter : Bool :=
  i.stopStrobe || m.forceReload || (m.counterIsZero && !m.controlContinuous)

def timeoutEvent : Bool := m.counterIsZero && !m.delayedCounterIsZero

def irq : Bool := m.timeoutOccurred && m.controlInterruptEnable

/-- The wire `read_mux_out`; the addresses 6 and 7 read as 0. -/
def readMuxOut : BitVec 16 :=
  if i.address = 2#3 then m.periodLRegister
  else if i.address = 3#3 then m.periodHRegister
  else if i.address = 4#3 then m.counterSnapshot.extractLsb' 0 16
  else if i.address = 5#3 then m.counterSnapshot.extractLsb' 16 16
  else if i.address = 1#3 then m.controlRegister.setWidth 16
  else if i.address = 0#3 then
    (BitVec.ofBool m.counterIsRunning ++ BitVec.ofBool m.timeoutOccurred).setWidth 16
  else 0#16

end Wires

/-- One edge of `clk`, with `reset_n` high. -/
def posedgeClk (i : Inputs) (m : Timer) : Timer where
  internalCounter :=
    if m.counterIsRunning || m.forceReload then
      if m.counterIsZero || m.forceReload then m.counterLoadValue else m.internalCounter - 1#32
    else m.internalCounter
  forceReload := i.periodHWrStrobe || i.periodLWrStrobe
  -- a start wins over a stop
  counterIsRunning :=
    if i.startStrobe then true
    else if m.doStopCounter i then false
    else m.counterIsRunning
  delayedCounterIsZero := m.counterIsZero
  -- an acknowledgement wins over a timeout
  timeoutOccurred :=
    if i.statusWrStrobe then false
    else if m.timeoutEvent then true
    else m.timeoutOccurred
  readdata := m.readMuxOut i
  periodLRegister := if i.periodLWrStrobe then i.writedata else m.periodLRegister
  periodHRegister := if i.periodHWrStrobe then i.writedata else m.periodHRegister
  counterSnapshot := if i.snapStrobe then m.internalCounter else m.counterSnapshot
  controlRegister := if i.controlWrStrobe then i.writedata.extractLsb' 0 4 else m.controlRegister

/-- What the environment can do: raise `clk` with `reset_n` high, or have `reset_n` low. -/
inductive Event
  | clk (i : Inputs)
  | reset
  deriving DecidableEq, Repr

/-- The reaction of the timer to an event. -/
def step (m : Timer) : Event → Timer
  | .clk i => m.posedgeClk i
  | .reset => {}

/-- The timer after a reset. -/
def machine : Machine Event Timer where
  init := {}
  step := step

/-- A run of the timer: the events that follow a reset. -/
structure Run where
  event : ℕ → Event

namespace Run

/-- The timer after the first `n` events of the run. -/
def timer (ρ : Run) : ℕ → Timer := machine.run ρ.event

theorem timer_succ (ρ : Run) (n : ℕ) : ρ.timer (n + 1) = (ρ.timer n).step (ρ.event n) :=
  Machine.run_succ _ _ n

/-- A timeout occurs at step `n`. -/
def TimesOut (ρ : Run) (n : ℕ) : Prop := (ρ.timer n).timeoutEvent = true

instance (ρ : Run) : DecidablePred ρ.TimesOut := fun _ => inferInstanceAs (Decidable (_ = true))

/-- Step `n` acknowledges, by a write to the status register, or is a reset. -/
def Acknowledges (ρ : Run) (n : ℕ) : Prop :=
  match ρ.event n with
  | .clk i => i.statusWrStrobe = true
  | .reset => True

/-- At step `n` nobody resets or stops the timer, or writes its control or period registers. -/
def Undisturbed (ρ : Run) (n : ℕ) : Prop :=
  match ρ.event n with
  | .clk i =>
    i.controlWrStrobe = false ∧ i.periodLWrStrobe = false ∧ i.periodHWrStrobe = false
  | .reset => False

variable {ρ : Run} {a b n : ℕ}

/-! ## The interrupt -/

/-- A timeout sets the flag, and an acknowledgement clears it, also in the clock of a timeout. -/
theorem timeoutOccurred_succ : (ρ.timer (n + 1)).timeoutOccurred = true ↔
    ¬ ρ.Acknowledges n ∧ (ρ.TimesOut n ∨ (ρ.timer n).timeoutOccurred = true) := by
  rw [timer_succ, Acknowledges, TimesOut]
  cases ρ.event n with
  | reset => simp [step]
  | clk i =>
    simp only [step, posedgeClk]
    cases i.statusWrStrobe <;> cases (ρ.timer n).timeoutEvent <;> simp

/-! ## The period -/

theorem exists_clk_of_undisturbed (h : ρ.Undisturbed n) :
    ∃ i, ρ.event n = .clk i ∧ i.controlWrStrobe = false ∧ i.periodLWrStrobe = false ∧
      i.periodHWrStrobe = false := by
  rw [Undisturbed] at h
  cases he : ρ.event n with
  | reset =>
    rw [he] at h
    exact h.elim
  | clk i =>
    rw [he] at h
    exact ⟨i, rfl, h⟩

theorem counterIsZero_iff {m : Timer} : m.counterIsZero = true ↔ m.internalCounter.toNat = 0 := by
  rw [counterIsZero, beq_iff_eq, ← BitVec.toNat_inj]
  rfl

/-- A clock of a timer that nobody disturbs. -/
theorem undisturbed_succ (hreload : (ρ.timer n).forceReload = false) (hn : ρ.Undisturbed n) :
    (ρ.timer (n + 1)).forceReload = false ∧
      (ρ.timer (n + 1)).controlRegister = (ρ.timer n).controlRegister ∧
      (ρ.timer (n + 1)).counterLoadValue = (ρ.timer n).counterLoadValue ∧
      (ρ.timer (n + 1)).delayedCounterIsZero = (ρ.timer n).counterIsZero ∧
      (ρ.timer (n + 1)).counterIsRunning =
        ((ρ.timer n).counterIsRunning &&
          !((ρ.timer n).counterIsZero && !(ρ.timer n).controlContinuous)) ∧
      (ρ.timer (n + 1)).internalCounter.toNat =
        if (ρ.timer n).counterIsRunning = true then
          if (ρ.timer n).internalCounter.toNat = 0 then (ρ.timer n).counterLoadValue.toNat
          else (ρ.timer n).internalCounter.toNat - 1
        else (ρ.timer n).internalCounter.toNat := by
  obtain ⟨i, he, hctrl, hl, hh⟩ := exists_clk_of_undisturbed hn
  have hstart : i.startStrobe = false := by rw [Inputs.startStrobe, hctrl, Bool.and_false]
  have hstop : i.stopStrobe = false := by rw [Inputs.stopStrobe, hctrl, Bool.and_false]
  rw [timer_succ, he]
  refine ⟨?_, ?_, ?_, rfl, ?_, ?_⟩
  · simp [step, posedgeClk, hl, hh]
  · simp [step, posedgeClk, hctrl]
  · simp [step, posedgeClk, counterLoadValue, hl, hh]
  · simp only [step, posedgeClk, doStopCounter, hstart, hstop, hreload]
    cases (ρ.timer n).counterIsZero <;> cases (ρ.timer n).controlContinuous <;> simp
  · simp only [step, posedgeClk, hreload, Bool.or_false, counterIsZero_iff]
    split
    · split
      · rfl
      · next hne =>
        have hlt := (ρ.timer n).internalCounter.isLt
        rw [BitVec.toNat_sub]
        simp
        omega
    · rfl

/-- The timer runs, and starts again when its counter comes to 0. -/
structure Ticking (m : Timer) : Prop where
  counterIsRunning : m.counterIsRunning = true
  forceReload : m.forceReload = false
  continuous : m.controlContinuous = true

/-- The counter of a timer in continuous mode, as long as nobody disturbs it. -/
theorem Ticking.internalCounter_eq (ha : Ticking (ρ.timer a)) (hab : a ≤ b)
    (h : ∀ n, a ≤ n → n < b → ρ.Undisturbed n) :
    Ticking (ρ.timer b) ∧
      (ρ.timer b).counterLoadValue = (ρ.timer a).counterLoadValue ∧
      (ρ.timer b).internalCounter.toNat =
        reloadCount (ρ.timer a).counterLoadValue.toNat (ρ.timer a).internalCounter.toNat
          (b - a) := by
  induction b, hab using Nat.le_induction with
  | base =>
    rw [Nat.sub_self, reloadCount_of_le (Nat.zero_le _), Nat.sub_zero]
    exact ⟨ha, rfl, rfl⟩
  | succ b hab ih =>
    obtain ⟨⟨hrun, hreload, hcont⟩, hload, hcount⟩ := ih fun n hn hn' => h n hn (by omega)
    obtain ⟨hreload', hctrl', hload', -, hrun', hcount'⟩ :=
      undisturbed_succ hreload (h b hab b.lt_succ_self)
    refine ⟨⟨?_, hreload', ?_⟩, hload'.trans hload, ?_⟩
    · rw [hrun', hrun, hcont, Bool.not_true, Bool.and_false]
      rfl
    · rw [controlContinuous, hctrl']
      exact hcont
    · rw [show b + 1 - a = (b - a) + 1 by omega, reloadCount_succ, ← hcount, hcount', if_pos hrun,
        hload]

/-- The counter of a timer that stops when it comes to 0. -/
theorem internalCounter_eq_of_once (hrun : (ρ.timer a).counterIsRunning = true)
    (hreload : (ρ.timer a).forceReload = false) (honce : (ρ.timer a).controlContinuous = false)
    (hab : a ≤ b) (h : ∀ n, a ≤ n → n < b → ρ.Undisturbed n) :
    (ρ.timer b).forceReload = false ∧ (ρ.timer b).controlContinuous = false ∧
      (ρ.timer b).counterLoadValue = (ρ.timer a).counterLoadValue ∧
      (ρ.timer b).counterIsRunning = decide (b ≤ a + (ρ.timer a).internalCounter.toNat) ∧
      (ρ.timer b).internalCounter.toNat =
        if b ≤ a + (ρ.timer a).internalCounter.toNat then
          a + (ρ.timer a).internalCounter.toNat - b
        else (ρ.timer a).counterLoadValue.toNat := by
  induction b, hab using Nat.le_induction with
  | base =>
    refine ⟨hreload, honce, rfl, ?_, ?_⟩
    · rw [hrun, decide_eq_true (Nat.le_add_right _ _)]
    · rw [if_pos (Nat.le_add_right _ _), Nat.add_sub_cancel_left]
  | succ b hab ih =>
    obtain ⟨hreload, honce, hload, hrun, hcount⟩ := ih fun n hn hn' => h n hn (by omega)
    obtain ⟨hreload', hctrl', hload', -, hrun', hcount'⟩ :=
      undisturbed_succ hreload (h b hab b.lt_succ_self)
    have hzero := counterIsZero_iff (m := ρ.timer b)
    rw [hcount] at hzero
    refine ⟨hreload', ?_, hload'.trans hload, ?_, ?_⟩
    · rw [controlContinuous, hctrl']
      exact honce
    · rw [hrun', hrun, honce, Bool.not_false, Bool.and_true, Bool.eq_iff_iff, Bool.and_eq_true,
        Bool.not_eq_true', ← Bool.not_eq_true, hzero, decide_eq_true_iff, decide_eq_true_iff]
      split <;> omega
    · rw [hcount', hrun, hcount, hload]
      simp only [decide_eq_true_eq]
      split_ifs <;> omega

/-- A timeout is the step at which the counter has come to 0. -/
theorem timesOut_succ_iff (hreload : (ρ.timer n).forceReload = false) (hn : ρ.Undisturbed n) :
    ρ.TimesOut (n + 1) ↔ (ρ.timer (n + 1)).counterIsZero = true ∧
      ¬ (ρ.timer n).counterIsZero = true := by
  rw [TimesOut, timeoutEvent, (undisturbed_succ hreload hn).2.2.2.1, Bool.and_eq_true,
    Bool.not_eq_true', Bool.not_eq_true]

theorem Ticking.timesOut_iff (ha : Ticking (ρ.timer a))
    (hload : 0 < (ρ.timer a).counterLoadValue.toNat)
    (h : ∀ n, a ≤ n → n < b → ρ.Undisturbed n) (han : a < n) (hnb : n ≤ b) :
    ρ.TimesOut n ↔ ∃ j, n = a + (ρ.timer a).internalCounter.toNat +
      j * ((ρ.timer a).counterLoadValue.toNat + 1) := by
  have hzero : ∀ m, a ≤ m → m ≤ b → ((ρ.timer m).counterIsZero = true ↔
      ∃ j, m = a + (ρ.timer a).internalCounter.toNat +
        j * ((ρ.timer a).counterLoadValue.toNat + 1)) := by
    intro m ham hmb
    rw [counterIsZero_iff, (ha.internalCounter_eq ham fun k hk hk' => h k hk (by omega)).2.2]
    refine reloadCount_eq_zero_iff.trans (exists_congr fun j => ?_)
    omega
  obtain ⟨m, rfl⟩ : ∃ m, n = m + 1 := ⟨n - 1, by omega⟩
  have htick := (ha.internalCounter_eq (by omega : a ≤ m) fun k hk hk' => h k hk (by omega)).1
  rw [timesOut_succ_iff htick.forceReload (h m (by omega) (by omega)), hzero (m + 1) (by omega) hnb,
    hzero m (by omega) (by omega)]
  refine and_iff_left_of_imp ?_
  -- the counter is not 0 twice in a row
  rintro ⟨j, hj⟩ ⟨j', hj'⟩
  have hlt : j' < j := by
    by_contra hle
    have := Nat.mul_le_mul_right ((ρ.timer a).counterLoadValue.toNat + 1) (not_lt.mp hle)
    omega
  have := Nat.mul_le_mul_right ((ρ.timer a).counterLoadValue.toNat + 1) hlt
  rw [Nat.succ_mul] at this
  omega

/-- **The timeouts of a started timer**, from any point at which it runs with a period of more than one
clock, and as long as nobody disturbs it, whatever else happens on the bus. With `c` in the counter it
times out, of the steps after `a`, at `a + c + j (load + 1)` in continuous mode, and at `a + c` only in
the other mode; after that it is stopped and reloaded. -/
theorem timeouts_exact (ρ : Run) (a b : ℕ) (hrun : (ρ.timer a).counterIsRunning = true)
    (hreload : (ρ.timer a).forceReload = false)
    (hload : 0 < (ρ.timer a).counterLoadValue.toNat)
    (h : ∀ n, a ≤ n → n < b → ρ.Undisturbed n) (n : ℕ) (han : a < n) (hnb : n ≤ b) :
    ((ρ.timer a).controlContinuous = true →
      (ρ.TimesOut n ↔ ∃ j, n = a + (ρ.timer a).internalCounter.toNat +
        j * ((ρ.timer a).counterLoadValue.toNat + 1))) ∧
      ((ρ.timer a).controlContinuous = false →
        (ρ.TimesOut n ↔ n = a + (ρ.timer a).internalCounter.toNat) ∧
        (a + (ρ.timer a).internalCounter.toNat < n →
          (ρ.timer n).counterIsRunning = false ∧
          (ρ.timer n).internalCounter = (ρ.timer a).counterLoadValue)) := by
  refine ⟨fun hcont => Ticking.timesOut_iff ⟨hrun, hreload, hcont⟩ hload h han hnb, fun honce => ?_⟩
  have hcount : ∀ m, a ≤ m → m ≤ b → _ := fun m ham hmb =>
    internalCounter_eq_of_once hrun hreload honce ham fun k hk hk' => h k hk (by omega)
  constructor
  · obtain ⟨m, rfl⟩ : ∃ m, n = m + 1 := ⟨n - 1, by omega⟩
    obtain ⟨hreload', -, -, -, hm⟩ := hcount m (by omega) (by omega)
    obtain ⟨-, -, -, -, hm'⟩ := hcount (m + 1) (by omega) hnb
    rw [timesOut_succ_iff hreload' (h m (by omega) (by omega)), counterIsZero_iff, counterIsZero_iff,
      hm, hm']
    split_ifs <;> omega
  · intro hlt
    obtain ⟨-, -, -, hrun', hn⟩ := hcount n han.le hnb
    rw [if_neg (by omega)] at hn
    exact ⟨hrun'.trans (decide_eq_false (by omega)), BitVec.toNat_inj.mp hn⟩

/-- The run in which software starts the timer right after a reset, with its interrupt, and leaves it
alone. -/
def started (continuous : Bool) : Run where
  event := fun n => .clk {
    address := 1#3
    chipselect := decide (n = 0)
    writeN := false
    writedata := if continuous then 7#16 else 5#16 }

theorem started_undisturbed (continuous : Bool) {n : ℕ} (hn : 1 ≤ n) :
    (started continuous).Undisturbed n := by
  have hne : decide (n = 0) = false := decide_eq_false (by omega)
  simp [Undisturbed, started, Inputs.controlWrStrobe, Inputs.periodLWrStrobe,
    Inputs.periodHWrStrobe, hne]

/-- It times out first after half a second. -/
theorem timeouts_exact_started : (started true).TimesOut 25000000 := by
  refine ((timeouts_exact (started true) 1 25000000 rfl rfl (by decide)
    (fun n hn _ => started_undisturbed true hn) 25000000 (by omega) le_rfl).1 rfl).mpr ⟨0, ?_⟩
  decide

end Run

end Timer

end ADS131A0X
