import ADS131A0X.Rtl.Constants
import ADS131A0X.SingleClock.Invariant

/-!
# The design refines the single-clock machine

Two dividers of limit 3, one in the state machine and one in the clock generator, start together
and are never reset, so they rise together, at the ticks 4, 12, 20, ... of the system clock. The
blocks they clock exchange the state and the count; both are read before the edge. Together with
the asynchronous clear of the state register this is the single-clock machine, tick by tick.

## Main definitions

* `SpiMaster.Matches`: the registers of the state machine and of the clock generator, against
  those of the single-clock machine
* `Top.Refines`: the refinement relation
* `refinement`: the simulation of the design by the single-clock machine

## Main results

* `SpiMaster.Matches.nextState`, `SpiMaster.Matches.slowEdge`, `SpiMaster.Matches.spiMosiHandler`:
  the blocks of the design, one by one
* `Run.refines`: the relation holds along every run
-/

namespace ADS131A0X

open Transition Waveform Divider

namespace SpiMaster

/-- The registers of the state machine and of the clock generator hold what the single-clock
machine says, and the two registers that nothing writes hold their initial values. -/
structure Matches (m : SpiMaster) (s : SingleClock) : Prop where
  currentState : m.currentState = s.phase.encode
  spiCs : m.spiCs = s.spiCs
  spiReset : m.spiReset = s.spiReset
  spiMosi : m.spiMosi = s.spiMosi
  spiSclk : m.spiSclk = s.spiSclk
  adcResetCount : m.adcResetCount.toNat = s.adcResetCount
  delayCounter : m.delayCounterTransitionLogic.toNat = s.delayCounter
  clockCycles : m.countCsTracker.toNat = s.clockCycles
  spiTrigger : m.spiTrigger = true
  spiMosiByteCount : m.spiMosiByteCount = true

/-- A register of the design holds a literal iff its number is that of the literal. -/
theorem eq_ofNat_iff {w : ℕ} {x : BitVec w} {k n : ℕ} (hx : x.toNat = n) (hk : k < 2 ^ w) :
    x = BitVec.ofNat w k ↔ n = k := by
  rw [← BitVec.toNat_inj, BitVec.toNat_ofNat, Nat.mod_eq_of_lt hk, hx]

/-- Up to the last count of a frame, the hand-written table serialises the command word. -/
theorem mosiTable1_eq_mosiLevel :
    ∀ c : BitVec 8, c.toNat ≤ 64 → mosiTable1 c = mosiLevel c.toNat := by
  decide

namespace Matches

variable {m : SpiMaster} {s : SingleClock}

/-! ### The blocks of the state machine -/

theorem nextState (h : m.Matches s) : m.nextState = s.nextPhase.encode := by
  have hadc := eq_ofNat_iff h.adcResetCount (show 20 < 2 ^ 8 by decide)
  have hcount := eq_ofNat_iff h.clockCycles (show 64 < 2 ^ 8 by decide)
  have hdelay := eq_ofNat_iff h.delayCounter (show 250000 < 2 ^ 32 by decide)
  unfold SpiMaster.nextState SingleClock.nextPhase
  rw [h.currentState]
  -- the exit tests compare registers with literals that fit them
  cases s.phase with
  | reset => rfl
  | idle => rfl
  | setup => rfl
  | waitReset =>
    show (if m.adcResetCount = 20#8 then waitTransaction else waitReset) =
      (if s.adcResetCount = 20 then Phase.waitTransaction else Phase.waitReset).encode
    simp only [hadc]
    split <;> rfl
  | waitTransaction =>
    show (if m.spiTrigger then waitCs else waitTransaction) = Phase.encode .waitCs
    rw [h.spiTrigger]
    rfl
  | waitCs => rfl
  | transactionInProgress =>
    show (if m.countCsTracker = 64#8 then transactionEnd else transactionInProgress) =
      (if s.clockCycles = 64 then Phase.transactionEnd else Phase.transactionInProgress).encode
    simp only [hcount]
    split <;> rfl
  | transactionEnd =>
    show (if m.delayCounterTransitionLogic = 250_000#32 then waitTransaction
        else transactionEnd) =
      (if s.delayCounter = 250000 then Phase.waitTransaction else Phase.transactionEnd).encode
    simp only [hdelay]
    split <;> rfl

theorem stateRegister (h : m.Matches s) (r : Bool) :
    m.stateRegister r = (s.slowEdge r).phase.encode := by
  rw [SingleClock.slowEdge_phase]
  cases r
  · rfl
  · exact h.nextState

theorem outputLogic_spiCs (h : m.Matches s) (r : Bool) :
    m.outputLogic.spiCs = (s.slowEdge r).spiCs := by
  rw [SingleClock.slowEdge_spiCs]
  unfold outputLogic
  rw [h.currentState]
  cases s.phase <;> rfl

theorem outputLogic_spiReset (h : m.Matches s) (r : Bool) :
    m.outputLogic.spiReset = (s.slowEdge r).spiReset := by
  rw [SingleClock.slowEdge_spiReset, ← h.spiReset]
  unfold outputLogic
  rw [h.currentState]
  cases s.phase <;> rfl

theorem outputLogic_adcResetCount (h : m.Matches s) (r : Bool) :
    m.outputLogic.adcResetCount.toNat = (s.slowEdge r).adcResetCount := by
  rw [SingleClock.slowEdge_adcResetCount, ← h.adcResetCount]
  unfold outputLogic
  rw [h.currentState]
  cases s.phase <;> rfl

theorem outputLogic_delayCounter (h : m.Matches s) (hv : s.Valid) (r : Bool) :
    m.outputLogic.delayCounterTransitionLogic.toNat = (s.slowEdge r).delayCounter := by
  have hle := hv.delayCounter_le
  have hd := h.delayCounter
  have hdelay := eq_ofNat_iff hd (show 250000 < 2 ^ 32 by decide)
  rw [SingleClock.slowEdge_delayCounter]
  unfold outputLogic
  rw [h.currentState]
  cases s.phase with
  | transactionEnd =>
    rw [if_pos rfl]
    show (if m.delayCounterTransitionLogic = 250_000#32 then 0#32
      else m.delayCounterTransitionLogic + 1#32).toNat = _
    simp only [hdelay]
    split
    · rfl
    -- below 250000 the addition does not wrap
    · rw [BitVec.toNat_add, hd]
      exact Nat.mod_eq_of_lt (by norm_num; omega)
  | _ => exact hd

theorem outputLogic_spiMosi (m : SpiMaster) : m.outputLogic.spiMosi = m.spiMosi := by
  unfold outputLogic
  split <;> rfl

/-! ### The clocked block of the clock generator -/

theorem posedgeSynthesizedClock (h : m.Matches s) (hv : s.Valid) (r : Bool) :
    (m.spiSclkGeneratorUut.posedgeSynthesizedClock m.currentState).spiSclk =
        (s.slowEdge r).spiSclk ∧
      (m.spiSclkGeneratorUut.posedgeSynthesizedClock m.currentState).clockCycles.toNat =
        (s.slowEdge r).clockCycles := by
  have hle := hv.clockCycles_le
  have hc : m.spiSclkGeneratorUut.clockCyclesTemp.toNat = s.clockCycles := h.clockCycles
  rw [SingleClock.slowEdge_spiSclk, SingleClock.slowEdge_clockCycles, ← h.spiSclk]
  unfold SpiSclkGenerator.posedgeSynthesizedClock
  by_cases hp : s.phase = .transactionInProgress
  · have hst : m.currentState = SpiSclkGenerator.transactionInProgress := by
      rw [h.currentState, hp]
      rfl
    rw [if_pos hst, if_pos hp, if_pos hp, hc]
    by_cases hlt : s.clockCycles < 64
    -- one more toggle, counted without wrapping
    · rw [if_pos hlt, if_pos hlt, if_pos (by omega)]
      refine ⟨rfl, ?_⟩
      simp only [SpiSclkGenerator.clockCycles, BitVec.toNat_add, hc]
      exact Nat.mod_eq_of_lt (by norm_num; omega)
    -- the 64 toggles are done: level and count rest
    · rw [if_neg hlt, if_neg hlt, if_neg (by omega)]
      exact ⟨rfl, hc⟩
  -- outside a transaction both are cleared
  · have hst : m.currentState ≠ SpiSclkGenerator.transactionInProgress := by
      rw [h.currentState]
      exact fun he => hp (Phase.encode_injective he)
    rw [if_neg hst, if_neg hp, if_neg hp]
    exact ⟨rfl, rfl⟩

/-! ### The latch -/

/-- The level of the latch, on a state and a count that match those of `s`. -/
theorem spiMosi_spiMosiHandler (hst : m.currentState = s.phase.encode)
    (hbyte : m.spiMosiByteCount = true) (hcount : m.countCsTracker.toNat = s.clockCycles)
    (hle : s.clockCycles ≤ 64) :
    m.spiMosiHandler.spiMosi =
      if s.phase = .transactionInProgress then mosiLevel s.clockCycles else m.spiMosi := by
  have hiff : m.currentState = transactionInProgress ↔ s.phase = .transactionInProgress := by
    rw [hst]
    exact Phase.encode_inj (q := .transactionInProgress)
  rw [spiMosiHandler_eq]
  show (if m.currentState = transactionInProgress then _ else m.spiMosiTemp) = _
  simp only [hiff, hbyte, ← hcount]
  split
  · exact mosiTable1_eq_mosiLevel _ (by omega)
  · rfl

/-! ### An edge of the system clock -/

/-- At a rising edge of both divided clocks, the design makes the edge of the single-clock
machine. -/
theorem slowEdge (h : m.Matches s) (hv : s.Valid) {r : Bool} (hr : r = false → s.phase = .reset)
    (hclock : m.synthesizedClock4167 = false ∧ m.divide.synthesizedClock4167 = true)
    (hgen : m.spiSclkGeneratorUut.synthesizedClock8333 = false ∧
      m.spiSclkGeneratorUut.divide.synthesizedClock8333 = true) :
    (m.posedgeSystemClock r).Matches (s.slowEdge r) := by
  obtain ⟨hsclk, hcount⟩ := h.posedgeSynthesizedClock hv r
  obtain ⟨hsclk', hcount'⟩ :=
    m.spiSclkGeneratorUut.posedgeSystemClock_of_rise m.currentState hgen
  have hbyte : m.outputLogic.spiMosiByteCount = m.spiMosiByteCount :=
    congrArg Constants.spiMosiByteCount m.outputLogic_constants
  unfold posedgeSystemClock
  rw [if_pos (by simp [hclock])]
  have hmosi := spiMosi_spiMosiHandler (s := s.slowEdge r)
    (m := { m.posedgeSynthesizedClock r with
      clockSynthesizerUut := m.divide.clockSynthesizerUut
      spiSclkGeneratorUut := m.divide.spiSclkGeneratorUut })
    (h.stateRegister r) (hbyte.trans h.spiMosiByteCount)
    ((congrArg BitVec.toNat hcount').trans hcount) (hv.slowEdge hr).clockCycles_le
  rw [spiMosiHandler_eq] at hmosi ⊢
  exact {
    currentState := h.stateRegister r
    spiCs := h.outputLogic_spiCs r
    spiReset := h.outputLogic_spiReset r
    spiMosi := by
      rw [hmosi, SingleClock.slowEdge_spiMosi]
      exact if_congr Iff.rfl rfl ((outputLogic_spiMosi m).trans h.spiMosi)
    spiSclk := hsclk'.trans hsclk
    adcResetCount := h.outputLogic_adcResetCount r
    delayCounter := h.outputLogic_delayCounter hv r
    clockCycles := (congrArg BitVec.toNat hcount').trans hcount
    spiTrigger := (congrArg Constants.spiTrigger m.outputLogic_constants).trans h.spiTrigger
    spiMosiByteCount := hbyte.trans h.spiMosiByteCount }

/-- The latch leaves the registers matched between the edges. -/
theorem spiMosiHandler (h : m.Matches s) (hv : s.Valid) : m.spiMosiHandler.Matches s := by
  have hmosi := spiMosi_spiMosiHandler h.currentState h.spiMosiByteCount h.clockCycles
    hv.clockCycles_le
  rw [spiMosiHandler_eq] at hmosi ⊢
  refine { h with spiMosi := ?_ }
  rw [hmosi, h.spiMosi, ← congrArg SingleClock.spiMosi hv.latch, SingleClock.latch_eq]
  split <;> rfl

/-- At every other edge of the system clock, the registers rest. -/
theorem quiet (h : m.Matches s) (hv : s.Valid) (r : Bool)
    (hclock : ¬ (m.synthesizedClock4167 = false ∧ m.divide.synthesizedClock4167 = true))
    (hgen : ¬ (m.spiSclkGeneratorUut.synthesizedClock8333 = false ∧
      m.spiSclkGeneratorUut.divide.synthesizedClock8333 = true)) :
    (m.posedgeSystemClock r).Matches s := by
  obtain ⟨hsclk, hcount⟩ :=
    m.spiSclkGeneratorUut.posedgeSystemClock_of_not_rise m.currentState hgen
  unfold posedgeSystemClock
  rw [if_neg (by simpa using hclock)]
  refine spiMosiHandler (m := m.divide) ?_ hv
  exact { h with
    spiSclk := hsclk.trans h.spiSclk
    clockCycles := (congrArg BitVec.toNat hcount).trans h.clockCycles }

/-- A falling edge of `reset_n` clears the state. -/
theorem clear (h : m.Matches s) (hv : s.Valid) : m.negedgeResetN.Matches s.clear :=
  spiMosiHandler (m := { m with currentState := reset }) { h with currentState := rfl } hv.clear

end Matches

end SpiMaster

/-! ## The refinement relation -/

/-- The design holds the registers of the single-clock machine, and its dividers have counted the
ticks. -/
structure Top.Refines (t : Top) (y : Timed) : Prop where
  regs : t.spiMasterUut.Matches y.regs
  resetN : t.resetN = y.resetN
  clock : t.spiMasterUut.clockSynthesizerUut = .afterTicks 3#32 y.ticks
  clock0 : t.spiMasterUut.spiSclkGeneratorUut.clockSynthesizerUut0 = .afterTicks 3#32 y.ticks
  clock1 : t.spiMasterUut.spiSclkGeneratorUut.clockSynthesizerUut1 = .afterTicks 6#32 y.ticks
  valid : y.Valid

namespace Top.Refines

variable {t : Top} {y : Timed}

/-- The divider of the state machine rises at the ticks 4, 12, 20, ... -/
theorem clock_rises_iff (h : t.Refines y) :
    t.spiMasterUut.synthesizedClock4167 = false ∧
        t.spiMasterUut.divide.synthesizedClock4167 = true ↔ (y.ticks + 1) % 8 = 4 := by
  have hrise := ClockSynthesizer.clockPol_rises_iff 3#32 y.ticks
  rw [← h.clock] at hrise
  exact hrise

/-- So does the first divider of the clock generator. -/
theorem clock0_rises_iff (h : t.Refines y) :
    t.spiMasterUut.spiSclkGeneratorUut.synthesizedClock8333 = false ∧
        t.spiMasterUut.spiSclkGeneratorUut.divide.synthesizedClock8333 = true ↔
      (y.ticks + 1) % 8 = 4 := by
  have hrise := ClockSynthesizer.clockPol_rises_iff 3#32 y.ticks
  rw [← h.clock0] at hrise
  exact hrise

/-- All three dividers count the tick. -/
theorem dividers (h : t.Refines y) :
    t.posedgeSystemClock.spiMasterUut.clockSynthesizerUut = .afterTicks 3#32 (y.ticks + 1) ∧
      t.posedgeSystemClock.spiMasterUut.spiSclkGeneratorUut.clockSynthesizerUut0 =
        .afterTicks 3#32 (y.ticks + 1) ∧
      t.posedgeSystemClock.spiMasterUut.spiSclkGeneratorUut.clockSynthesizerUut1 =
        .afterTicks 6#32 (y.ticks + 1) := by
  simp [h.clock, h.clock0, h.clock1, ClockSynthesizer.posedgeInputClock_afterTicks]

theorem systemClock (h : t.Refines y) : (t.step .systemClock).Refines (y.step .systemClock) := by
  have hvalid := h.valid.step .systemClock
  obtain ⟨hclock, hclock0, hclock1⟩ := h.dividers
  have hmaster := t.posedgeSystemClock_spiMasterUut
  rw [h.resetN] at hmaster
  have hreset := t.posedgeSystemClock_resetN.trans h.resetN
  by_cases he : (y.ticks + 1) % 8 = 4
  -- both dividers rise: every clocked block of the design runs
  · have hregs := h.regs.slowEdge h.valid.regs h.valid.reset_low
      (h.clock_rises_iff.mpr he) (h.clock0_rises_iff.mpr he)
    rw [← hmaster] at hregs
    rw [Timed.step_slow he] at hvalid ⊢
    exact ⟨hregs, hreset, hclock, hclock0, hclock1, hvalid⟩
  -- neither divider rises
  · have hregs := h.regs.quiet h.valid.regs y.resetN
      (mt h.clock_rises_iff.mp he) (mt h.clock0_rises_iff.mp he)
    rw [← hmaster] at hregs
    rw [Timed.step_quiet he] at hvalid ⊢
    exact ⟨hregs, hreset, hclock, hclock0, hclock1, hvalid⟩

theorem step (h : t.Refines y) (e : Event) : (t.step e).Refines (y.step e) := by
  have hvalid := h.valid.step e
  cases e with
  | systemClock => exact h.systemClock
  | resetN level =>
    -- the level falls, or not; only a fall reaches the state register
    cases hr : y.resetN && !level with
    | false =>
      have hr' : (t.resetN && !level) = false := by rw [h.resetN, hr]
      simp only [Timed.step, Top.step, hr, hr'] at hvalid ⊢
      exact { h with resetN := rfl, valid := hvalid }
    | true =>
      have hr' : (t.resetN && !level) = true := by rw [h.resetN, hr]
      simp only [Timed.step, Top.step, hr, hr'] at hvalid ⊢
      exact {
        regs := h.regs.clear h.valid.regs
        resetN := rfl
        clock := h.clock
        clock0 := h.clock0
        clock1 := h.clock1
        valid := hvalid }
  | spiMiso level => exact { h with }

end Top.Refines

/-- The single-clock machine simulates the design, event by event. -/
def refinement (ρ : Run) :
    Machine.Simulation (Top.machine ρ.resetN₀ ρ.spiMiso₀) (Timed.machine ρ.resetN₀) where
  rel := Top.Refines
  init := {
    regs := by constructor <;> rfl
    resetN := rfl
    clock := (ClockSynthesizer.afterTicks_zero _).symm
    clock0 := (ClockSynthesizer.afterTicks_zero _).symm
    clock1 := (ClockSynthesizer.afterTicks_zero _).symm
    valid := ρ.valid 0 }
  step := fun _ _ e h => h.step e

/-- **Refinement.** Along every run the design holds the registers of the single-clock machine
driven by the same events. -/
theorem Run.refines (ρ : Run) (n : ℕ) : (ρ.top n).Refines (ρ.timed n) :=
  (refinement ρ).run ρ.event n

end ADS131A0X
