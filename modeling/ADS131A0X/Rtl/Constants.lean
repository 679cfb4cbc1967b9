import ADS131A0X.Rtl.Top

/-!
# The registers that no block writes

Some registers of `SPI_Master` get their value from their declaration and are written by no block:
the message registers, the trigger, and the bit and byte counts of `SPI_MOSI`. They are constants
of every run.

## Main definitions

* `SpiMaster.Constants`, `SpiMaster.constants`: these registers
* `SpiMaster.messages`, `Run.messages`: the message registers

## Main results

* `Top.step_constants`: no event writes them
* `Run.constants_eq`: they keep their declared values along every run
-/

namespace ADS131A0X

open Transition

namespace SpiMaster

/-- The registers of `SPI_Master` that no block writes. -/
structure Constants where
  messagePart0555 : BitVec 32
  messagePart0655 : BitVec 32
  messagePart0000 : BitVec 32
  spiTrigger : Bool
  spiMosiBitCount : BitVec 8
  spiMosiByteCount : Bool

/-- The values of these registers. -/
def constants (m : SpiMaster) : Constants where
  messagePart0555 := m.messagePart0555
  messagePart0655 := m.messagePart0655
  messagePart0000 := m.messagePart0000
  spiTrigger := m.spiTrigger
  spiMosiBitCount := m.spiMosiBitCount
  spiMosiByteCount := m.spiMosiByteCount

/-- The registers for the hard coded messages. -/
def messages (m : SpiMaster) : List (BitVec 32) :=
  [m.messagePart0555, m.messagePart0655, m.messagePart0000]

variable (resetN : Bool) (m : SpiMaster)

theorem outputLogic_constants : m.outputLogic.constants = m.constants := by
  unfold outputLogic
  split <;> rfl

theorem spiMosiHandler_constants : m.spiMosiHandler.constants = m.constants := by
  rw [spiMosiHandler_eq]
  rfl

theorem posedgeSystemClock_constants :
    (m.posedgeSystemClock resetN).constants = m.constants := by
  rw [posedgeSystemClock, spiMosiHandler_constants]
  split
  · exact m.outputLogic_constants
  · rfl

theorem negedgeResetN_constants : m.negedgeResetN.constants = m.constants :=
  spiMosiHandler_constants _

end SpiMaster

/-- **No event writes them.** -/
theorem Top.step_constants (t : Top) (e : Event) :
    (t.step e).spiMasterUut.constants = t.spiMasterUut.constants := by
  cases e with
  | systemClock =>
    rw [Top.step, Top.posedgeSystemClock_spiMasterUut]
    exact SpiMaster.posedgeSystemClock_constants _ _
  | resetN level =>
    simp only [Top.step]
    split
    · exact SpiMaster.negedgeResetN_constants _
    · rfl
  | spiMiso level => rfl

namespace Run

/-- The message registers along the run. -/
def messages (ρ : Run) (n : ℕ) : List (BitVec 32) := (ρ.top n).spiMasterUut.messages

theorem constants_eq (ρ : Run) (n : ℕ) :
    (ρ.top n).spiMasterUut.constants = ({} : SpiMaster).constants :=
  Machine.run_invariant (P := fun t : Top => t.spiMasterUut.constants = ({} : SpiMaster).constants)
    rfl (fun t e h => (t.step_constants e).trans h) _ n

/-- The first message register is declared with a literal of 16 bits, whose digits are cut. -/
theorem messages_eq (ρ : Run) (n : ℕ) : ρ.messages n = [0#32, 0x06550101#32, 0#32] := by
  have h := ρ.constants_eq n
  have h0555 := congrArg SpiMaster.Constants.messagePart0555 h
  have h0655 := congrArg SpiMaster.Constants.messagePart0655 h
  have h0000 := congrArg SpiMaster.Constants.messagePart0000 h
  simp only [SpiMaster.constants] at h0555 h0655 h0000
  rw [messages, SpiMaster.messages, h0555, h0655, h0000]
  rfl

end Run

end ADS131A0X
