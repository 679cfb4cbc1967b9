import Mathlib.Data.BitVec
import Mathlib.Logic.Function.Iterate
import ADS131A0X.Base.Divider

/-!
# The clock dividers

`clock_synthesizer` divides its input clock by counting up to a limit and toggling its output.
`heartbeat` is a copy of it with a limit of its own. Both power up at zero and are never reset,
so their registers are a function of the number of input clock edges.

## Main definitions

* `ClockSynthesizer`, `ClockSynthesizer.posedgeInputClock`: the divider and its clocked block
* `ClockSynthesizer.afterTicks`: the registers as a function of the number of edges
* `Heartbeat`, `Heartbeat.posedgeInputClock`: the heartbeat divider

## Main results

* `ClockSynthesizer.posedgeInputClock_afterTicks`: one edge in the closed form
-/

namespace ADS131A0X

open Divider

/-- The registers of `clock_synthesizer`. -/
structure ClockSynthesizer where
  counter : BitVec 32 := 0#32
  clockState : Bool := false
  deriving DecidableEq, Repr

namespace ClockSynthesizer

/-- The default of the parameter `COUNTER_LIMIT`. -/
def defaultCounterLimit : BitVec 32 := 24_999_999#32

/-- The block at `posedge input_clock`, for the parameter `COUNTER_LIMIT`. -/
def posedgeInputClock (counterLimit : BitVec 32) (c : ClockSynthesizer) : ClockSynthesizer :=
  if c.counter = counterLimit then
    { counter := 0#32, clockState := !c.clockState }
  else
    { c with counter := c.counter + 1#32 }

/-- The output `clock_pol`. -/
def clockPol (c : ClockSynthesizer) : Bool := c.clockState

/-- The registers after `t` edges of the input clock since power-up. -/
def afterTicks (counterLimit : BitVec 32) (t : ℕ) : ClockSynthesizer where
  counter := BitVec.ofNat 32 (t % (counterLimit.toNat + 1))
  clockState := dividerLevel (counterLimit.toNat + 1) t

@[simp] theorem afterTicks_zero (counterLimit : BitVec 32) :
    afterTicks counterLimit 0 = {} := by
  simp [afterTicks, dividerLevel]

@[simp] theorem clockPol_afterTicks (counterLimit : BitVec 32) (t : ℕ) :
    (afterTicks counterLimit t).clockPol = dividerLevel (counterLimit.toNat + 1) t := rfl

/-- The count of the closed form fits its register, for every limit. -/
theorem toNat_counter_afterTicks (counterLimit : BitVec 32) (t : ℕ) :
    (afterTicks counterLimit t).counter.toNat = t % (counterLimit.toNat + 1) := by
  have hlt : t % (counterLimit.toNat + 1) < counterLimit.toNat + 1 := Nat.mod_lt _ (by omega)
  have hN := counterLimit.isLt
  simp only [afterTicks, BitVec.toNat_ofNat]
  exact Nat.mod_eq_of_lt (by omega)

/-- One edge of the input clock takes the closed form after `t` edges to the one after `t + 1`. -/
theorem posedgeInputClock_afterTicks (counterLimit : BitVec 32) (t : ℕ) :
    posedgeInputClock counterLimit (afterTicks counterLimit t) =
      afterTicks counterLimit (t + 1) := by
  have hcount := toNat_counter_afterTicks counterLimit t
  by_cases hw : (afterTicks counterLimit t).counter = counterLimit
  -- the counter is at its limit: it wraps and the level toggles
  · have hwrap : t % (counterLimit.toNat + 1) + 1 = counterLimit.toNat + 1 := by
      rw [← hcount, hw]
    rw [posedgeInputClock, if_pos hw]
    simp only [afterTicks, (div_mod_succ_of_wrap hwrap).2, dividerLevel_succ_of_wrap hwrap]
  -- the counter is below its limit
  · have hlt : t % (counterLimit.toNat + 1) + 1 < counterLimit.toNat + 1 := by
      have hlt : t % (counterLimit.toNat + 1) < counterLimit.toNat + 1 := Nat.mod_lt _ (by omega)
      have hne : t % (counterLimit.toNat + 1) ≠ counterLimit.toNat := by
        rw [← hcount]
        exact fun h => hw (BitVec.eq_of_toNat_eq h)
      omega
    rw [posedgeInputClock, if_neg hw]
    simp only [afterTicks, (div_mod_succ_of_lt hlt).2, dividerLevel_succ_of_lt hlt,
      BitVec.ofNat_add]

/-- The output rises at the ticks that are odd multiples of the period. -/
theorem clockPol_rises_iff (counterLimit : BitVec 32) (t : ℕ) :
    (afterTicks counterLimit t).clockPol = false ∧
        ((afterTicks counterLimit t).posedgeInputClock counterLimit).clockPol = true ↔
      (t + 1) % ((counterLimit.toNat + 1) * 2) = counterLimit.toNat + 1 := by
  rw [posedgeInputClock_afterTicks, clockPol_afterTicks, clockPol_afterTicks]
  exact dividerLevel_rises_iff (Nat.succ_pos _)

end ClockSynthesizer

/-- The registers of `heartbeat`. -/
structure Heartbeat where
  counter : BitVec 32 := 0#32
  clockState : Bool := false
  deriving DecidableEq, Repr

namespace Heartbeat

/-- The block at `posedge input_clock`; the limit is the literal `32'd24_99_999`. -/
def posedgeInputClock (h : Heartbeat) : Heartbeat :=
  if h.counter = 24_99_999#32 then
    { counter := 0#32, clockState := !h.clockState }
  else
    { h with counter := h.counter + 1#32 }

/-- The output `clock_pol`. -/
def clockPol (h : Heartbeat) : Bool := h.clockState

end Heartbeat

end ADS131A0X
