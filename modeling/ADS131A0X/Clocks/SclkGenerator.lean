import ADS131A0X.Base.Machine
import ADS131A0X.Base.Waveform
import ADS131A0X.Rtl.SpiSclkGenerator

/-!
# The SPI clock generator against any controller

`spi_sclk_generator` alone, with an arbitrary value on its port `state_machine` at each edge of
its divided clock. A burst of `TRANSACTION_IN_PROGRESS` edges produces one pulse of `SPI_SCLK` for
every two edges, and no more than 32 of them: the count of the toggles stops at 64.

## Main definitions

* `SpiSclkGenerator.edges`: the generator at the edges of its divided clock
* `SpiSclkGenerator.ticks`: the generator at the edges of the system clock
* `SpiSclkGenerator.Burst`: an edge outside a transaction and the edges of one after it

## Main results

* `SpiSclkGenerator.Burst.pins`: the pins within a burst
* `SpiSclkGenerator.Burst.length_rises`, `SpiSclkGenerator.Burst.length_falls`: its clock pulses
* `SpiSclkGenerator.sclk_any_controller`: the behaviour for every stimulus
-/

namespace ADS131A0X

open Transition Waveform Divider

namespace SpiSclkGenerator

/-! ## One edge of the divided clock -/

section Edge

variable {stateMachine : BitVec 5} {g g' : SpiSclkGenerator}

/-- An edge outside a transaction clears both pins. -/
theorem posedgeSynthesizedClock_of_ne (h : stateMachine ≠ transactionInProgress) :
    (g.posedgeSynthesizedClock stateMachine).spiSclk = false ∧
      (g.posedgeSynthesizedClock stateMachine).clockCycles = 0#8 := by
  rw [posedgeSynthesizedClock, if_neg h]
  exact ⟨rfl, rfl⟩

/-- An edge of a transaction toggles the clock and counts, up to 64 toggles. -/
theorem posedgeSynthesizedClock_of_lt (h : stateMachine = transactionInProgress)
    (hcc : g.clockCycles.toNat < 64) :
    (g.posedgeSynthesizedClock stateMachine).spiSclk = !g.spiSclk ∧
      (g.posedgeSynthesizedClock stateMachine).clockCycles.toNat = g.clockCycles.toNat + 1 := by
  have hcc' : g.clockCyclesTemp.toNat ≤ 15 + 16 + 16 + 16 := Nat.le_of_lt_succ hcc
  rw [posedgeSynthesizedClock, if_pos h, if_pos hcc']
  refine ⟨rfl, ?_⟩
  have hone : (1#8).toNat = 1 := rfl
  change (g.clockCycles + 1#8).toNat = g.clockCycles.toNat + 1
  rw [BitVec.toNat_add, hone, Nat.mod_eq_of_lt (by omega)]

/-- After 64 toggles the edges of a transaction do nothing. -/
theorem posedgeSynthesizedClock_of_le (h : stateMachine = transactionInProgress)
    (hcc : 64 ≤ g.clockCycles.toNat) : g.posedgeSynthesizedClock stateMachine = g := by
  have hcc' : ¬ g.clockCyclesTemp.toNat ≤ 15 + 16 + 16 + 16 := Nat.not_le_of_lt hcc
  rw [posedgeSynthesizedClock, if_pos h, if_neg hcc']

/-- The count saturates at 64, so it never wraps. -/
theorem toNat_clockCycles_posedgeSynthesizedClock (h : stateMachine = transactionInProgress)
    (hcc : g.clockCycles.toNat ≤ 64) :
    (g.posedgeSynthesizedClock stateMachine).clockCycles.toNat =
      min (g.clockCycles.toNat + 1) 64 := by
  rcases Nat.lt_or_ge g.clockCycles.toNat 64 with hlt | hge
  · rw [(posedgeSynthesizedClock_of_lt h hlt).2]
    omega
  · rw [posedgeSynthesizedClock_of_le h hge]
    omega

/-- The pins after an edge depend on the pins before it only. -/
theorem posedgeSynthesizedClock_congr (hsclk : g.spiSclk = g'.spiSclk)
    (hcc : g.clockCycles = g'.clockCycles) :
    (g.posedgeSynthesizedClock stateMachine).spiSclk =
        (g'.posedgeSynthesizedClock stateMachine).spiSclk ∧
      (g.posedgeSynthesizedClock stateMachine).clockCycles =
        (g'.posedgeSynthesizedClock stateMachine).clockCycles := by
  simp only [spiSclk, clockCycles] at hsclk hcc
  unfold posedgeSynthesizedClock
  rw [hcc, hsclk]
  split_ifs <;> simp [spiSclk, clockCycles, hsclk, hcc]

end Edge

/-- The generator at the edges of its divided clock; the input is the port `state_machine`. -/
def edges : Machine (BitVec 5) SpiSclkGenerator where
  init := {}
  step g stateMachine := g.posedgeSynthesizedClock stateMachine

/-- The generator at the edges of the system clock. -/
def ticks : Machine (BitVec 5) SpiSclkGenerator where
  init := {}
  step g stateMachine := g.posedgeSystemClock stateMachine

/-- The output `SPI_SCLK` over the edges of the divided clock. -/
def sclkWire (value : ℕ → BitVec 5) : Signal := fun m => (edges.run value m).spiSclk

/-- The port is outside `TRANSACTION_IN_PROGRESS` at edge `n`, and in it at the `L` edges after. -/
structure Burst (value : ℕ → BitVec 5) (n L : ℕ) : Prop where
  idle : value n ≠ transactionInProgress
  busy : ∀ k, n < k → k ≤ n + L → value k = transactionInProgress

variable {value : ℕ → BitVec 5} {n L : ℕ}

theorem Burst.of_le (h : Burst value n L) {M : ℕ} (hM : M ≤ L) : Burst value n M :=
  ⟨h.idle, fun k hnk hk => h.busy k hnk (by omega)⟩

theorem clockCycles_le (value : ℕ → BitVec 5) (n : ℕ) :
    (edges.run value n).clockCycles.toNat ≤ 64 := by
  apply Machine.run_invariant (P := fun g : SpiSclkGenerator => g.clockCycles.toNat ≤ 64)
  · exact Nat.zero_le _
  · intro g stateMachine hcc
    by_cases h : stateMachine = transactionInProgress
    · change (g.posedgeSynthesizedClock stateMachine).clockCycles.toNat ≤ 64
      rw [toNat_clockCycles_posedgeSynthesizedClock h hcc]
      exact Nat.min_le_right _ _
    · change (g.posedgeSynthesizedClock stateMachine).clockCycles.toNat ≤ 64
      simp [(posedgeSynthesizedClock_of_ne (g := g) h).2]

theorem pins_of_idle (h : value n ≠ transactionInProgress) :
    sclkWire value (n + 1) = false ∧ (edges.run value (n + 1)).clockCycles = 0#8 :=
  posedgeSynthesizedClock_of_ne h

/-- **The pins within a burst.** By induction on the number of edges, one toggle an edge up to
the 64th. -/
theorem Burst.pins (h : Burst value n L) :
    (edges.run value (n + 1 + L)).clockCycles.toNat = min L 64 ∧
      sclkWire value (n + 1 + L) = decide (min L 64 % 2 = 1) := by
  induction L with
  | zero =>
    obtain ⟨hsclk, hcc⟩ := pins_of_idle h.idle
    rw [Nat.add_zero, hsclk, hcc]
    exact ⟨rfl, rfl⟩
  | succ L ih =>
    obtain ⟨hcc, hsclk⟩ := ih (h.of_le L.le_succ)
    have hbusy : value (n + 1 + L) = transactionInProgress := h.busy _ (by omega) (by omega)
    have hstep : edges.run value (n + 1 + (L + 1)) =
        (edges.run value (n + 1 + L)).posedgeSynthesizedClock (value (n + 1 + L)) := rfl
    rw [sclkWire] at hsclk
    rw [sclkWire, hstep]
    rcases Nat.lt_or_ge L 64 with hlt | hge
    -- the clock toggles
    · rw [Nat.min_eq_left hlt.le] at hcc hsclk
      obtain ⟨hsclk', hcc'⟩ := posedgeSynthesizedClock_of_lt hbusy (by rw [hcc]; exact hlt)
      rw [Nat.min_eq_left (by omega), hcc', hcc, hsclk', hsclk, decide_odd_succ]
      exact ⟨rfl, rfl⟩
    -- all 64 toggles are done
    · rw [Nat.min_eq_right hge] at hcc hsclk
      rw [Nat.min_eq_right (by omega), posedgeSynthesizedClock_of_le hbusy hcc.ge]
      exact ⟨hcc, hsclk⟩

/-- The edges of a burst with an even number of edges before them raise the clock, up to the
64th. -/
theorem Burst.risesAt_iff (h : Burst value n (L + 1)) :
    (sclkWire value).RisesAt (n + 1 + L) ↔ L < 64 ∧ L % 2 = 0 := by
  rw [Signal.RisesAt, (h.of_le L.le_succ).pins.2, Nat.add_assoc, h.pins.2]
  simp only [decide_eq_false_iff_not, decide_eq_true_eq]
  omega

theorem length_burst_rises (h : Burst value n L) :
    (stepsIn (sclkWire value).RisesAt (n + 1) (n + 1 + L)).length = (min L 64 + 1) / 2 := by
  induction L with
  | zero => simp
  | succ L ih =>
    rw [← Nat.add_assoc, stepsIn_succ (by omega), List.length_append, ih (h.of_le L.le_succ)]
    by_cases hr : (sclkWire value).RisesAt (n + 1 + L)
    · have hL := h.risesAt_iff.mp hr
      rw [if_pos hr, List.length_singleton]
      omega
    · have hL := mt h.risesAt_iff.mpr hr
      rw [if_neg hr, List.length_nil]
      omega

/-- The edge that ends a burst does not raise the clock. -/
theorem Burst.length_rises (h : Burst value n L)
    (hend : value (n + 1 + L) ≠ transactionInProgress) :
    (stepsIn (sclkWire value).RisesAt (n + 1) (n + 1 + L + 1)).length = (min L 64 + 1) / 2 := by
  have hlow := (pins_of_idle hend).1
  rw [stepsIn_succ_of_not (by omega) fun hr => by simp [hr.2] at hlow]
  exact length_burst_rises h

/-- With the edge that ends a burst the clock has fallen as often as it has risen. -/
theorem Burst.length_falls (h : Burst value n L)
    (hend : value (n + 1 + L) ≠ transactionInProgress) :
    (stepsIn (sclkWire value).FallsAt (n + 1) (n + 1 + L + 1)).length = (min L 64 + 1) / 2 := by
  have hbalance := (sclkWire value).toNat_add_rises (show n + 1 ≤ n + 1 + L + 1 by omega)
  rw [(pins_of_idle h.idle).1, (pins_of_idle hend).1, h.length_rises hend] at hbalance
  omega

/-! ## The edges of the system clock -/

/-- After `t` edges of the system clock the pins are those after `⌊(t + 4) / 8⌋` edges of the
divided clock, which samples the port at every eighth. -/
theorem ticks_eq_edges (port : ℕ → BitVec 5) (hport : ∀ e, port (8 * e + 3) = value e) (t : ℕ) :
    (ticks.run port t).clockSynthesizerUut0 = .afterTicks 3#32 t ∧
      (ticks.run port t).spiSclk = (edges.run value ((t + 4) / 8)).spiSclk ∧
      (ticks.run port t).clockCycles = (edges.run value ((t + 4) / 8)).clockCycles := by
  induction t with
  | zero => exact ⟨(ClockSynthesizer.afterTicks_zero 3#32).symm, rfl, rfl⟩
  | succ t ih =>
    obtain ⟨hclock, hsclk, hcc⟩ := ih
    have hstep : ticks.run port (t + 1) =
        (ticks.run port t).posedgeSystemClock (port t) := rfl
    have hrise := ClockSynthesizer.clockPol_rises_iff 3#32 t
    rw [← hclock] at hrise
    change ((ticks.run port t).synthesizedClock8333 = false ∧
      (ticks.run port t).divide.synthesizedClock8333 = true) ↔ (t + 1) % 8 = 4 at hrise
    rw [hstep]
    refine ⟨?_, ?_⟩
    · rw [posedgeSystemClock_uut0, hclock, ClockSynthesizer.posedgeInputClock_afterTicks]
    by_cases h : (t + 1) % 8 = 4
    -- the divided clock rises, and samples the port
    · have hnext : (t + 1 + 4) / 8 = (t + 4) / 8 + 1 := by omega
      have hvalue : port t = value ((t + 4) / 8) := by
        rw [← hport]
        congr 1
        omega
      obtain ⟨hs, hc⟩ := posedgeSystemClock_of_rise (port t) _ (hrise.mpr h)
      rw [hs, hc, hnext, Machine.run_succ, hvalue]
      exact posedgeSynthesizedClock_congr hsclk hcc
    -- between its edges the pins rest
    · have hsame : (t + 1 + 4) / 8 = (t + 4) / 8 := by omega
      obtain ⟨hs, hc⟩ := posedgeSystemClock_of_not_rise (port t) _ (mt hrise.mp h)
      rw [hs, hc, hsame]
      exact ⟨hsclk, hcc⟩

/-- **The generator against any controller.** For every sequence of values on the port
`state_machine`: an edge outside a transaction clears the pins; the `L` edges of a burst leave
`min L 64` toggles; a burst that ends produces `⌈min L 64 / 2⌉` rising and as many falling edges;
the count never exceeds 64 and each edge of a transaction adds one to it or keeps it. The same
pins are seen over the edges of the system clock. -/
theorem sclk_any_controller (value : ℕ → BitVec 5) :
    (∀ n, value n ≠ transactionInProgress →
        (edges.run value (n + 1)).spiSclk = false ∧
          (edges.run value (n + 1)).clockCycles.toNat = 0) ∧
      (∀ n L, Burst value n L →
        (edges.run value (n + 1 + L)).clockCycles.toNat = min L 64 ∧
          (edges.run value (n + 1 + L)).spiSclk.toNat = min L 64 % 2 ∧
          (stepsIn (sclkWire value).RisesAt (n + 1) (n + 1 + L)).length = (min L 64 + 1) / 2) ∧
      (∀ n L, Burst value n L → value (n + 1 + L) ≠ transactionInProgress →
        (stepsIn (sclkWire value).RisesAt (n + 1) (n + 1 + L + 1)).length = (min L 64 + 1) / 2 ∧
          (stepsIn (sclkWire value).FallsAt (n + 1) (n + 1 + L + 1)).length =
            (min L 64 + 1) / 2) ∧
      (∀ n, (edges.run value n).clockCycles.toNat ≤ 64) ∧
      (∀ n, value n = transactionInProgress →
        (edges.run value (n + 1)).clockCycles.toNat =
          min ((edges.run value n).clockCycles.toNat + 1) 64) ∧
      ∀ port : ℕ → BitVec 5, (∀ e, port (8 * e + 3) = value e) → ∀ t,
        (ticks.run port t).spiSclk = (edges.run value ((t + 4) / 8)).spiSclk ∧
          (ticks.run port t).clockCycles = (edges.run value ((t + 4) / 8)).clockCycles := by
  refine ⟨?_, ?_, ?_, clockCycles_le value, ?_, ?_⟩
  · intro n h
    obtain ⟨hsclk, hcc⟩ := pins_of_idle h
    exact ⟨hsclk, by rw [hcc]; rfl⟩
  · intro n L h
    obtain ⟨hcc, hsclk⟩ := h.pins
    refine ⟨hcc, ?_, length_burst_rises h⟩
    rw [sclkWire] at hsclk
    rw [hsclk, toNat_decide_odd]
  · intro n L h hend
    exact ⟨h.length_rises hend, h.length_falls hend⟩
  · intro n h
    exact toNat_clockCycles_posedgeSynthesizedClock h (clockCycles_le value n)
  · intro port hport t
    exact (ticks_eq_edges port hport t).2

/-- A stimulus that stays in `TRANSACTION_IN_PROGRESS` for 100 edges. -/
def longBurst (n : ℕ) : BitVec 5 := if n = 0 ∨ 100 < n then 0#5 else transactionInProgress

/-- The 100 edges produce 32 pulses. -/
theorem sclk_any_controller_longBurst :
    Burst longBurst 0 100 ∧
      (stepsIn (sclkWire longBurst).RisesAt 1 102).length = 32 ∧
      (stepsIn (sclkWire longBurst).FallsAt 1 102).length = 32 := by
  have hburst : Burst longBurst 0 100 := ⟨by decide, fun k h0 h => if_neg (by omega)⟩
  have hend : longBurst 101 ≠ transactionInProgress := by decide
  exact ⟨hburst, (sclk_any_controller longBurst).2.2.1 0 100 hburst hend⟩

end SpiSclkGenerator

end ADS131A0X
