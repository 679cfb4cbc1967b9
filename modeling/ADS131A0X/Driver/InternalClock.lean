import ADS131A0X.Clocks.Design
import ADS131A0X.Driver.Frame

/-!
# The internal clock against `SPI_SCLK`

`SPI_SCLK_internal_use`, the output `clock_4_167Mhz_debug`, is labelled with the frequency of
`SPI_SCLK`. A divider of limit `N` has the period `2 * (N + 1)` of the input clock, and not the
`2 * N` of the comment in `clock_synthesizer`: with the limits 3 and 6 a period of `SPI_SCLK` takes
16 ticks and one of the internal clock takes 14. The clocks drift apart by a tick in each of their
half-periods, and a period of `SPI_SCLK` in which the internal clock rises twice comes at the latest
after six others.

## Main definitions

* `Run.clock4167MhzDebug`: the internal clock along a run
* `Run.SclkPeriod`: two consecutive rising edges of `SPI_SCLK`

## Main results

* `ClockSynthesizer.changesAt_double`: twice the limit is not half the toggles
* `Run.length_internal_rises`: how often the internal clock rises in a period of `SPI_SCLK`
* `Run.internal_clock_drifts`: the internal clock keeps pace for no limits and in no frame
-/

namespace ADS131A0X

open Waveform

/-- The first toggle with the limit `2 * N` falls between two toggles with the limit `N`. -/
theorem ClockSynthesizer.changesAt_double {N : BitVec 32} (hN : N ≠ 0#32) :
    (clockPolWire (2#32 * N)).ChangesAt (2#32 * N).toNat ∧
      ¬ (clockPolWire N).ChangesAt (2#32 * N).toNat := by
  rw [clockPolWire_changesAt_iff, clockPolWire_changesAt_iff]
  refine ⟨Nat.mod_self _, ?_⟩
  have hpos : N.toNat ≠ 0 := fun h => hN (BitVec.eq_of_toNat_eq h)
  have hlt := N.isLt
  have hdouble : (2#32 * N).toNat = 2 * N.toNat % 2 ^ 32 := BitVec.toNat_mul 2#32 N
  by_cases hfit : 2 * N.toNat < 2 ^ 32
  -- one toggle with the limit `N` has passed, and the second is a tick away
  · rw [hdouble, Nat.mod_eq_of_lt hfit, show 2 * N.toNat + 1 = N.toNat + (N.toNat + 1) by omega,
      Nat.add_mod_right, Nat.mod_eq_of_lt (Nat.lt_succ_self _)]
    exact hpos
  -- the doubled limit is cut to 32 bits, below `N`
  · have hcut : 2 * N.toNat % 2 ^ 32 = 2 * N.toNat - 2 ^ 32 := by omega
    rw [hdouble, hcut, Nat.mod_eq_of_lt (by omega)]
    omega

namespace Run

variable {ρ : Run} {i j : ℕ}

/-- The output `clock_4_167Mhz_debug` along the run. -/
def clock4167MhzDebug (ρ : Run) : Signal := fun n => (ρ.top n).spiMasterUut.clock4167MhzDebug

/-- The internal clock is the level of a divider of period 7 after the ticks so far. -/
theorem clock4167MhzDebug_eq (ρ : Run) (n : ℕ) :
    ρ.clock4167MhzDebug n = Divider.dividerLevel 7 (ρ.ticks n) := by
  have h := (ρ.dividers_eq n).2.2
  change (ρ.top n).spiMasterUut.spiSclkGeneratorUut.clockSynthesizerUut1.clockPol = _
  rw [h, ClockSynthesizer.fromPowerUp_eq_afterTicks]
  rfl

/-- Two consecutive rising edges of `SPI_SCLK`. -/
structure SclkPeriod (ρ : Run) (r r' : ℕ) : Prop where
  rises : ρ.spiSclk.RisesAt r
  next : ρ.spiSclk.RisesAt r'
  lt : r < r'
  between : ∀ n, r < n → n < r' → ¬ ρ.spiSclk.RisesAt n

/-- In the 16 ticks from a rising edge of `SPI_SCLK` the internal clock rises once or twice. -/
theorem length_internal_rises {r r' : ℕ} (hr : ρ.spiSclk.RisesAt r) (hle : r ≤ r')
    (hticks : ρ.ticks r' = ρ.ticks r + 16) :
    (stepsIn ρ.clock4167MhzDebug.RisesAt r r').length =
      if ρ.ticks r % 14 = 5 then 2 else 1 := by
  have hodd := ρ.ticks_of_slowEdgeAt r (slowEdgeAt_of_rises hr)
  have hlen := length_stepsIn (p := ρ.clock4167MhzDebug.RisesAt) hle
  rw [count_rises_of_divided (by decide) ρ.clock4167MhzDebug_eq,
    count_rises_of_divided (by decide) ρ.clock4167MhzDebug_eq, hticks] at hlen
  have hdiv := Nat.div_add_mod (ρ.ticks r) 14
  have hmod := Nat.mod_lt (ρ.ticks r) (show 14 > 0 by decide)
  generalize ρ.ticks r / 14 = q at hdiv
  split
  · omega
  -- one rising edge in 16 ticks, in the first or in the second half of 14
  · rcases Nat.lt_or_ge (ρ.ticks r % 14) 5 with hlow | hhigh
    · omega
    · omega

/-- The rising edges of a frame are the given ticks, one for each bit. -/
theorem mem_rises_iff_ticks (h : ρ.spiCs.LowPulse i j) (hr : ρ.ResetHigh (i + 1) j) (t : ℕ) :
    (∃ r ∈ stepsIn ρ.spiSclk.RisesAt i (j + 1), ρ.ticks r = t) ↔
      ∃ k < 32, ρ.ticks i + 8 * (2 * k + 1) = t := by
  have hmap := congrArg (t ∈ ·) (map_ticks_rises h hr)
  simpa only [List.mem_map, List.mem_range] using Iff.of_eq hmap

/-- Rising edges of a frame that are 16 ticks apart are consecutive. -/
theorem sclkPeriod_of_ticks (h : ρ.spiCs.LowPulse i j) (hr : ρ.ResetHigh (i + 1) j) {r r' : ℕ}
    (hr₁ : r ∈ stepsIn ρ.spiSclk.RisesAt i (j + 1))
    (hr₂ : r' ∈ stepsIn ρ.spiSclk.RisesAt i (j + 1)) (hticks : ρ.ticks r' = ρ.ticks r + 16) :
    ρ.SclkPeriod r r' := by
  obtain ⟨⟨hir, -⟩, hrise⟩ := mem_stepsIn.mp hr₁
  obtain ⟨⟨-, hrj⟩, hnext⟩ := mem_stepsIn.mp hr₂
  refine ⟨hrise, hnext, ?_, ?_⟩
  · by_contra hge
    have hle : ρ.ticks r' ≤ ρ.ticks r := Nat.count_monotone _ (not_lt.mp hge)
    omega
  -- a rising edge in between would be 8 ticks from both
  · intro n hrn hnr hn
    have hmem : n ∈ stepsIn ρ.spiSclk.RisesAt i (j + 1) :=
      mem_stepsIn.mpr ⟨⟨by omega, by omega⟩, hn⟩
    obtain ⟨k, -, hk⟩ := (mem_rises_iff_ticks h hr _).mp ⟨r, hr₁, rfl⟩
    obtain ⟨l, -, hl⟩ := (mem_rises_iff_ticks h hr _).mp ⟨n, hmem, rfl⟩
    have hafter :=
      ticks_add_le_of_slowEdgeAt (slowEdgeAt_of_rises hrise) (slowEdgeAt_of_rises hn) hrn
    have hbefore :=
      ticks_add_le_of_slowEdgeAt (slowEdgeAt_of_rises hn) (slowEdgeAt_of_rises hnext) hnr
    omega

/-- One of the first seven periods of a frame starts at a tick that is 5 modulo 14. -/
theorem exists_period (h : ρ.spiCs.LowPulse i j) (hr : ρ.ResetHigh (i + 1) j) :
    ∃ r r', i ≤ r ∧ r' ≤ j ∧ ρ.SclkPeriod r r' ∧ ρ.ticks r' = ρ.ticks r + 16 ∧
      ρ.ticks r % 14 = 5 := by
  have hti := ρ.ticks_of_slowEdgeAt i (regs_of_spiCs_falls h.falls).1
  -- the ticks of the rising edges are odd, and advance by two modulo 14
  obtain ⟨k, hk, hphase⟩ : ∃ k < 7, (ρ.ticks i + 8 * (2 * k + 1)) % 14 = 5 := by
    have hodd : ρ.ticks i % 2 = 1 := by omega
    generalize ρ.ticks i = t at hodd
    -- the solution of `t + 8 + 2 * k = 5` modulo 14
    refine ⟨(25 - t % 14) / 2 % 7, Nat.mod_lt _ (by decide), ?_⟩
    omega
  obtain ⟨r, hmem, htr⟩ := (mem_rises_iff_ticks h hr _).mpr ⟨k, by omega, rfl⟩
  obtain ⟨r', hmem', htr'⟩ := (mem_rises_iff_ticks h hr _).mpr ⟨k + 1, by omega, rfl⟩
  have hticks : ρ.ticks r' = ρ.ticks r + 16 := by omega
  obtain ⟨⟨hir, -⟩, -⟩ := mem_stepsIn.mp hmem
  obtain ⟨⟨-, hrj⟩, -⟩ := mem_stepsIn.mp hmem'
  exact ⟨r, r', hir, by omega, sclkPeriod_of_ticks h hr hmem hmem' hticks, hticks, by omega⟩

/-- **The internal clock drifts.** For no limit but 0 does a divider of twice the limit toggle at
every second toggle of the divider. In every complete frame of every run `SPI_SCLK` has 32 periods
of 16 ticks; the internal clock rises twice in a period that starts at a tick that is 5 modulo 14
and once in every other one, and each frame has a period in which it rises twice. -/
theorem internal_clock_drifts {N : BitVec 32} (hN : N ≠ 0#32) (h : ρ.spiCs.LowPulse i j)
    (hr : ρ.ResetHigh (i + 1) j) :
    (∀ parity, ¬ ∀ t, (ClockSynthesizer.clockPolWire (2#32 * N)).ChangesAt t ↔
        (ClockSynthesizer.clockPolWire N).ChangesAt t ∧
          Nat.count (ClockSynthesizer.clockPolWire N).ChangesAt t % 2 = parity) ∧
      (stepsIn ρ.spiSclk.RisesAt i (j + 1)).map ρ.ticks =
        (List.range 32).map (fun k => ρ.ticks i + 8 * (2 * k + 1)) ∧
      (∀ r ∈ stepsIn ρ.spiSclk.RisesAt i (j + 1), ∀ r', r ≤ r' → ρ.ticks r' = ρ.ticks r + 16 →
        (stepsIn ρ.clock4167MhzDebug.RisesAt r r').length =
          if ρ.ticks r % 14 = 5 then 2 else 1) ∧
      ∃ r r', i ≤ r ∧ r' ≤ j ∧ ρ.SclkPeriod r r' ∧
        (stepsIn ρ.clock4167MhzDebug.RisesAt r r').length = 2 := by
  refine ⟨?_, map_ticks_rises h hr, ?_, ?_⟩
  · intro parity hevery
    obtain ⟨hdouble, hsingle⟩ := ClockSynthesizer.changesAt_double hN
    exact hsingle ((hevery _).mp hdouble).1
  · intro r hmem r' hle hticks
    exact length_internal_rises (mem_stepsIn.mp hmem).2 hle hticks
  · obtain ⟨r, r', hir, hrj, hperiod, hticks, hphase⟩ := exists_period h hr
    have hlen := length_internal_rises hperiod.rises hperiod.lt.le hticks
    rw [if_pos hphase] at hlen
    exact ⟨r, r', hir, hrj, hperiod, hlen⟩

/-- The limits 3 and 6, and the first frame of the free run. -/
theorem internal_clock_drifts_freeRun :
    (∀ parity, ¬ ∀ t, (ClockSynthesizer.clockPolWire (2#32 * 3#32)).ChangesAt t ↔
        (ClockSynthesizer.clockPolWire 3#32).ChangesAt t ∧
          Nat.count (ClockSynthesizer.clockPolWire 3#32).ChangesAt t % 2 = parity) ∧
      ∃ r r', 203 ≤ r ∧ r' ≤ 731 ∧ (freeRun false).SclkPeriod r r' ∧
        (stepsIn (freeRun false).clock4167MhzDebug.RisesAt r r').length = 2 := by
  obtain ⟨hdividers, -, -, hperiod⟩ := internal_clock_drifts (N := 3#32) (by decide)
    (freeRun_lowPulse false) (freeRun_resetHigh false _ _)
  exact ⟨hdividers, hperiod⟩

/-- With the limit 6 the divider toggles at step 6, between the first two toggles with the limit 3,
and the third period of the first frame of the free run has two rising edges of the internal
clock. -/
theorem internal_clock_two_rises :
    (¬ ∃ parity, ∀ t, (ClockSynthesizer.clockPolWire 6#32).ChangesAt t ↔
      (ClockSynthesizer.clockPolWire 3#32).ChangesAt t ∧
        Nat.count (ClockSynthesizer.clockPolWire 3#32).ChangesAt t % 2 = parity) ∧
    (freeRun false).spiCs.LowPulse 203 731 ∧ (freeRun false).ResetHigh 204 731 ∧
      (freeRun false).SclkPeriod 243 259 ∧
      (stepsIn (freeRun false).clock4167MhzDebug.RisesAt 243 259).length = 2 := by
  have hp := freeRun_lowPulse false
  have hr := freeRun_resetHigh false 204 731
  have hrise : ∀ k < 32, 203 + 8 * (2 * k + 1) ∈
      stepsIn (freeRun false).spiSclk.RisesAt 203 732 := by
    intro k hk
    obtain ⟨r, hmem, ht⟩ := (mem_rises_iff_ticks hp hr _).mpr ⟨k, hk, rfl⟩
    rw [freeRun_ticks, freeRun_ticks] at ht
    rwa [ht] at hmem
  have hticks : (freeRun false).ticks 259 = (freeRun false).ticks 243 + 16 := by
    rw [freeRun_ticks, freeRun_ticks]
  have hperiod := sclkPeriod_of_ticks hp hr (hrise 2 (by decide)) (hrise 3 (by decide)) hticks
  refine ⟨?_, hp, hr, hperiod, ?_⟩
  · rintro ⟨parity, h⟩
    obtain ⟨hdouble, hsingle⟩ := ClockSynthesizer.changesAt_double (N := 3#32) (by decide)
    exact hsingle ((h _).mp hdouble).1
  · rw [length_internal_rises hperiod.rises (by decide) hticks, freeRun_ticks]
    rfl

end Run

end ADS131A0X
