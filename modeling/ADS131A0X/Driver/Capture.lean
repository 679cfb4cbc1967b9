import ADS131A0X.Driver.Frame

/-!
# The capture of `SPI_MISO`

The top module writes the level of `SPI_MISO` at every falling edge of `SPI_SCLK` into the bit
`32 - spi_miso_data_cc` of `spi_miso_data`, which asks for a bit count that runs from 1 to 32. The
count is the register `spi_mosi_bit_count` of the SPI master. Nothing writes that register: it
holds its initial value 0, the bit select is 32, out of range, and the write is ignored.

## Main definitions

* `Top.counted`: the captured register, were the bit count to run
* `Top.Uncounted`: the bit count and the captured word have their initial values

## Main results

* `Top.msbFirst_counted`: the writes with a running bit count would collect the word
* `Top.Uncounted.step`: no event leaves these values
* `Run.spiMisoDataOutput_eq`: the captured word is 0 in every run
* `Run.miso_capture`: a frame is captured exactly when all its bits are low
-/

namespace ADS131A0X

open Transition Waveform

/-! ## The write -/

namespace Top

/-- A bit select in range writes that bit, and no other. -/
theorem getLsbD_writeBit {data index : BitVec 32} {level : Bool} {l : ℕ}
    (hindex : index.toNat < 32) (hl : l < 32) :
    (writeBit data index level).getLsbD l = if l = index.toNat then level else data.getLsbD l := by
  rw [writeBit, if_pos hindex]
  simp only [BitVec.getLsbD_or, BitVec.getLsbD_and, BitVec.getLsbD_not, BitVec.shiftLeft_eq',
    BitVec.getLsbD_shiftLeft, BitVec.getLsbD_setWidth, BitVec.getLsbD_one, BitVec.getLsbD_ofBool]
  rcases lt_trichotomy l index.toNat with h | h | h
  -- below the written bit the mask is set
  · simp [hl, h, h.ne]
  · simp [h, hindex]
  -- above it the shifted level is out of its width
  · have h0 : l - index.toNat ≠ 0 := by omega
    have h1 : ¬ l < index.toNat := by omega
    simp [hl, h.ne', h0, h1]

/-- A bit select of 32 is out of range. -/
theorem writeBit_of_le {data index : BitVec 32} (level : Bool) (h : 32 ≤ index.toNat) :
    writeBit data index level = data := if_neg (by omega)

/-- The register after `k` writes of the levels `level 0`, `level 1`, ..., with a bit count that
runs from 1. -/
def counted (level : ℕ → Bool) (data : BitVec 32) : ℕ → BitVec 32
  | 0 => data
  | k + 1 =>
    writeBit (counted level data k) (32#32 - (BitVec.ofNat 8 (k + 1)).setWidth 32) (level k)

/-- **With a bit count from 1 to 32 the writes would collect the word**, the first bit the most
significant. -/
theorem msbFirst_counted (level : ℕ → Bool) (data : BitVec 32) :
    msbFirst (counted level data 32) = (List.range 32).map level := by
  suffices h : ∀ k ≤ 32, ∀ l < k, (counted level data k).getLsbD (31 - l) = level l by
    apply List.map_congr_left
    intro l hl
    have hl := List.mem_range.mp hl
    simp only [BitVec.getMsbD_eq_getLsbD, hl, decide_true, Bool.true_and]
    exact h 32 le_rfl l hl
  intro k hk
  induction k with
  | zero => exact fun l hl => absurd hl (by omega)
  | succ k ih =>
    intro l hl
    have hindex : (32#32 - (BitVec.ofNat 8 (k + 1)).setWidth 32).toNat = 31 - k := by
      simp only [BitVec.toNat_sub, BitVec.toNat_setWidth, BitVec.toNat_ofNat]
      omega
    rw [counted, getLsbD_writeBit (by omega) (by omega), hindex]
    -- the last write is to the bit of `k`; the earlier bits are not written again
    by_cases hlk : l = k
    · rw [if_pos (by omega), hlk]
    · rw [if_neg (by omega)]
      exact ih (by omega) l (by omega)

end Top

/-! ## The bit count -/

namespace Top

/-- The bit count and the captured word have their initial values. -/
structure Uncounted (t : Top) : Prop where
  spiMosiBitCount : t.spiMasterUut.spiMosiBitCount = 0#8
  spiMisoData : t.spiMisoData = 0#32

theorem Uncounted.clock {t : Top} (h : t.Uncounted) : t.clock.Uncounted where
  spiMosiBitCount := by
    have hkept := SpiMaster.posedgeSystemClock_constants t.resetN t.spiMasterUut
    exact (congrArg SpiMaster.Constants.spiMosiBitCount hkept).trans h.spiMosiBitCount
  spiMisoData := h.spiMisoData

/-- A falling edge of `SPI_SCLK` writes nothing. -/
theorem Uncounted.negedgeSpiSclk {t : Top} (h : t.Uncounted) :
    t.negedgeSpiSclk t.spiMasterUut.spiMisoDataCcOutput = t := by
  have hcc : t.spiMasterUut.spiMisoDataCcOutput = 0#8 := h.spiMosiBitCount
  rw [Top.negedgeSpiSclk, hcc, writeBit_of_le _ (by decide)]

theorem Uncounted.step {t : Top} (h : t.Uncounted) (e : Event) : (t.step e).Uncounted := by
  cases e with
  | systemClock =>
    simp only [Top.step, Top.posedgeSystemClock]
    split
    -- `SPI_SCLK` falls: the capture block runs, on a bit select of 32
    · rw [h.clock.negedgeSpiSclk]
      exact h.clock
    · exact h.clock
  | resetN level =>
    have hkept := t.step_constants (.resetN level)
    refine ⟨?_, h.spiMisoData⟩
    exact (congrArg SpiMaster.Constants.spiMosiBitCount hkept).trans h.spiMosiBitCount
  | spiMiso level => exact ⟨h.spiMosiBitCount, h.spiMisoData⟩

theorem posedgeSystemClock_spiMiso (t : Top) : t.posedgeSystemClock.spiMiso = t.spiMiso := by
  unfold posedgeSystemClock
  split <;> rfl

end Top

namespace Run

variable {ρ : Run} {i j : ℕ}

theorem uncounted (ρ : Run) (n : ℕ) : (ρ.top n).Uncounted :=
  Machine.run_invariant ⟨rfl, rfl⟩ (fun _ e h => h.step e) _ n

/-- **The captured word is 0**, whatever the ADC sends. -/
theorem spiMisoDataOutput_eq (ρ : Run) (n : ℕ) : ρ.spiMisoDataOutput n = 0#32 :=
  (ρ.uncounted n).spiMisoData

/-- A frame without reset has 32 falling edges. -/
theorem length_falls (h : ρ.spiCs.LowPulse i j) (hr : ρ.ResetHigh (i + 1) j) :
    (stepsIn ρ.spiSclk.FallsAt i (j + 1)).length = 32 := by
  rw [stepsIn_falls h hr, ← List.length_map (ρ.position i), map_position_falls h.toLowSince,
    position_of_lowPulse h hr, SingleClock.stepsIn_frameSclk_falls, List.length_map,
    List.length_range]

/-- **Capture.** For every complete frame of every run, the levels of `SPI_MISO` at the falling edges
of `SPI_SCLK` are 32 bits, and `spi_miso_data_output` is the word of these bits, the first bit the
most significant, if and only if all of them are low. -/
theorem miso_capture (h : ρ.spiCs.LowPulse i j) (hr : ρ.ResetHigh (i + 1) j) :
    ((stepsIn ρ.spiSclk.FallsAt i (j + 1)).map ρ.spiMiso).length = 32 ∧
      (msbFirst (ρ.spiMisoDataOutput (j + 1)) =
          (stepsIn ρ.spiSclk.FallsAt i (j + 1)).map ρ.spiMiso ↔
        ∀ k ∈ stepsIn ρ.spiSclk.FallsAt i (j + 1), ρ.spiMiso k = false) := by
  have hlen := length_falls h hr
  have hzero : msbFirst (ρ.spiMisoDataOutput (j + 1)) = List.replicate 32 false := by
    rw [spiMisoDataOutput_eq]
    rfl
  refine ⟨by rw [List.length_map, hlen], ?_⟩
  rw [hzero, eq_comm, List.eq_replicate_iff, List.length_map, hlen]
  simp only [true_and, List.mem_map, forall_exists_index, and_imp, forall_apply_eq_imp_iff₂]

section FreeRun

variable (b : Bool) (n : ℕ)

theorem freeRun_spiMiso : (freeRun b).spiMiso n = b := by
  induction n with
  | zero => rfl
  | succ n ih =>
    show ((freeRun b).top (n + 1)).spiMiso = b
    rw [top_succ]
    exact (Top.posedgeSystemClock_spiMiso _).trans ih

theorem miso_capture_freeRun :
    ((stepsIn (freeRun false).spiSclk.FallsAt 203 732).map (freeRun false).spiMiso).length = 32 ∧
      (msbFirst ((freeRun false).spiMisoDataOutput 732) =
          (stepsIn (freeRun false).spiSclk.FallsAt 203 732).map (freeRun false).spiMiso ↔
        ∀ k ∈ stepsIn (freeRun false).spiSclk.FallsAt 203 732, (freeRun false).spiMiso k = false) :=
  miso_capture (freeRun_lowPulse false) (freeRun_resetHigh false _ _)

/-- With `SPI_MISO` high, the first frame of the free run loses the word `0xFFFFFFFF`. -/
theorem miso_capture_lost :
    (freeRun true).spiCs.LowPulse 203 731 ∧ (freeRun true).ResetHigh 204 731 ∧
      (stepsIn (freeRun true).spiSclk.FallsAt 203 732).map (freeRun true).spiMiso =
        msbFirst 0xFFFFFFFF#32 ∧
      (freeRun true).spiMisoDataOutput 732 = 0#32 ∧
      msbFirst ((freeRun true).spiMisoDataOutput 732) ≠
        (stepsIn (freeRun true).spiSclk.FallsAt 203 732).map (freeRun true).spiMiso := by
  have hp := freeRun_lowPulse true
  have hr := freeRun_resetHigh true 204 731
  have hsent : (stepsIn (freeRun true).spiSclk.FallsAt 203 732).map (freeRun true).spiMiso =
      msbFirst 0xFFFFFFFF#32 := by
    have hones : msbFirst 0xFFFFFFFF#32 = List.replicate 32 true := by decide
    rw [hones, List.eq_replicate_iff]
    refine ⟨by rw [List.length_map, length_falls hp hr], ?_⟩
    intro x hx
    obtain ⟨k, -, rfl⟩ := List.mem_map.mp hx
    exact freeRun_spiMiso true k
  refine ⟨hp, hr, hsent, spiMisoDataOutput_eq _ _, ?_⟩
  rw [hsent, spiMisoDataOutput_eq]
  decide

end FreeRun

end Run

end ADS131A0X
