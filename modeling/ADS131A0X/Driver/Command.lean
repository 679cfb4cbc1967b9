import ADS131A0X.Driver.Frame

/-!
# The command on `SPI_MOSI`

The ADC samples `SPI_MOSI` at the falling edges of `SPI_SCLK`. Along a frame the latch holds the
level of the schedule, which is the command word bit by bit; a frame that a reset cuts short sends
the first bits of it. The latch moves at the other edges only: a level is on the wire for one slow
period before it is sampled and one after. The word exists a second time in the source, as message
registers, and there it is another one.

## Main results

* `Run.map_spiMosi_falls`: what the ADC samples in a frame are bits of the schedule
* `Run.spiMosi_changes`: when the latch moves
* `Run.command_word`: the ADC samples the command word, or its first bits, and samples it safely
* `Run.mosi_word_not_declared`: the command word is none of the declared messages
-/

namespace ADS131A0X

open Waveform SingleClock

/-- A bit of the command word is on the wire for two counts, the first of them odd. -/
theorem mosiLevel_succ_of_odd {c : ℕ} (h : c % 2 = 1) : mosiLevel (c + 1) = mosiLevel c := by
  have hc : (c == 0) = false := beq_eq_false_iff_ne.mpr (by omega)
  have hdiv : (c + 1 - 1) / 2 = (c - 1) / 2 := by omega
  rw [mosiLevel, mosiLevel, hdiv, hc]
  rfl

/-- The levels at the falling edges of the schedule are the command word. -/
theorem map_frameMosi_falls :
    (stepsIn frameSclk.FallsAt 0 65).map frameMosi = msbFirst commandWord := by
  rw [stepsIn_frameSclk_falls, List.map_map, msbFirst]
  apply List.map_congr_left
  intro k hk
  have hk : k < 32 := List.mem_range.mp hk
  have hmin : min (2 * k + 1) 64 = 2 * k + 1 := by omega
  simp [frameMosi, mosiLevel, hmin]

namespace Run

variable {ρ : Run} {i j n : ℕ}

/-- The falling edges of `SPI_SCLK` in a window of `SPI_CS`, the one that ends the window included,
are the first falling edges of the schedule. -/
theorem prefix_map_position_falls (h : ρ.spiCs.LowSince i n) :
    (stepsIn ρ.spiSclk.FallsAt i (n + 1)).map (ρ.position i) <+: stepsIn frameSclk.FallsAt 0 65 := by
  have hin := h.lt
  have hle : ρ.position i n ≤ 65 := (inFrame h).1
  have hi : ¬ ρ.spiSclk.FallsAt i := by
    rintro ⟨hk, -⟩
    simp [(spiSclk_first h.falls).1] at hk
  rw [stepsIn_of_not_first (by omega) hi]
  by_cases hn : ρ.spiSclk.FallsAt n
  -- only a count below 64 has `SPI_SCLK` high, and from there the schedule falls as well
  · have hs : frameSclk (ρ.position i n) = true := (spiSclk_eq_frameSclk h).symm.trans hn.1
    have hodd : min (ρ.position i n) 64 % 2 = 1 := decide_eq_true_iff.mp hs
    have hlt : ρ.position i n < 64 := by omega
    have hf : frameSclk.FallsAt (ρ.position i n) :=
      ⟨hs, decide_eq_false (by omega)⟩
    rw [stepsIn_succ hin, if_pos hn, List.map_append, map_position_falls h, List.map_singleton]
    have happ : stepsIn frameSclk.FallsAt 0 (ρ.position i n) ++ [ρ.position i n] =
        stepsIn frameSclk.FallsAt 0 (ρ.position i n + 1) := by
      rw [stepsIn_succ (Nat.zero_le _), if_pos hf]
    rw [happ]
    exact prefix_stepsIn (Nat.zero_le _) (by omega)
  · rw [stepsIn_succ_of_not hin hn, map_position_falls h]
    exact prefix_stepsIn (Nat.zero_le _) hle

/-- What the ADC samples in a window of `SPI_CS` are the levels of the schedule. -/
theorem map_spiMosi_falls (h : ρ.spiCs.LowSince i n) :
    (stepsIn ρ.spiSclk.FallsAt i (n + 1)).map ρ.spiMosi =
      ((stepsIn ρ.spiSclk.FallsAt i (n + 1)).map (ρ.position i)).map frameMosi := by
  rw [List.map_map]
  apply List.map_congr_left
  intro k hk
  obtain ⟨⟨hik, hkn⟩, hf⟩ := mem_stepsIn.mp hk
  have hne : k ≠ i := by
    rintro rfl
    obtain ⟨hhigh, -⟩ := hf
    simp [(spiSclk_first h.falls).1] at hhigh
  exact spiMosi_eq_frameMosi (h.of_le (by omega) (by omega))

/-- The latch moves at a rising edge of `SPI_SCLK`, or at the fall of `SPI_CS`. -/
theorem spiMosi_changes (h : ρ.spiMosi.ChangesAt n) :
    ρ.SlowEdgeAt n ∧ (ρ.spiSclk.RisesAt n ∨ ρ.spiCs.FallsAt n) := by
  have hs : ρ.SlowEdgeAt n := by
    by_contra hn
    exact h (spiMosi_rest hn)
  refine ⟨hs, ?_⟩
  have hregs := regs_of_slowEdgeAt hs
  have hv := ρ.regs_valid n
  rw [Signal.ChangesAt, spiMosi_eq, spiMosi_eq, hregs, slowEdge_spiMosi] at h
  -- the latch is transparent only when the edge enters `TRANSACTION_IN_PROGRESS` or stays in it
  by_cases hp : ((ρ.regs n).slowEdge (ρ.resetN n)).phase = .transactionInProgress
  · rw [if_pos hp] at h
    rw [slowEdge_phase_eq_iff _ _ (by simp), nextPhase_eq_transactionInProgress] at hp
    obtain ⟨-, hw | ⟨ht, h64⟩⟩ := hp
    · refine Or.inr ⟨?_, ?_⟩
      · rw [spiCs_eq]
        exact hv.spiCs_preparing (by simp [Phase.Preparing, hw])
      · rw [spiCs_eq, hregs, slowEdge_spiCs, if_pos (Or.inl hw)]
    · have hlt : (ρ.regs n).clockCycles < 64 := lt_of_le_of_ne hv.clockCycles_le h64
      have hsclk := hv.spiSclk_of_ne_reset (by simp [ht])
      have heven : (ρ.regs n).clockCycles % 2 = 0 := by
        by_contra hodd
        refine h ?_
        rw [slowEdge_clockCycles, if_pos ht, if_pos hlt, mosiLevel_succ_of_odd (by omega),
          hv.spiMosi (hv.spiCs_inProgress ht)]
      have hlow : (ρ.regs n).spiSclk = false := by
        rw [hsclk, heven]
        rfl
      refine Or.inl ⟨?_, ?_⟩
      · rw [spiSclk_eq, hlow]
      · rw [spiSclk_eq, hregs, slowEdge_spiSclk, if_pos ht, if_pos hlt, hlow]
        rfl
  · rw [if_neg hp] at h
    exact absurd rfl h

/-- A complete window carries the command word. -/
theorem mosi_word (h : ρ.spiCs.LowPulse i j) (hr : ρ.ResetHigh (i + 1) j) :
    (stepsIn ρ.spiSclk.FallsAt i (j + 1)).map ρ.spiMosi = msbFirst 0x06550000#32 := by
  rw [map_spiMosi_falls h.toLowSince, stepsIn_falls h hr, map_position_falls h.toLowSince,
    position_of_lowPulse h hr]
  exact map_frameMosi_falls

/-- **The command word.** In every window of `SPI_CS`, finished or not, the levels of `SPI_MOSI` at
the falling edges of `SPI_SCLK` are the first bits of the command word, and all of it when
`reset_n` stays high through the window. `SPI_MOSI` changes only at slow edges at which `SPI_SCLK`
rises, or at which `SPI_CS` falls and `SPI_SCLK` is low, and never when `SPI_SCLK` falls. -/
theorem command_word (ρ : Run) :
    (∀ i n, ρ.spiCs.LowSince i n →
      (stepsIn ρ.spiSclk.FallsAt i (n + 1)).map ρ.spiMosi <+: msbFirst 0x06550000#32) ∧
    (∀ i j, ρ.spiCs.LowPulse i j → ρ.ResetHigh (i + 1) j →
      (stepsIn ρ.spiSclk.FallsAt i (j + 1)).map ρ.spiMosi = msbFirst 0x06550000#32) ∧
    (∀ n, ρ.spiMosi.ChangesAt n →
      ρ.SlowEdgeAt n ∧ ¬ ρ.spiSclk.FallsAt n ∧
        (ρ.spiSclk.RisesAt n ∨
          ρ.spiCs.FallsAt n ∧ ρ.spiSclk n = false ∧ ρ.spiSclk (n + 1) = false)) := by
  refine ⟨?_, fun i j => mosi_word, ?_⟩
  · intro i n h
    have hword : msbFirst 0x06550000#32 = (stepsIn frameSclk.FallsAt 0 65).map frameMosi :=
      map_frameMosi_falls.symm
    rw [hword, map_spiMosi_falls h]
    exact (prefix_map_position_falls h).map frameMosi
  · intro n h
    obtain ⟨hs, hr | hf⟩ := spiMosi_changes h
    -- `SPI_SCLK` rises, so it does not fall
    · exact ⟨hs, hr.not_fallsAt, Or.inl hr⟩
    -- `SPI_CS` falls, and `SPI_SCLK` is low around that
    · obtain ⟨h0, h1⟩ := spiSclk_first hf
      refine ⟨hs, ?_, Or.inr ⟨hf, h0, h1⟩⟩
      rintro ⟨hk, -⟩
      simp [h0] at hk

/-- The first frame of the free run sends the word, `SPI_MOSI` being sampled 32 times. -/
theorem command_word_freeRun :
    (freeRun false).spiCs.LowPulse 203 731 ∧
      (stepsIn (freeRun false).spiSclk.FallsAt 203 732).map (freeRun false).spiMosi =
        msbFirst 0x06550000#32 :=
  ⟨freeRun_lowPulse false,
    (command_word (freeRun false)).2.1 203 731 (freeRun_lowPulse false)
      (freeRun_resetHigh false _ _)⟩

/-! ## The message registers -/

/-- None of the values that `SPI_Master` declares for its messages is the command word. -/
theorem ne_of_mem_messages {w : BitVec 32} (hw : w ∈ ρ.messages n) :
    msbFirst 0x06550000#32 ≠ msbFirst w := by
  rw [messages_eq] at hw
  simp only [List.mem_cons, List.not_mem_nil, or_false] at hw
  rcases hw with rfl | rfl | rfl <;> decide

/-- **The command word is none of the declared messages.** In every complete window of every run the
slave collects `0x06550000`; the message registers hold 0, `0x06550101` and 0 at every step. -/
theorem mosi_word_not_declared (h : ρ.spiCs.LowPulse i j) (hr : ρ.ResetHigh (i + 1) j) (n : ℕ) :
    (stepsIn ρ.spiSclk.FallsAt i (j + 1)).map ρ.spiMosi = msbFirst 0x06550000#32 ∧
      ρ.messages n = [0#32, 0x06550101#32, 0#32] ∧
      ∀ w ∈ ρ.messages n, (stepsIn ρ.spiSclk.FallsAt i (j + 1)).map ρ.spiMosi ≠ msbFirst w := by
  refine ⟨mosi_word h hr, ρ.messages_eq n, ?_⟩
  intro w hw
  rw [mosi_word h hr]
  exact ne_of_mem_messages hw

theorem mosi_word_not_declared_freeRun :
    (stepsIn (freeRun false).spiSclk.FallsAt 203 732).map (freeRun false).spiMosi =
        msbFirst 0x06550000#32 ∧
      (freeRun false).messages 0 = [0#32, 0x06550101#32, 0#32] ∧
      ∀ w ∈ (freeRun false).messages 0,
        (stepsIn (freeRun false).spiSclk.FallsAt 203 732).map (freeRun false).spiMosi ≠
          msbFirst w :=
  mosi_word_not_declared (freeRun_lowPulse false) (freeRun_resetHigh false _ _) 0

/-- The first frame of the free run sends no declared message. -/
theorem mosi_word_freeRun_undeclared :
    (freeRun false).spiCs.LowPulse 203 731 ∧ (freeRun false).ResetHigh 204 731 ∧
      ¬ ∃ n, ∃ w ∈ (freeRun false).messages n,
        (stepsIn (freeRun false).spiSclk.FallsAt 203 732).map (freeRun false).spiMosi =
          msbFirst w := by
  have hp := freeRun_lowPulse false
  have hr := freeRun_resetHigh false 204 731
  refine ⟨hp, hr, ?_⟩
  rintro ⟨n, w, hw, heq⟩
  exact ne_of_mem_messages hw ((mosi_word hp hr).symm.trans heq)

end Run

end ADS131A0X
