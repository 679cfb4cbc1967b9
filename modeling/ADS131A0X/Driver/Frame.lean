import ADS131A0X.Driver.FreeRun

/-!
# The shape of a frame

A frame is a stretch in which `SPI_CS` is low. Whatever `reset_n` does, along a frame the machine
follows the schedule, until the schedule or a reset ends it; so the levels of `SPI_SCLK` and
`SPI_MOSI` are those of the schedule at the position of the step, the number of slow edges since
`SPI_CS` fell. Edges are counted and timed on the schedule and carried over.

## Main definitions

* `SingleClock.InFrame s p`: `s` is at position `p` of a frame, or was cleared there
* `Run.position i n`: the slow edges since step `i`, at which `SPI_CS` fell

## Main results

* `Run.inFrame`: along a frame the registers follow the schedule
* `Run.spiSclk_stretches`: so does `SPI_SCLK`, and its edges are those of the schedule
* `Run.frame_shape`: the duration of a frame, and the number and the times of its clock edges
-/

namespace ADS131A0X

open Waveform SingleClock

namespace SingleClock

/-- The machine is at position `p` of a frame, or its state was cleared there. -/
def InFrame (s : SingleClock) (p : ℕ) : Prop :=
  p ≤ 65 ∧ ∃ d, d ≤ 250000 ∧ (s = frameAt d p ∨ s = (frameAt d p).clear)

namespace InFrame

variable {s : SingleClock} {p : ℕ}

theorem spiSclk (h : s.InFrame p) : s.spiSclk = frameSclk p := by
  obtain ⟨-, d, -, rfl | rfl⟩ := h
  · exact frameAt_spiSclk d p
  · exact frameAt_spiSclk d p

theorem spiMosi (h : s.InFrame p) : s.spiMosi = frameMosi p := by
  obtain ⟨-, d, -, rfl | rfl⟩ := h
  · exact frameAt_spiMosi d p
  · exact frameAt_spiMosi d p

theorem clear (h : s.InFrame p) : s.clear.InFrame p := by
  obtain ⟨hp, d, hd, rfl | rfl⟩ := h
  · exact ⟨hp, d, hd, Or.inr rfl⟩
  · exact ⟨hp, d, hd, Or.inr rfl⟩

/-- In a frame the state is `TRANSACTION_IN_PROGRESS`, up to its last slow edge, or was cleared. -/
theorem phase (h : s.InFrame p) :
    s.phase = .reset ∨ p < 65 ∧ s.phase = .transactionInProgress ∨
      p = 65 ∧ s.phase = .transactionEnd := by
  obtain ⟨hp, d, -, rfl | rfl⟩ := h
  · by_cases h64 : p ≤ 64
    · rw [frameAt_of_le h64]
      exact Or.inr (Or.inl ⟨by omega, rfl⟩)
    · obtain rfl : p = 65 := by omega
      exact Or.inr (Or.inr ⟨rfl, rfl⟩)
  · exact Or.inl rfl

/-- A slow edge that leaves `SPI_CS` low advances the schedule. -/
theorem slowEdge (h : s.InFrame p) {r : Bool} (hr : r = false → s.phase = .reset)
    (hcs : (s.slowEdge r).spiCs = false) : (s.slowEdge r).InFrame (p + 1) := by
  have hp : p < 65 ∧ s.phase = .transactionInProgress := by
    rcases h.phase with hp | hp | ⟨-, hp⟩
    · simp [hp] at hcs
    · exact hp
    · simp [hp] at hcs
  have hr' : r = true := by
    cases r
    · exact absurd (hr rfl) (by simp [hp.2])
    · rfl
  obtain ⟨-, d, hd, rfl | rfl⟩ := h
  · rw [hr', slowEdge_frameAt hd (by omega)]
    exact ⟨by omega, d, hd, Or.inl rfl⟩
  · exact absurd hp.2 (by simp [SingleClock.clear])

end InFrame

end SingleClock

namespace Run

variable {ρ : Run} {i n : ℕ}

/-! ## Along a frame -/

/-- `SPI_CS` falls at a slow edge from `WAIT_CS`, and the schedule starts with the delay counter as
it is. -/
theorem regs_succ_of_spiCs_falls (h : ρ.spiCs.FallsAt i) :
    ρ.SlowEdgeAt i ∧ (ρ.regs i).phase = .waitCs ∧
      ρ.regs (i + 1) = frameAt (ρ.regs i).delayCounter 0 := by
  have hs : ρ.SlowEdgeAt i := slowEdgeAt_of_changesAt (Or.inl (Signal.changesAt_iff.mpr (Or.inr h)))
  have hregs := regs_of_slowEdgeAt hs
  obtain ⟨h0, h1⟩ := h
  rw [spiCs_eq] at h0 h1
  have hv := ρ.regs_valid i
  have hp : (ρ.regs i).phase = .waitCs := by
    rw [hregs] at h1
    exact hv.phase_of_spiCs_falls h0 h1
  have hr : ρ.resetN i = true := ρ.resetN_of_phase_ne_reset i (by simp [hp])
  refine ⟨hs, hp, ?_⟩
  have hadc := hv.adcResetCount_released (Or.inr (Or.inl hp))
  have hreset := hv.spiReset_released (Or.inr (Or.inl hp)) (by simp [hp])
  rw [hregs, hr, frameAt_of_le (by omega)]
  ext <;> simp [slowEdge_spiMosi, nextPhase, hp, hadc, hreset]

/-- A slow edge in `WAIT_CS` pulls `SPI_CS` low. -/
theorem spiCs_succ_of_waitCs (hs : ρ.SlowEdgeAt n) (hp : (ρ.regs n).phase = .waitCs) :
    ρ.spiCs (n + 1) = false := by
  rw [spiCs_eq, regs_of_slowEdgeAt hs, slowEdge_spiCs, if_pos (Or.inl hp)]

theorem regs_of_spiCs_falls (h : ρ.spiCs.FallsAt i) :
    ρ.SlowEdgeAt i ∧ (ρ.regs i).phase = .waitCs ∧
      ∃ d, d ≤ 250000 ∧ ρ.regs (i + 1) = frameAt d 0 := by
  obtain ⟨hs, hp, hregs⟩ := regs_succ_of_spiCs_falls h
  exact ⟨hs, hp, _, (ρ.regs_valid i).delayCounter_le, hregs⟩

/-- The number of slow edges since step `i`, that step itself not counted. -/
def position (ρ : Run) (i n : ℕ) : ℕ := ρ.slowEdges n - ρ.slowEdges (i + 1)

@[simp] theorem position_first : ρ.position i (i + 1) = 0 := Nat.sub_self _

theorem position_succ_of_slowEdgeAt (hin : i < n) (h : ρ.SlowEdgeAt n) :
    ρ.position i (n + 1) = ρ.position i n + 1 := by
  have hle : ρ.slowEdges (i + 1) ≤ ρ.slowEdges n := ρ.slowEdges_monotone hin
  rw [position, position, slowEdges_succ_of_slowEdgeAt _ _ h]
  omega

theorem position_succ_of_not (h : ¬ ρ.SlowEdgeAt n) :
    ρ.position i (n + 1) = ρ.position i n := by
  rw [position, position, slowEdges_succ_of_not _ _ h]

/-- **Along a frame the registers follow the schedule.** -/
theorem inFrame (h : ρ.spiCs.LowSince i n) : (ρ.regs n).InFrame (ρ.position i n) := by
  refine h.induction (P := fun n => (ρ.regs n).InFrame (ρ.position i n)) ?_ ?_
  · obtain ⟨-, -, d, hd, hregs⟩ := regs_of_spiCs_falls h.falls
    rw [position_first]
    exact ⟨by omega, d, hd, Or.inl hregs⟩
  · intro k hk hlow ih
    rcases ρ.regs_succ k with ⟨hs, -, hregs⟩ | ⟨hs, -, hregs⟩ | ⟨hs, -, hregs⟩
    -- a slow edge: the schedule advances, as `SPI_CS` stays low
    · rw [position_succ_of_slowEdgeAt hk.lt hs, hregs]
      refine ih.slowEdge (ρ.phase_of_resetN_low k) ?_
      rw [← hregs, ← spiCs_eq]
      exact hlow
    -- a falling edge of `reset_n`: the state is cleared in place
    · rw [position_succ_of_not hs, hregs]
      exact ih.clear
    -- nothing moves
    · rw [position_succ_of_not hs, hregs]
      exact ih

theorem spiSclk_eq_frameSclk (h : ρ.spiCs.LowSince i n) :
    ρ.spiSclk n = frameSclk (ρ.position i n) := (ρ.spiSclk_eq n).trans (inFrame h).spiSclk

theorem spiMosi_eq_frameMosi (h : ρ.spiCs.LowSince i n) :
    ρ.spiMosi n = frameMosi (ρ.position i n) := (ρ.spiMosi_eq n).trans (inFrame h).spiMosi

/-- **Along a frame `SPI_SCLK` is that of the schedule**, one position for each slow edge. -/
theorem spiSclk_stretches (h : ρ.spiCs.LowSince i n) :
    ρ.spiSclk.Stretches frameSclk (ρ.position i) (i + 1) n := by
  intro k hik hkn
  have hk := h.of_le (show i < k + 1 by omega) hkn
  by_cases hs : ρ.SlowEdgeAt k
  · have hpos := position_succ_of_slowEdgeAt hik hs
    refine Or.inr ⟨hpos, spiSclk_eq_frameSclk (h.of_le hik hkn.le), ?_⟩
    rw [spiSclk_eq_frameSclk hk, hpos]
  · exact Or.inl ⟨position_succ_of_not hs, spiSclk_rest hs⟩

theorem map_position_rises (h : ρ.spiCs.LowSince i n) :
    (stepsIn ρ.spiSclk.RisesAt (i + 1) n).map (ρ.position i) =
      stepsIn frameSclk.RisesAt 0 (ρ.position i n) := by
  rw [(spiSclk_stretches h).map_rises h.lt, position_first]

theorem map_position_falls (h : ρ.spiCs.LowSince i n) :
    (stepsIn ρ.spiSclk.FallsAt (i + 1) n).map (ρ.position i) =
      stepsIn frameSclk.FallsAt 0 (ρ.position i n) := by
  rw [(spiSclk_stretches h).map_falls h.lt, position_first]

/-! ## The ends of a frame -/

/-- `SPI_SCLK` is low around the fall of `SPI_CS`. -/
theorem spiSclk_first (h : ρ.spiCs.FallsAt i) :
    ρ.spiSclk i = false ∧ ρ.spiSclk (i + 1) = false := by
  obtain ⟨-, hp, d, -, hregs⟩ := regs_of_spiCs_falls h
  have hcs : (ρ.regs i).spiCs = true := (ρ.spiCs_eq i).symm.trans h.1
  have hv := ρ.regs_valid i
  constructor
  · rw [spiSclk_eq, hv.spiSclk_of_ne_reset (by simp [hp]), hv.clockCycles_high hcs]
    rfl
  · rw [spiSclk_eq, hregs]
    rfl

/-- `SPI_CS` rises at a slow edge outside `TRANSACTION_IN_PROGRESS`, which leaves `SPI_SCLK` low. -/
theorem regs_of_spiCs_rises {j : ℕ} (h : ρ.spiCs.RisesAt j) :
    ρ.SlowEdgeAt j ∧ (ρ.regs j).phase ≠ .transactionInProgress ∧ ρ.spiSclk (j + 1) = false := by
  have hs : ρ.SlowEdgeAt j := slowEdgeAt_of_changesAt (Or.inl (Signal.changesAt_iff.mpr (Or.inl h)))
  have hregs := regs_of_slowEdgeAt hs
  have hp : (ρ.regs j).phase ≠ .transactionInProgress := by
    intro hp
    have hcs := h.2
    rw [spiCs_eq, hregs, slowEdge_spiCs, if_pos (Or.inr hp)] at hcs
    cases hcs
  refine ⟨hs, hp, ?_⟩
  rw [spiSclk_eq, hregs, slowEdge_spiSclk, if_neg hp]

/-- While `reset_n` is high the state is not cleared in a frame. -/
theorem phase_ne_reset (h : ρ.spiCs.LowSince i n) (hr : ρ.ResetHigh (i + 1) n) :
    (ρ.regs n).phase ≠ .reset := by
  refine h.induction (P := fun n => n ≤ _ → (ρ.regs n).phase ≠ .reset) ?_ ?_ le_rfl
  · intro _
    obtain ⟨-, -, d, -, hregs⟩ := regs_of_spiCs_falls h.falls
    rw [hregs, frameAt_of_le (by omega)]
    simp
  · intro k hk _ ih hkn
    have hik := hk.lt
    rcases regs_succ_of_resetN (hr k hik (by omega)) (hr (k + 1) (by omega) hkn) with
      ⟨-, -, hregs⟩ | ⟨-, -, hregs⟩
    · rw [hregs, slowEdge_phase]
      exact nextPhase_ne_reset _
    · rw [hregs]
      exact ih (by omega)

/-- A frame without reset ends at position 65 of the schedule. -/
theorem position_of_lowPulse {j : ℕ} (h : ρ.spiCs.LowPulse i j) (hr : ρ.ResetHigh (i + 1) j) :
    ρ.position i j = 65 := by
  have hne := (regs_of_spiCs_rises h.risesAt).2.1
  rcases (inFrame h.toLowSince).phase with hp | ⟨-, hp⟩ | ⟨hpos, -⟩
  · exact absurd hp (phase_ne_reset h.toLowSince hr)
  · exact absurd hp hne
  · exact hpos

/-- At a slow edge in a frame, the position gives the time since the fall of `SPI_CS`. -/
theorem ticks_eq_position (h : ρ.spiCs.FallsAt i) (hin : i < n) (hn : ρ.SlowEdgeAt n) :
    ρ.ticks n = ρ.ticks i + 8 * (ρ.position i n + 1) := by
  have hi := (regs_of_spiCs_falls h).1
  have hle : ρ.slowEdges (i + 1) ≤ ρ.slowEdges n := ρ.slowEdges_monotone hin
  have hti := ρ.ticks_of_slowEdgeAt i hi
  have htn := ρ.ticks_of_slowEdgeAt n hn
  rw [position]
  rw [slowEdges_succ_of_slowEdgeAt _ _ hi] at hle ⊢
  omega

/-! ## Counting and timing the clock edges -/

/-- Between the ends of a frame, the times of clock edges are given by their positions. -/
theorem map_ticks {p : ℕ → Prop} [DecidablePred p] (h : ρ.spiCs.FallsAt i)
    (hp : ∀ k, p k → ρ.SlowEdgeAt k) :
    (stepsIn p (i + 1) n).map ρ.ticks =
      ((stepsIn p (i + 1) n).map (ρ.position i)).map fun q => ρ.ticks i + 8 * (q + 1) := by
  rw [List.map_map]
  apply List.map_congr_left
  intro k hk
  obtain ⟨⟨hik, -⟩, hpk⟩ := mem_stepsIn.mp hk
  exact ticks_eq_position h hik (hp k hpk)

theorem slowEdgeAt_of_rises {k : ℕ} (h : ρ.spiSclk.RisesAt k) : ρ.SlowEdgeAt k :=
  slowEdgeAt_of_changesAt (Or.inr (Signal.changesAt_iff.mpr (Or.inl h)))

theorem slowEdgeAt_of_falls {k : ℕ} (h : ρ.spiSclk.FallsAt k) : ρ.SlowEdgeAt k :=
  slowEdgeAt_of_changesAt (Or.inr (Signal.changesAt_iff.mpr (Or.inr h)))

variable {j : ℕ}

/-- `SPI_SCLK` does not rise at the ends of a frame. -/
theorem stepsIn_rises (h : ρ.spiCs.LowPulse i j) :
    stepsIn ρ.spiSclk.RisesAt i (j + 1) = stepsIn ρ.spiSclk.RisesAt (i + 1) j := by
  have hij := h.lt
  have hi : ¬ ρ.spiSclk.RisesAt i := by
    rintro ⟨-, hk⟩
    simp [(spiSclk_first h.falls).2] at hk
  have hj : ¬ ρ.spiSclk.RisesAt j := by
    rintro ⟨-, hk⟩
    simp [(regs_of_spiCs_rises h.risesAt).2.2] at hk
  rw [stepsIn_of_not_first (by omega) hi, stepsIn_succ_of_not (by omega) hj]

/-- The rising edges of a frame without reset, in time. -/
theorem map_ticks_rises (h : ρ.spiCs.LowPulse i j) (hr : ρ.ResetHigh (i + 1) j) :
    (stepsIn ρ.spiSclk.RisesAt i (j + 1)).map ρ.ticks =
      (List.range 32).map (fun k => ρ.ticks i + 8 * (2 * k + 1)) := by
  rw [stepsIn_rises h, map_ticks h.falls fun _ => slowEdgeAt_of_rises,
    map_position_rises h.toLowSince, position_of_lowPulse h hr, stepsIn_frameSclk_rises,
    List.map_map]
  rfl

/-- `SPI_SCLK` does not fall at the ends of a frame without reset. -/
theorem stepsIn_falls (h : ρ.spiCs.LowPulse i j) (hr : ρ.ResetHigh (i + 1) j) :
    stepsIn ρ.spiSclk.FallsAt i (j + 1) = stepsIn ρ.spiSclk.FallsAt (i + 1) j := by
  have hij := h.lt
  have hi : ¬ ρ.spiSclk.FallsAt i := by
    rintro ⟨hk, -⟩
    simp [(spiSclk_first h.falls).1] at hk
  have hj : ¬ ρ.spiSclk.FallsAt j := by
    rintro ⟨hk, -⟩
    have hs := spiSclk_eq_frameSclk h.toLowSince
    rw [position_of_lowPulse h hr, hk] at hs
    cases hs
  rw [stepsIn_of_not_first (by omega) hi, stepsIn_succ_of_not (by omega) hj]

/-- No frame has more than 32 rising edges of `SPI_SCLK`. -/
theorem length_rises_le (h : ρ.spiCs.LowSince i n) :
    (stepsIn ρ.spiSclk.RisesAt (i + 1) n).length ≤ 32 := by
  have hle : ρ.position i n ≤ 65 := (inFrame h).1
  calc (stepsIn ρ.spiSclk.RisesAt (i + 1) n).length
      = (stepsIn frameSclk.RisesAt 0 (ρ.position i n)).length := by
        rw [← map_position_rises h, List.length_map]
    _ ≤ (stepsIn frameSclk.RisesAt 0 65).length := by
        rw [← stepsIn_append (Nat.zero_le _) hle, List.length_append]
        exact Nat.le_add_right _ _
    _ = 32 := by rw [stepsIn_frameSclk_rises, List.length_map, List.length_range]

/-- **Frame shape.** A low window of `SPI_CS` in which `reset_n` stays high lasts 66 slow periods
of 8 ticks; `SPI_SCLK` is low when it starts, rises 32 times, first one period after the fall of
`SPI_CS` and then every second period, and falls one period after each rise. No such window lasts
longer, whether it ends or not. A window cut short by `reset_n` has at most 32 rising edges and as
many falling edges, those at its ends included. -/
theorem frame_shape (ρ : Run) :
    (∀ i j, ρ.spiCs.LowPulse i j → ρ.ResetHigh (i + 1) j →
      ρ.slowEdges j = ρ.slowEdges i + 66 ∧ ρ.ticks j = ρ.ticks i + 8 * 66 ∧
      ρ.spiSclk i = false ∧ ρ.spiSclk (i + 1) = false ∧
      (stepsIn ρ.spiSclk.RisesAt i (j + 1)).map ρ.ticks =
        (List.range 32).map (fun k => ρ.ticks i + 8 * (2 * k + 1)) ∧
      (stepsIn ρ.spiSclk.FallsAt i (j + 1)).map ρ.ticks =
        (List.range 32).map (fun k => ρ.ticks i + 8 * (2 * k + 2))) ∧
    (∀ i n, ρ.spiCs.LowSince i n → ρ.slowEdges n ≤ ρ.slowEdges i + 66) ∧
    (∀ i j, ρ.spiCs.LowPulse i j →
      (stepsIn ρ.spiSclk.RisesAt i (j + 1)).length ≤ 32 ∧
      (stepsIn ρ.spiSclk.FallsAt i (j + 1)).length =
        (stepsIn ρ.spiSclk.RisesAt i (j + 1)).length) := by
  refine ⟨?_, ?_, ?_⟩
  -- the window ends at position 65, and carries all edges of the schedule
  · intro i j h hr
    have hpos := position_of_lowPulse h hr
    have hj := (regs_of_spiCs_rises h.risesAt).1
    have hticks := ticks_eq_position h.falls h.lt hj
    have hti := ρ.ticks_of_slowEdgeAt i (regs_of_spiCs_falls h.falls).1
    have htj := ρ.ticks_of_slowEdgeAt j hj
    rw [hpos] at hticks
    obtain ⟨h0, h1⟩ := spiSclk_first h.falls
    refine ⟨by omega, hticks, h0, h1, ?_, ?_⟩
    · exact map_ticks_rises h hr
    · rw [stepsIn_falls h hr, map_ticks h.falls fun _ => slowEdgeAt_of_falls,
        map_position_falls h.toLowSince, hpos, stepsIn_frameSclk_falls, List.map_map]
      rfl
  -- no frame gets past position 65
  · intro i n h
    have hle : ρ.position i n ≤ 65 := (inFrame h).1
    rw [position, slowEdges_succ_of_slowEdgeAt _ _ (regs_of_spiCs_falls h.falls).1] at hle
    omega
  · intro i j h
    constructor
    · rw [stepsIn_rises h]
      exact length_rises_le h.toLowSince
    -- `SPI_SCLK` is low before the window and after it, so its edges balance
    · have hij := h.lt
      have hbal := ρ.spiSclk.toNat_add_rises (show i ≤ j + 1 by omega)
      rw [(spiSclk_first h.falls).1, (regs_of_spiCs_rises h.risesAt).2.2] at hbal
      omega

/-- The first frame of the free run. -/
theorem frame_shape_freeRun :
    (freeRun false).spiCs.LowPulse 203 731 ∧
      (freeRun false).ticks 731 = (freeRun false).ticks 203 + 8 * 66 ∧
      (stepsIn (freeRun false).spiSclk.RisesAt 203 732).map (freeRun false).ticks =
        (List.range 32).map (fun k => (freeRun false).ticks 203 + 8 * (2 * k + 1)) ∧
      (stepsIn (freeRun false).spiSclk.FallsAt 203 732).length =
        (stepsIn (freeRun false).spiSclk.RisesAt 203 732).length := by
  have hp := freeRun_lowPulse false
  obtain ⟨hframe, -, hbal⟩ := frame_shape (freeRun false)
  obtain ⟨-, hticks, -, -, hrises, -⟩ := hframe 203 731 hp (freeRun_resetHigh false _ _)
  exact ⟨hp, hticks, hrises, (hbal 203 731 hp).2⟩

end Run

end ADS131A0X
