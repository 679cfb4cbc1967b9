import ADS131A0X.SingleClock.Refinement

/-!
# The pins in lockstep

The refinement read off the pins: along a run every output pin is a register of the single-clock
machine, the divided clock rises at the ticks 4, 12, 20, ... of the system clock, and one event
of the environment does one of three things to the registers. Everything that is proved about
runs below goes through these three cases.

## Main results

* `Run.spiCs_eq`, `Run.spiSclk_eq`, ...: the pins are registers of the single-clock machine
* `Run.risesAt_iff_of_divided`, `Run.count_rises_of_divided`: a divider on the system clock
* `Run.slowEdgeAt_iff`, `Run.slowEdges_eq`: when the divided clock rises
* `Run.regs_succ`: a slow edge, an asynchronous clear, or nothing
* `Run.slowEdgeAt_of_changesAt`: `SPI_CS` and `SPI_SCLK` change at slow edges only
* `Run.regs_eq_iterate`: with `reset_n` high, slow edges are all there is
* `Run.refines_singleClock`: the two dividers act as one clock, and no pulse is shorter than its
  period
-/

namespace ADS131A0X

open Transition Waveform Divider

namespace Run

variable (ρ : Run) (n : ℕ)

/-! ## Pins -/

theorem spiCs_eq : ρ.spiCs n = (ρ.regs n).spiCs := (ρ.refines n).regs.spiCs

theorem spiSclk_eq : ρ.spiSclk n = (ρ.regs n).spiSclk := (ρ.refines n).regs.spiSclk

theorem spiReset_eq : ρ.spiReset n = (ρ.regs n).spiReset := (ρ.refines n).regs.spiReset

theorem spiMosi_eq : ρ.spiMosi n = (ρ.regs n).spiMosi := (ρ.refines n).regs.spiMosi

theorem countCs_eq : (ρ.countCs n).toNat = (ρ.regs n).clockCycles :=
  (ρ.refines n).regs.clockCycles

theorem state_eq : ρ.state n = (ρ.regs n).phase.encode := (ρ.refines n).regs.currentState

theorem resetN_eq : ρ.resetN n = (ρ.timed n).resetN := (ρ.refines n).resetN

/-- The pin `reset_n` moves with its own events only. -/
theorem resetN_succ : ρ.resetN (n + 1) =
    match ρ.event n with
    | .resetN level => level
    | _ => ρ.resetN n := by
  show (ρ.top (n + 1)).resetN = _
  rw [top_succ]
  cases ρ.event n with
  | systemClock => exact Top.posedgeSystemClock_resetN _
  | resetN level => rfl
  | spiMiso level => rfl

/-- The register `current_state` holds the code of the state. -/
theorem state_eq_encode_iff {p : Phase} : ρ.state n = p.encode ↔ (ρ.regs n).phase = p := by
  rw [state_eq, Phase.encode_inj]

theorem adcResetCount_toNat :
    (ρ.top n).spiMasterUut.adcResetCount.toNat = (ρ.regs n).adcResetCount :=
  (ρ.refines n).regs.adcResetCount

theorem delayCounter_toNat :
    (ρ.top n).spiMasterUut.delayCounterTransitionLogic.toNat = (ρ.regs n).delayCounter :=
  (ρ.refines n).regs.delayCounter

/-- The registers of the single-clock machine satisfy their invariant along every run. -/
theorem regs_valid : (ρ.regs n).Valid := (ρ.valid n).regs

/-- While `reset_n` is low the state is `RESET`. -/
theorem phase_of_resetN_low (h : ρ.resetN n = false) : (ρ.regs n).phase = .reset :=
  (ρ.valid n).reset_low ((ρ.resetN_eq n).symm.trans h)

theorem resetN_of_phase_ne_reset (h : (ρ.regs n).phase ≠ .reset) : ρ.resetN n = true := by
  by_contra hr
  exact h (ρ.phase_of_resetN_low n (Bool.eq_false_iff.mpr hr))

/-! ## Time -/

theorem ticks_zero : ρ.ticks 0 = 0 := Nat.count_zero _

theorem ticks_succ : ρ.ticks (n + 1) =
    ρ.ticks n + if ρ.event n = .systemClock then 1 else 0 := Nat.count_succ _ _

theorem ticks_eq : ρ.ticks n = (ρ.timed n).ticks := by
  induction n with
  | zero => exact ρ.ticks_zero
  | succ n ih =>
    rw [ticks_succ, ih, timed_succ]
    cases ρ.event n with
    | systemClock =>
      rw [if_pos rfl, Timed.step]
      split <;> rfl
    | resetN level => simp [Timed.step]
    | spiMiso level => simp [Timed.step]

section Divided

variable {ρ n} {s : Signal} {m : ℕ}

/-- A wire that is a divider of period `m` on the system clock rises every `2 * m` ticks. -/
theorem risesAt_iff_of_divided (hm : 0 < m) (hs : ∀ k, s k = dividerLevel m (ρ.ticks k)) :
    s.RisesAt n ↔ ρ.event n = .systemClock ∧ (ρ.ticks n + 1) % (m * 2) = m := by
  rw [Signal.RisesAt, hs, hs, ticks_succ]
  by_cases he : ρ.event n = .systemClock
  · rw [if_pos he, dividerLevel_rises_iff hm]
    simp [he]
  · rw [if_neg he, Nat.add_zero]
    simp [he]

theorem count_rises_of_divided (hm : 0 < m) (hs : ∀ k, s k = dividerLevel m (ρ.ticks k)) :
    Nat.count s.RisesAt n = (ρ.ticks n + m) / (m * 2) := by
  -- on the time base of the ticks the rising edges are those of the divider
  have hmap : (stepsIn s.RisesAt 0 n).map ρ.ticks =
      stepsIn (fun t => (t + 1) % (m * 2) = m) (ρ.ticks 0) (ρ.ticks n) := by
    apply map_stepsIn n.zero_le
    intro k _ _
    rw [ticks_succ, risesAt_iff_of_divided hm hs]
    by_cases he : ρ.event k = .systemClock
    · exact Or.inr ⟨by rw [if_pos he], by simp [he]⟩
    · exact Or.inl ⟨by rw [if_neg he, Nat.add_zero], fun h => he h.1⟩
  rw [ticks_zero] at hmap
  calc Nat.count s.RisesAt n = (stepsIn s.RisesAt 0 n).length := length_stepsIn_zero.symm
    _ = (stepsIn (fun t => (t + 1) % (m * 2) = m) 0 (ρ.ticks n)).length := by
      rw [← hmap, List.length_map]
    _ = (ρ.ticks n + m) / (m * 2) := by
      rw [length_stepsIn_zero, count_dividerLevel_rises hm]

end Divided

/-- The divided clock is the level of a divider of period 4 after the ticks so far. -/
theorem synthesizedClock_eq : ρ.synthesizedClock n = dividerLevel 4 (ρ.ticks n) := by
  have h := (ρ.refines n).clock
  show (ρ.top n).spiMasterUut.clockSynthesizerUut.clockPol = _
  rw [h, ticks_eq]
  rfl

/-- **The slow edges** are the ticks 4, 12, 20, ... of the system clock. -/
theorem slowEdgeAt_iff :
    ρ.SlowEdgeAt n ↔ ρ.event n = .systemClock ∧ (ρ.ticks n + 1) % 8 = 4 :=
  risesAt_iff_of_divided (by decide) ρ.synthesizedClock_eq

/-- After `t` ticks, `⌊(t + 4) / 8⌋` slow edges have happened. -/
theorem slowEdges_eq : ρ.slowEdges n = (ρ.ticks n + 4) / 8 :=
  count_rises_of_divided (by decide) ρ.synthesizedClock_eq

theorem slowEdges_succ_of_slowEdgeAt (h : ρ.SlowEdgeAt n) :
    ρ.slowEdges (n + 1) = ρ.slowEdges n + 1 := by
  simp [slowEdges, Nat.count_succ, h]

theorem slowEdges_succ_of_not (h : ¬ ρ.SlowEdgeAt n) :
    ρ.slowEdges (n + 1) = ρ.slowEdges n := by
  simp [slowEdges, Nat.count_succ, h]

theorem slowEdges_monotone : Monotone ρ.slowEdges := Nat.count_monotone _

variable {ρ} in
/-- The slow edges are counted one by one. -/
theorem exists_slowEdge {a b e : ℕ} (ha : ρ.slowEdges a ≤ e) (hb : e < ρ.slowEdges b) :
    ∃ m, a ≤ m ∧ m < b ∧ ρ.SlowEdgeAt m ∧ ρ.slowEdges m = e :=
  exists_step_of_count (ρ.slowEdges_monotone.reflect_lt (ha.trans_lt hb)).le ha hb

/-- A slow edge happens at tick `8 e - 4`, for `e` its number. -/
theorem ticks_of_slowEdgeAt (h : ρ.SlowEdgeAt n) : ρ.ticks n = 8 * ρ.slowEdges n + 3 := by
  have hs := ρ.slowEdges_eq n
  have hm := ((ρ.slowEdgeAt_iff n).mp h).2
  omega

/-! ## What an event does -/

/-- **The three cases of a step.** At a slow edge all registers move together and `reset_n` rests;
a falling edge of `reset_n` clears the state; any other event leaves the registers alone. -/
theorem regs_succ :
    (ρ.SlowEdgeAt n ∧ ρ.resetN (n + 1) = ρ.resetN n ∧
        ρ.regs (n + 1) = (ρ.regs n).slowEdge (ρ.resetN n)) ∨
      (¬ ρ.SlowEdgeAt n ∧ ρ.resetN.FallsAt n ∧ ρ.regs (n + 1) = (ρ.regs n).clear) ∨
      (¬ ρ.SlowEdgeAt n ∧ ¬ ρ.resetN.FallsAt n ∧ ρ.regs (n + 1) = ρ.regs n) := by
  have hsucc := ρ.timed_succ n
  have hslow := ρ.slowEdgeAt_iff n
  have hr : ρ.resetN (n + 1) = ((ρ.timed n).step (ρ.event n)).resetN := by
    rw [resetN_eq, hsucc]
  have hregs : ρ.regs (n + 1) = ((ρ.timed n).step (ρ.event n)).regs := by
    rw [regs, hsucc]
  rw [ticks_eq] at hslow
  cases he : ρ.event n with
  | systemClock =>
    rw [he] at hr hregs hslow
    by_cases hm : ((ρ.timed n).ticks + 1) % 8 = 4
    -- a tick at which the divided clock rises
    · rw [Timed.step_slow hm] at hr hregs
      exact Or.inl ⟨hslow.mpr ⟨rfl, hm⟩, hr.trans (ρ.resetN_eq n).symm, by rw [hregs, resetN_eq]; rfl⟩
    -- any other tick
    · rw [Timed.step_quiet hm] at hr hregs
      refine Or.inr (Or.inr ⟨fun h => hm (hslow.mp h).2, ?_, hregs⟩)
      exact Signal.not_fallsAt_of_eq (hr.trans (ρ.resetN_eq n).symm)
  | resetN level =>
    rw [he] at hr hregs hslow
    have hns : ¬ ρ.SlowEdgeAt n := fun h => absurd (hslow.mp h).1 (by simp)
    by_cases hf : ρ.resetN.FallsAt n
    -- the clear
    · refine Or.inr (Or.inl ⟨hns, hf, ?_⟩)
      have h0 := hf.1
      have h1 := hf.2
      rw [resetN_eq] at h0
      rw [hr] at h1
      rw [hregs]
      exact if_pos (by simpa [h0, Timed.step] using h1)
    -- `reset_n` rises, or keeps its level
    · refine Or.inr (Or.inr ⟨hns, hf, ?_⟩)
      rw [hregs]
      refine if_neg fun h => hf ?_
      simp only [Bool.and_eq_true, Bool.not_eq_true'] at h
      exact ⟨(ρ.resetN_eq n).trans h.1, hr.trans h.2⟩
  | spiMiso level =>
    rw [he] at hr hregs hslow
    refine Or.inr (Or.inr ⟨fun h => absurd (hslow.mp h).1 (by simp), ?_, hregs⟩)
    exact Signal.not_fallsAt_of_eq (hr.trans (ρ.resetN_eq n).symm)

variable {ρ n}

theorem regs_of_slowEdgeAt (h : ρ.SlowEdgeAt n) :
    ρ.regs (n + 1) = (ρ.regs n).slowEdge (ρ.resetN n) := by
  rcases ρ.regs_succ n with ⟨-, -, hs⟩ | ⟨hn, -⟩ | ⟨hn, -⟩
  · exact hs
  · exact absurd h hn
  · exact absurd h hn

/-- A falling edge of `reset_n` is not a slow edge, and clears the state. -/
theorem regs_of_resetN_falls (h : ρ.resetN.FallsAt n) :
    ¬ ρ.SlowEdgeAt n ∧ ρ.regs (n + 1) = (ρ.regs n).clear := by
  rcases ρ.regs_succ n with ⟨-, hr, -⟩ | ⟨hs, -, hregs⟩ | ⟨-, hn, -⟩
  · exact absurd h (Signal.not_fallsAt_of_eq hr)
  · exact ⟨hs, hregs⟩
  · exact absurd h hn

/-- Without a slow edge or a falling edge of `reset_n`, nothing moves. -/
theorem regs_rest (hs : ¬ ρ.SlowEdgeAt n) (hr : ¬ ρ.resetN.FallsAt n) :
    ρ.regs (n + 1) = ρ.regs n := by
  rcases ρ.regs_succ n with ⟨h, -⟩ | ⟨-, h, -⟩ | ⟨-, -, hregs⟩
  · exact absurd h hs
  · exact absurd h hr
  · exact hregs

/-- Between the slow edges everything but the state rests. -/
theorem regs_of_not_slowEdgeAt (h : ¬ ρ.SlowEdgeAt n) :
    ρ.regs (n + 1) = { ρ.regs n with phase := (ρ.regs (n + 1)).phase } := by
  rcases ρ.regs_succ n with ⟨hs, -⟩ | ⟨-, -, hs⟩ | ⟨-, -, hs⟩
  · exact absurd hs h
  · rw [hs]
    rfl
  · rw [hs]

/-- Between the slow edges the state is kept or cleared. -/
theorem phase_of_not_slowEdgeAt (h : ¬ ρ.SlowEdgeAt n) :
    (ρ.regs (n + 1)).phase = (ρ.regs n).phase ∨ (ρ.regs (n + 1)).phase = .reset := by
  rcases ρ.regs_succ n with ⟨hs, -⟩ | ⟨-, -, hs⟩ | ⟨-, -, hs⟩
  · exact absurd hs h
  · exact Or.inr (by rw [hs]; rfl)
  · exact Or.inl (by rw [hs])

theorem spiCs_rest (h : ¬ ρ.SlowEdgeAt n) : ρ.spiCs (n + 1) = ρ.spiCs n := by
  rw [spiCs_eq, spiCs_eq, regs_of_not_slowEdgeAt h]

theorem spiSclk_rest (h : ¬ ρ.SlowEdgeAt n) : ρ.spiSclk (n + 1) = ρ.spiSclk n := by
  rw [spiSclk_eq, spiSclk_eq, regs_of_not_slowEdgeAt h]

theorem spiReset_rest (h : ¬ ρ.SlowEdgeAt n) : ρ.spiReset (n + 1) = ρ.spiReset n := by
  rw [spiReset_eq, spiReset_eq, regs_of_not_slowEdgeAt h]

theorem spiMosi_rest (h : ¬ ρ.SlowEdgeAt n) : ρ.spiMosi (n + 1) = ρ.spiMosi n := by
  rw [spiMosi_eq, spiMosi_eq, regs_of_not_slowEdgeAt h]

/-- `SPI_CS` and `SPI_SCLK` change at slow edges only. -/
theorem slowEdgeAt_of_changesAt (h : ρ.spiCs.ChangesAt n ∨ ρ.spiSclk.ChangesAt n) :
    ρ.SlowEdgeAt n := by
  by_contra hn
  rcases h with h | h
  · exact h (spiCs_rest hn)
  · exact h (spiSclk_rest hn)

/-- Two slow edges are a period of the divided clock apart. -/
theorem ticks_add_le_of_slowEdgeAt {m : ℕ} (hm : ρ.SlowEdgeAt m) (hn : ρ.SlowEdgeAt n)
    (hlt : m < n) : ρ.ticks m + 8 ≤ ρ.ticks n := by
  have hcount : ρ.slowEdges m < ρ.slowEdges n := Nat.count_strict_mono hm hlt
  have := ρ.ticks_of_slowEdgeAt m hm
  have := ρ.ticks_of_slowEdgeAt n hn
  omega

/-! ## Stretches without a reset -/

/-- The pin `reset_n` is high at all steps from `a` to `b`. -/
def ResetHigh (ρ : Run) (a b : ℕ) : Prop := ∀ n, a ≤ n → n ≤ b → ρ.resetN n = true

theorem ResetHigh.of_le {a b a' b' : ℕ} (h : ρ.ResetHigh a b) (ha : a ≤ a') (hb : b' ≤ b) :
    ρ.ResetHigh a' b' := fun n hn hn' => h n (ha.trans hn) (hn'.trans hb)

/-- With `reset_n` high, a step is a slow edge or leaves the registers alone. -/
theorem regs_succ_of_resetN (h : ρ.resetN n = true) (h' : ρ.resetN (n + 1) = true) :
    (ρ.SlowEdgeAt n ∧ ρ.slowEdges (n + 1) = ρ.slowEdges n + 1 ∧
        ρ.regs (n + 1) = (ρ.regs n).slowEdge true) ∨
      (¬ ρ.SlowEdgeAt n ∧ ρ.slowEdges (n + 1) = ρ.slowEdges n ∧ ρ.regs (n + 1) = ρ.regs n) := by
  rcases ρ.regs_succ n with ⟨hs, -, hregs⟩ | ⟨-, hf, -⟩ | ⟨hs, -, hregs⟩
  · exact Or.inl ⟨hs, ρ.slowEdges_succ_of_slowEdgeAt n hs, h ▸ hregs⟩
  · exact absurd hf.2 (by simp [h'])
  · exact Or.inr ⟨hs, ρ.slowEdges_succ_of_not n hs, hregs⟩

/-- **With `reset_n` high, the registers depend on the number of slow edges only.** -/
theorem regs_eq_iterate {a b : ℕ} (hab : a ≤ b) (h : ρ.ResetHigh a b) :
    ρ.regs b = (SingleClock.slowEdge true)^[ρ.slowEdges b - ρ.slowEdges a] (ρ.regs a) := by
  induction b, hab using Nat.le_induction with
  | base => simp
  | succ b hab ih =>
    have hle : ρ.slowEdges a ≤ ρ.slowEdges b := ρ.slowEdges_monotone hab
    have ih := ih (h.of_le le_rfl (by omega))
    rcases regs_succ_of_resetN (h b hab (by omega)) (h (b + 1) (by omega) le_rfl) with
      ⟨-, hcount, hregs⟩ | ⟨-, hcount, hregs⟩
    · rw [hregs, ih, hcount, show ρ.slowEdges b + 1 - ρ.slowEdges a =
        (ρ.slowEdges b - ρ.slowEdges a) + 1 by omega, Function.iterate_succ_apply']
    · rw [hregs, ih, hcount]

/-- **Multi-clock refinement.** After any events the design holds the registers of the single-clock
machine, which steps at the ticks 4, 12, 20, ... and has stepped `⌊(t + 4) / 8⌋` times after `t`
ticks; these are the rising edges of the divided clock of the design. Two changes of `SPI_CS` or
`SPI_SCLK` are simultaneous or at least 8 ticks apart. -/
theorem refines_singleClock (ρ : Run) :
    (∀ n, (ρ.top n).spiMasterUut.Matches (ρ.timed n).regs ∧
      (ρ.timed n).ticks = ρ.ticks n ∧ (ρ.timed n).slowEdges = (ρ.ticks n + 4) / 8) ∧
    (∀ n, ρ.SlowEdgeAt n ↔ ρ.event n = .systemClock ∧ (ρ.ticks n + 1) % 8 = 4) ∧
    (∀ m n, m ≤ n → (ρ.spiCs.ChangesAt m ∨ ρ.spiSclk.ChangesAt m) →
      (ρ.spiCs.ChangesAt n ∨ ρ.spiSclk.ChangesAt n) →
      m = n ∨ ρ.ticks m + 8 ≤ ρ.ticks n) := by
  refine ⟨fun n => ⟨(ρ.refines n).regs, (ρ.ticks_eq n).symm, ?_⟩, ρ.slowEdgeAt_iff, ?_⟩
  · rw [ticks_eq]
    exact (ρ.valid n).slowEdges
  · intro m n hle hm hn
    rcases hle.eq_or_lt with heq | hlt
    · exact Or.inl heq
    · exact Or.inr (ticks_add_le_of_slowEdgeAt (slowEdgeAt_of_changesAt hm)
        (slowEdgeAt_of_changesAt hn) hlt)

end Run

end ADS131A0X
