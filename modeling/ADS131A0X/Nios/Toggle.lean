import ADS131A0X.Nios.Select

/-!
# A slave select for every byte

While the slave select is not forced, the core selects the slave around every byte: the window opens
196 clocks into a transfer and closes at its end. A call with the flag `TOGGLE_SS_N` leaves it at
that, so `SS_n` falls and rises once for each of its bytes.

## Main definitions

* `SerialPort.before`, `SerialPort.passes`: a transfer before a clock, and at it
* `NiosSystem.Toggled`: the registers of the slave select in such a call

## Main results

* `SerialPort.pass_step`: each byte passes each clock of its transfer once
* `Spi.Run.length_enableSS_rises`, `Spi.Run.length_enableSS_falls`: one window for each byte
* `Session.slave_select_toggles`: the windows of a call
-/

namespace ADS131A0X

open Transition Waveform

/-! ## The windows of the core -/

namespace SerialPort

/-- The byte of the transfer, until clock `c`. -/
def before (c : ℕ) (p : SerialPort) : List (BitVec 8) :=
  match p.transfer with
  | none => []
  | some t => if t.clocks < c then [t.byte] else []

/-- The byte of the transfer that comes to clock `c` at the next edge. -/
def passes (c : ℕ) (p : SerialPort) : List (BitVec 8) :=
  match p.transfer with
  | none => []
  | some t => if t.clocks + 1 = c then [t.byte] else []

/-- Every byte passes every clock of its transfer once. -/
theorem pass_step {c : ℕ} (hc : 0 < c) (hc' : c ≤ 3528) (i : Inputs) (p : SerialPort) :
    p.before c ++ p.loaded = p.passes c ++ (p.next i).before c := by
  rw [before, loaded, passes, before, next]
  cases p.transfer with
  | none =>
    cases p.pending with
    | none => rfl
    | some byte => simp [Transfer.start, hc]
  | some t =>
    have hle := t.clocks_le
    by_cases ht : t.clocks < 3528
    · by_cases hpass : t.clocks + 1 = c
      · have h1 : t.clocks < c := by omega
        simp [ht, hpass, h1]
      · by_cases h1 : t.clocks < c
        · have h2 : t.clocks + 1 < c := by omega
          simp [ht, hpass, h1, h2]
        · have h2 : ¬ t.clocks + 1 < c := by omega
          simp [ht, hpass, h1, h2]
    · have h1 : ¬ t.clocks < c := by omega
      have h2 : ¬ t.clocks + 1 = c := by omega
      simp [ht, h1, h2]

end SerialPort

namespace Spi

theorem Matches.enableSS {m : Spi} {p : SerialPort} (h : m.Matches p) : m.enableSS = true ↔
    ∃ t, p.transfer = some t ∧ 196 ≤ t.clocks ∧ t.clocks < 3528 := by
  cases hp : p.transfer with
  | none => simp [(h.idle hp).enableSS]
  | some t => simp [(h.sends hp).enableSS]

namespace Run

/-- The slave select of the core along the run. -/
def enableSS (ρ : Run) : Signal := fun n => (ρ.spi n).enableSS

variable {ρ : Run} {a b n : ℕ} {i : Inputs}

theorem enableSS_risesAt_iff (he : ρ.event n = .clk i) :
    ρ.enableSS.RisesAt n ↔ (ρ.port n).passes 196 ≠ [] := by
  have hm := ρ.matches_port n
  have hm' := ρ.matches_port (n + 1)
  rw [port_succ_of_clk he] at hm'
  rw [Signal.RisesAt, enableSS, enableSS, ← Bool.not_eq_true, hm.enableSS, hm'.enableSS,
    SerialPort.passes, SerialPort.next]
  cases (ρ.port n).transfer with
  | none => cases (ρ.port n).pending <;> simp [Transfer.start]
  | some t =>
    have hle := t.clocks_le
    by_cases ht : t.clocks < 3528
    · simp only [ht, dif_pos, Option.some.injEq, exists_eq_left', Transfer.tick_clocks]
      by_cases hpass : t.clocks + 1 = 196
      · simp [hpass]
        omega
      · simp [hpass]
        omega
    · have h1 : ¬ t.clocks + 1 = 196 := by omega
      simp [ht, h1]

theorem enableSS_fallsAt_iff (he : ρ.event n = .clk i) :
    ρ.enableSS.FallsAt n ↔ (ρ.port n).passes 3528 ≠ [] := by
  have hm := ρ.matches_port n
  have hm' := ρ.matches_port (n + 1)
  rw [port_succ_of_clk he] at hm'
  rw [Signal.FallsAt, enableSS, enableSS, ← Bool.not_eq_true, hm.enableSS, hm'.enableSS,
    SerialPort.passes, SerialPort.next]
  cases (ρ.port n).transfer with
  | none => cases (ρ.port n).pending <;> simp [Transfer.start]
  | some t =>
    have hle := t.clocks_le
    by_cases ht : t.clocks < 3528
    · simp only [ht, dif_pos, Option.some.injEq, exists_eq_left', Transfer.tick_clocks]
      by_cases hpass : t.clocks + 1 = 3528
      · simp [hpass]
        omega
      · simp [hpass]
        omega
    · have h1 : ¬ t.clocks + 1 = 3528 := by omega
      simp [ht, h1]

/-- As many bytes pass a clock of their transfer as are taken from the bus. -/
theorem length_passes {c : ℕ} (hc : 0 < c) (hc' : c ≤ 3528) (hab : a ≤ b) (h : ρ.NoReset a b)
    (ha : (ρ.spi a).tmt = true) (hb : (ρ.spi b).tmt = true) :
    emitted (fun n => (ρ.port n).passes c) a b = emitted ρ.accepted a b := by
  obtain ⟨ha, ha'⟩ := port_of_tmt ha
  obtain ⟨hb, hb'⟩ := port_of_tmt hb
  have hqueue : Stage ρ.accepted (fun n => (ρ.port n).pending.toList)
      (fun n => (ρ.port n).loaded) a b := by
    intro n hn hn'
    obtain ⟨i, he⟩ := h.exists_clk hn hn'
    beta_reduce
    rw [accepted_eq he, port_succ_of_clk he]
    exact SerialPort.queue_step _ _
  have hpass : Stage (fun n => (ρ.port n).loaded) (fun n => (ρ.port n).before c)
      (fun n => (ρ.port n).passes c) a b := by
    intro n hn hn'
    obtain ⟨i, he⟩ := h.exists_clk hn hn'
    beta_reduce
    rw [port_succ_of_clk he]
    exact SerialPort.pass_step hc hc' _ _
  exact (hqueue.comp hpass).emitted_eq_of_empty hab (by simp [SerialPort.before, ha, ha'])
    (by simp [SerialPort.before, hb, hb'])

/-- A step is counted for every byte that passes. -/
theorem length_stepsIn_of_passes {c : ℕ} {p : ℕ → Prop} [DecidablePred p] (h : ρ.NoReset a b)
    (hp : ∀ n i, ρ.event n = .clk i → (p n ↔ (ρ.port n).passes c ≠ [])) :
    (stepsIn p a b).length = (emitted (fun n => (ρ.port n).passes c) a b).length := by
  have hone : ∀ n, (ρ.port n).passes c ≠ [] → ((ρ.port n).passes c).length = 1 := by
    intro n
    rw [SerialPort.passes]
    cases (ρ.port n).transfer with
    | none => simp
    | some t => by_cases ht : t.clocks + 1 = c <;> simp [ht]
  rw [← List.length_map (f := fun n => n), map_stepsIn_eq_emitted, emitted, emitted,
    List.length_flatMap, List.length_flatMap]
  congr 1
  apply List.map_congr_left
  intro n hn
  obtain ⟨ha, hb⟩ := List.Ico.mem.mp hn
  obtain ⟨i, he⟩ := h.exists_clk ha hb
  by_cases hpn : p n
  · rw [if_pos hpn, hone n ((hp n i he).mp hpn), List.length_singleton]
  · have hnil : (ρ.port n).passes c = [] := by
      by_contra hne
      exact hpn ((hp n i he).mpr hne)
    rw [if_neg hpn, hnil, List.length_nil, List.length_nil]

section FromIdle

variable (hab : a ≤ b) (h : ρ.NoReset a b) (ha : (ρ.spi a).tmt = true) (hb : (ρ.spi b).tmt = true)

include hab h ha hb

/-- **One window for each byte.** -/
theorem length_enableSS_rises :
    (stepsIn ρ.enableSS.RisesAt a b).length = (emitted ρ.accepted a b).length := by
  rw [length_stepsIn_of_passes h fun n i => enableSS_risesAt_iff,
    length_passes (by omega) (by omega) hab h ha hb]

theorem length_enableSS_falls :
    (stepsIn ρ.enableSS.FallsAt a b).length = (emitted ρ.accepted a b).length := by
  rw [length_stepsIn_of_passes h fun n i => enableSS_fallsAt_iff,
    length_passes (by omega) le_rfl hab h ha hb]

end FromIdle

end Run

end Spi

/-! ## The windows of a call -/

namespace NiosSystem

variable {s : NiosSystem} {p : SerialPort} {i : Inputs} {bytes sent got : List (BitVec 8)} {w r : ℕ}

/-- The slave select is not forced, and a byte on the line selects the slave of the call. -/
structure Toggled (s : NiosSystem) : Prop where
  toggle : s.command.flags &&& AltAvalonSpiCommand.toggleSsN ≠ 0#32
  not_control : s.command.place ≠ .control
  ssoReg : s.spi.ssoReg = false
  holding : s.command.place ≠ .slaveSel →
    s.spi.spiSlaveSelectHoldingReg.getLsbD 0 = decide (s.command.slave % 32 = 0)
  selected : s.spi.transmitting = true →
    s.spi.spiSlaveSelectReg.getLsbD 0 = decide (s.command.slave % 32 = 0)

/-- With the flag `TOGGLE_SS_N` the function never writes the control register but to release. -/
theorem place_next_ne_control {c : AltAvalonSpiCommand} {x : BitVec 32}
    (ht : c.flags &&& AltAvalonSpiCommand.toggleSsN ≠ 0#32) (hp : c.place ≠ .control) :
    (c.next x).place ≠ .control := by
  have hloop : ∀ hp, (c.next x).place ≠ .control := fun hp hc => by
    have hstage := (AltAvalonSpiCommand.stage_next_of_loop (c := c) (x := x) hp).1
    rw [AltAvalonSpiCommand.stage, hc] at hstage
    cases hstage
  cases hpl : c.place with
  | slaveSel =>
    rw [AltAvalonSpiCommand.next, hpl]
    simp [ht]
  | control => exact absurd hpl hp
  | discard =>
    rw [AltAvalonSpiCommand.next_of_discard hpl]
    simp
  | waitTmt =>
    rcases AltAvalonSpiCommand.place_next_of_waitTmt (x := x) hpl with h | ⟨h, -⟩ | ⟨h, -⟩ <;>
      rw [h] <;> simp
  | release =>
    rw [AltAvalonSpiCommand.next_of_release hpl]
    simp
  | done =>
    rw [AltAvalonSpiCommand.next_of_done hpl]
    exact hp
  | poll => exact hloop (Or.inl hpl)
  | txData byte => exact hloop (Or.inr (Or.inl ⟨byte, hpl⟩))
  | rxData => exact hloop (Or.inr (Or.inr hpl))

/-- **Every clock keeps the slave select apart from the function.** -/
theorem Toggled.step (h : s.Toggled) (hl : s.Ledger bytes w r p sent got) (hm : s.spi.Matches p)
    (hst : s.Strobes) : (s.step i).Toggled := by
  obtain ⟨hflags, hslave⟩ := step_arguments (s := s) (i := i)
  refine ⟨by rw [hflags]; exact h.toggle, ?_, ?_, ?_, ?_⟩
  · cases hs : s.second with
    | false =>
      rw [command_step_first hs]
      exact h.not_control
    | true =>
      rw [command_step_second hs]
      exact place_next_ne_control h.toggle h.not_control
  · rw [hst.ssoReg, if_neg fun hc => h.not_control hc.2]
    split
    · rfl
    · exact h.ssoReg
  · rw [hslave, hst.slaveSelectHoldingReg]
    intro hp'
    split
    · exact getLsbD_shiftLeft_slave _
    · next hp =>
      refine h.holding fun hsel => hp' ?_
      have hs : s.second = false := by
        by_contra hs
        exact hp ⟨by simpa using hs, hsel⟩
      rw [command_step_first hs, hsel]
  · rw [hslave, hst.slaveSelectReg]
    have hnext : (s.step i).spi.transmitting =
        if s.spi.transactionPrimed then false
        else if s.spi.writeShiftReg then true
        else s.spi.transmitting := rfl
    rw [hnext]
    intro htrans
    by_cases hload : s.spi.writeShiftReg = true
    -- the byte that goes to the line is one of the call, so the slave is selected already
    · have hp : s.command.place = .poll := by
        rcases hl.phase.empty_or_busy with hempty | ⟨-, -, hp, -⟩
        · rw [hm.writeShiftReg, hempty.2] at hload
          cases hload
        · exact hp
      rw [if_pos (Or.inl hload)]
      exact h.holding (by simp [hp])
    · rw [if_neg fun hc => hc.elim hload fun hc => h.not_control hc.2.1]
      refine h.selected ?_
      by_contra hnot
      simp [hload, hnot] at htrans

/-- **The pin** follows the core, for the first slave. -/
theorem Toggled.ssN (h : s.Toggled) :
    s.spi.ssN = !(s.spi.enableSS && decide (s.command.slave % 32 = 0)) := by
  rw [Spi.ssN, h.ssoReg, Bool.or_false]
  by_cases he : s.spi.enableSS = true
  · have htrans : s.spi.transmitting = true := by
      rw [Spi.enableSS, Bool.and_eq_true] at he
      exact he.1
    rw [if_pos he, h.selected htrans, he, Bool.true_and]
  · rw [if_neg he, Bool.not_eq_true _ |>.mp he]
    rfl

end NiosSystem

namespace Session

open AltAvalonSpiCommand (call toggleSsN)

variable {σ : Session} {slave readLength : ℕ} {writeData : List (BitVec 8)} {flags : BitVec 32}

section Call

variable (hc : σ.command = call slave writeData readLength flags)
  (h : (σ.history.spi σ.start).AtRest) (hpos : 0 < writeData.length + readLength)
  (ht : flags &&& toggleSsN ≠ 0#32) (hsso : (σ.history.spi σ.start).ssoReg = false)

include hc h hpos ht hsso

theorem toggled (n : ℕ) : (σ.system n).Toggled := by
  induction n with
  | zero =>
    have hcommand : (σ.system 0).command = call slave writeData readLength flags := hc
    have hidle := (σ.matches_port 0).transmitting
    rw [Nat.add_zero, (port_start h).1] at hidle
    refine ⟨?_, ?_, hsso, ?_, ?_⟩
    · rw [hcommand]
      exact ht
    · rw [hcommand]
      simp [call]
    · rw [hcommand]
      exact fun hp => absurd rfl hp
    · rw [hidle]
      intro htrans
      cases htrans
  | succ n ih =>
    rw [system_succ]
    exact ih.step (ledger hc h hpos n) (σ.matches_port n) (strobes h n)

theorem ssN_toggled (n : ℕ) : σ.run.ssN (σ.start + n) =
    !(σ.run.enableSS (σ.start + n) && decide (slave % 32 = 0)) := by
  have hpin := (toggled hc h hpos ht hsso n).ssN
  rw [(arguments hc n).2, ← run_spi] at hpin
  exact hpin

end Call

/-- **The slave select of a call with the flag `TOGGLE_SS_N`**, on a core at rest whose slave select is
not forced, once the call has returned. For slave 0 `SS_n` falls and rises once for each byte, and every
edge of `SCLK` is inside such a window; for any other slave it is always high. -/
theorem slave_select_toggles (σ : Session) (slave readLength : ℕ) (writeData : List (BitVec 8))
    (flags : BitVec 32) (hslave : slave < 32)
    (hc : σ.command = call slave writeData readLength flags)
    (h : (σ.history.spi σ.start).AtRest) (hpos : 0 < writeData.length + readLength)
    (ht : flags &&& toggleSsN ≠ 0#32) (hsso : (σ.history.spi σ.start).ssoReg = false) (n : ℕ)
    (hn : (σ.system n).command.place = .done) :
    (slave = 0 →
      (stepsIn σ.run.ssN.FallsAt σ.start (σ.start + n)).length = writeData.length + readLength ∧
      (stepsIn σ.run.ssN.RisesAt σ.start (σ.start + n)).length = writeData.length + readLength ∧
      ∀ k, σ.start ≤ k → σ.run.sclk.ChangesAt k →
        σ.run.ssN k = false ∧ σ.run.ssN (k + 1) = false) ∧
      (slave ≠ 0 → ∀ k, σ.start ≤ k → σ.run.ssN k = true) := by
  have hpin : ∀ k, σ.start ≤ k → σ.run.ssN k = !(σ.run.enableSS k && decide (slave = 0)) := by
    intro k hk
    obtain ⟨m, rfl⟩ := Nat.exists_eq_add_of_le hk
    rw [ssN_toggled hc h hpos ht hsso m, Nat.mod_eq_of_lt hslave]
  have hlen : (emitted σ.run.accepted σ.start (σ.start + n)).length =
      writeData.length + readLength := by
    rw [(accounts_of_done hc h hpos hn).1, List.length_append, List.length_replicate]
  have hstart : (σ.run.spi σ.start).tmt = true := by
    rw [σ.run_spi_of_le le_rfl]
    exact h.tmt
  have hend : (σ.run.spi (σ.start + n)).tmt = true := by
    rw [run_spi]
    exact (atRest_of_done hc h hpos hn).tmt
  have hreset := σ.run_noReset (σ.start + n)
  constructor
  · intro hfirst
    have hlow : ∀ k, σ.start ≤ k → σ.run.ssN k = !σ.run.enableSS k := by
      intro k hk
      rw [hpin k hk, hfirst]
      simp
    refine ⟨?_, ?_, ?_⟩
    · rw [← hlen, ← Spi.Run.length_enableSS_rises (Nat.le_add_right _ _) hreset hstart hend]
      refine congrArg List.length (stepsIn_congr fun k hk _ => ?_)
      rw [Signal.FallsAt, Signal.RisesAt, hlow k hk, hlow (k + 1) (by omega)]
      simp
    · rw [← hlen, ← Spi.Run.length_enableSS_falls (Nat.le_add_right _ _) hreset hstart hend]
      refine congrArg List.length (stepsIn_congr fun k hk _ => ?_)
      rw [Signal.FallsAt, Signal.RisesAt, hlow k hk, hlow (k + 1) (by omega)]
      simp
    · intro k hk hch
      obtain ⟨t, hsends, h391, h3332⟩ := Spi.Run.sends_of_sclk_changes hch
      obtain ⟨i, he⟩ := (σ.run_noReset (k + 1)).exists_clk hk k.lt_succ_self
      have hnow : σ.run.enableSS k = true := by
        show (σ.run.spi k).enableSS = true
        rw [hsends.enableSS]
        exact decide_eq_true (by omega)
      have hnext : σ.run.enableSS (k + 1) = true := by
        show (σ.run.spi (k + 1)).enableSS = true
        rw [Spi.Run.spi_succ_of_clk he, (hsends.tick (by omega : t.clocks < 3528)).enableSS,
          Transfer.tick_clocks]
        exact decide_eq_true (by omega)
      rw [hlow k hk, hlow (k + 1) (by omega), hnow, hnext]
      exact ⟨rfl, rfl⟩
  · intro hother k hk
    rw [hpin k hk, decide_eq_false hother, Bool.and_false]
    rfl

theorem slave_select_toggles_steady :
    (stepsIn (steady true (call 0 [0xA5#8] 1 toggleSsN)).run.ssN.FallsAt 0 (0 + 7088)).length = 2 :=
  ((slave_select_toggles (steady true (call 0 [0xA5#8] 1 toggleSsN)) 0 1 [0xA5#8] toggleSsN
    (by decide) rfl (steady_atRest _ _) (by decide) (by decide) rfl 7088
    (done_of_active rfl (steady_atRest _ _) (by decide)
      (by rw [count_steady_active]; decide))).1 rfl).1

end Session

end ADS131A0X
