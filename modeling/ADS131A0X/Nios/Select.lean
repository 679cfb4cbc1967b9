import ADS131A0X.Nios.Timing
import ADS131A0X.Nios.Call

/-!
# The slave select of a call

Unless the caller wants the slave select to toggle with every byte, the function forces it before the
first byte and releases it after the last one. So `SS_n` has one low window in a call, and all edges
of `SCLK` are inside it. With the flag `MERGE` the window stays open for the next call. The core has
one slave: for any other the pin stays high, and the bytes go out all the same.

## Main definitions

* `AltAvalonSpiCommand.stage`: before the window, inside, after the return
* `AltAvalonSpiCommand.drives`: the function forces the slave select
* `NiosSystem.Selected`: the registers of the slave select at each access

## Main results

* `NiosSystem.Selected.step`: every clock keeps them
* `Session.slave_select_window`: the window of a call
-/

namespace ADS131A0X

open Transition Waveform

/-! ## The stages of a call -/

namespace AltAvalonSpiCommand

variable (c : AltAvalonSpiCommand)

/-- The number of the stage: before the slave select is forced, then, and after the return. -/
def stage : ℕ :=
  match c.place with
  | .slaveSel | .control => 0
  | .done => 2
  | _ => 1

/-- The function forces the slave select. -/
def drives : Bool :=
  match c.place with
  | .slaveSel | .control => false
  | .done => c.flags &&& merge != 0#32
  | _ => true

variable {c} {x : BitVec 32}

theorem drives_iff :
    c.drives = true ↔ c.stage = 1 ∨ c.stage = 2 ∧ c.flags &&& merge ≠ 0#32 := by
  rw [drives, stage]
  cases c.place <;> simp

/-- The arguments of the call stay as they are. -/
theorem next_arguments :
    (c.next x).flags = c.flags ∧ (c.next x).slave = c.slave := by
  rw [next]
  cases hp : c.place with
  | poll =>
    simp only [afterPoll, afterTransmit]
    split
    · exact ⟨rfl, rfl⟩
    · split
      · split
        · exact ⟨rfl, rfl⟩
        · split
          · exact ⟨rfl, rfl⟩
          · split <;> exact ⟨rfl, rfl⟩
      · split <;> exact ⟨rfl, rfl⟩
  | txData _ =>
    simp only [afterTransmit]
    split <;> exact ⟨rfl, rfl⟩
  | rxData =>
    simp only [receive]
    split <;> split <;> exact ⟨rfl, rfl⟩
  | waitTmt =>
    simp only
    split <;> exact ⟨rfl, rfl⟩
  | slaveSel | control | discard | release | done => exact ⟨rfl, rfl⟩

/-- Inside the loop the function stays in the second stage. -/
theorem stage_next_of_loop (hp : c.place = .poll ∨ (∃ byte, c.place = .txData byte) ∨ c.place = .rxData) :
    (c.next x).stage = 1 ∧ (c.next x).place ≠ .release := by
  rw [next]
  rcases hp with hp | ⟨byte, hp⟩ | hp
  · rw [hp]
    simp only [afterPoll, afterTransmit]
    split
    · exact ⟨rfl, by simp⟩
    · split
      · split
        · exact ⟨rfl, by simp⟩
        · split
          · exact ⟨rfl, by simp⟩
          · split <;> exact ⟨rfl, by simp⟩
      · split <;> exact ⟨rfl, by simp⟩
  · rw [hp]
    simp only [afterTransmit]
    split <;> exact ⟨rfl, by simp⟩
  · rw [hp]
    simp only [receive]
    split <;> split <;> exact ⟨rfl, by simp⟩

/-- After the loop: the function waits, releases the slave select, or returns with it. -/
theorem place_next_of_waitTmt (hp : c.place = .waitTmt) :
    (c.next x).place = .waitTmt ∨
      (c.next x).place = .release ∧ c.flags &&& merge = 0#32 ∨
      (c.next x).place = .done ∧ c.flags &&& merge ≠ 0#32 := by
  rw [next, hp]
  simp only
  split
  · exact Or.inl rfl
  · by_cases hm : c.flags &&& merge = 0#32
    · exact Or.inr (Or.inl ⟨if_pos hm, hm⟩)
    · exact Or.inr (Or.inr ⟨if_neg hm, hm⟩)

/-- A call goes from stage to stage, and never back. -/
theorem stage_next : c.stage ≤ (c.next x).stage ∧ (c.next x).stage ≤ c.stage + 1 := by
  have hloop : ∀ hp, c.stage ≤ (c.next x).stage ∧ (c.next x).stage ≤ c.stage + 1 :=
    fun hp => by
      have hnext := (stage_next_of_loop (c := c) (x := x) hp).1
      have hstage : c.stage = 1 := by
        rw [stage]
        rcases hp with hp | ⟨byte, hp⟩ | hp <;> rw [hp]
      omega
  cases hp : c.place with
  | slaveSel =>
    rw [stage, hp]
    rcases next_of_slaveSel x hp with hc | hc <;> rw [hc] <;> simp [stage]
  | control =>
    rw [next_of_control hp, stage, hp]
    simp [stage]
  | discard =>
    rw [next_of_discard hp, stage, hp]
    simp [stage]
  | poll => exact hloop (Or.inl hp)
  | txData byte => exact hloop (Or.inr (Or.inl ⟨byte, hp⟩))
  | rxData => exact hloop (Or.inr (Or.inr hp))
  | waitTmt =>
    rw [stage, hp, stage]
    rcases place_next_of_waitTmt (x := x) hp with h | ⟨h, -⟩ | ⟨h, -⟩ <;> rw [h] <;> simp
  | release =>
    rw [next_of_release hp, stage, hp]
    simp [stage]
  | done =>
    rw [next_of_done hp]
    omega

/-- The forced slave select after an access. -/
theorem drives_next (ht : c.flags &&& toggleSsN = 0#32)
    (hm : c.place = .release → c.flags &&& merge = 0#32) :
    (c.next x).drives =
      if c.place = .control then true
      else if c.place = .release then false
      else c.drives := by
  have hloop : ∀ hp, c.place ≠ .control → c.place ≠ .release → c.drives = true →
      (c.next x).drives =
        if c.place = .control then true else if c.place = .release then false else c.drives :=
    fun hp h1 h2 h3 => by
      rw [if_neg h1, if_neg h2, h3]
      exact drives_iff.mpr (Or.inl (stage_next_of_loop hp).1)
  cases hp : c.place with
  | slaveSel =>
    rw [next, hp]
    simp [drives, hp, ht]
  | control =>
    rw [next_of_control hp]
    rfl
  | discard =>
    rw [next_of_discard hp]
    simp [drives, hp]
  | poll => exact hp ▸ hloop (Or.inl hp) (by simp [hp]) (by simp [hp]) (by simp [drives, hp])
  | txData byte =>
    exact hp ▸ hloop (Or.inr (Or.inl ⟨byte, hp⟩)) (by simp [hp]) (by simp [hp]) (by simp [drives, hp])
  | rxData =>
    exact hp ▸ hloop (Or.inr (Or.inr hp)) (by simp [hp]) (by simp [hp]) (by simp [drives, hp])
  | waitTmt =>
    have hflags := (next_arguments (c := c) (x := x)).1
    have hdrives : c.drives = true := by rw [drives, hp]
    rw [hdrives, if_neg (by simp), if_neg (by simp), drives, hflags]
    rcases place_next_of_waitTmt (x := x) hp with h | ⟨h, -⟩ | ⟨h, hne⟩
    · rw [h]
    · rw [h]
    · rw [h]
      simpa using hne
  | release =>
    rw [next_of_release hp]
    simp [drives, hm hp]
  | done =>
    rw [next_of_done hp]
    simp

end AltAvalonSpiCommand

/-! ## The registers of the slave select -/

namespace NiosSystem

variable {s : NiosSystem} {p : SerialPort} {i : Inputs}

/-- A clock does not change the arguments of the call. -/
theorem step_arguments :
    (s.step i).command.flags = s.command.flags ∧ (s.step i).command.slave = s.command.slave := by
  cases hs : s.second with
  | false =>
    rw [command_step_first hs]
    exact ⟨rfl, rfl⟩
  | true =>
    rw [command_step_second hs]
    exact AltAvalonSpiCommand.next_arguments

/-- The function writes the control register to force the slave select, and to release it. -/
theorem Strobes.ssoReg (h : s.Strobes) : (s.step i).spi.ssoReg =
    if s.second = true ∧ s.command.place = .control then true
    else if s.second = true ∧ s.command.place = .release then false
    else s.spi.ssoReg := by
  show (if s.spi.wrStrobe && (s.bus i).memAddr == Spi.control then (s.bus i).dataFromCpu.getLsbD 10
    else s.spi.ssoReg) = _
  rw [h.wrStrobe, bus]
  cases hs : s.second with
  | false => simp
  | true =>
    rw [AltAvalonSpiCommand.access]
    cases hp : s.command.place <;>
      simp [Access.isWrite, Inputs.drive, Spi.control, Spi.slaveEnable, Spi.txData, controlSsoMsk]

/-- It writes the slave select register first. -/
theorem Strobes.slaveSelectHoldingReg (h : s.Strobes) :
    (s.step i).spi.spiSlaveSelectHoldingReg =
      if s.second = true ∧ s.command.place = .slaveSel then
        (1#32 <<< (s.command.slave % 32)).setWidth 16
      else s.spi.spiSlaveSelectHoldingReg := by
  show (if s.spi.wrStrobe && (s.bus i).memAddr == Spi.slaveEnable then (s.bus i).dataFromCpu
    else s.spi.spiSlaveSelectHoldingReg) = _
  rw [h.wrStrobe, bus]
  cases hs : s.second with
  | false => simp
  | true =>
    rw [AltAvalonSpiCommand.access]
    cases hp : s.command.place <;>
      simp [Access.isWrite, Inputs.drive, Spi.control, Spi.slaveEnable, Spi.txData]

/-- The core takes the slave when it is forced, and with every byte. -/
theorem Strobes.slaveSelectReg (h : s.Strobes) : (s.step i).spi.spiSlaveSelectReg =
    if s.spi.writeShiftReg = true ∨
        s.second = true ∧ s.command.place = .control ∧ s.spi.ssoReg = false then
      s.spi.spiSlaveSelectHoldingReg
    else s.spi.spiSlaveSelectReg := by
  show (if s.spi.writeShiftReg || (s.spi.wrStrobe && (s.bus i).memAddr == Spi.control &&
    (s.bus i).dataFromCpu.getLsbD 10 && !s.spi.ssoReg) then s.spi.spiSlaveSelectHoldingReg
    else s.spi.spiSlaveSelectReg) = _
  rw [h.wrStrobe, bus]
  cases hs : s.second with
  | false => simp
  | true =>
    rw [AltAvalonSpiCommand.access]
    cases hp : s.command.place <;>
      simp [Access.isWrite, Inputs.drive, Spi.control, Spi.slaveEnable, Spi.txData, controlSsoMsk]

/-- The slave select is forced as the function wants it, with its slave. -/
structure Selected (s : NiosSystem) : Prop where
  toggle : s.command.flags &&& AltAvalonSpiCommand.toggleSsN = 0#32
  release : s.command.place = .release → s.command.flags &&& AltAvalonSpiCommand.merge = 0#32
  ssoReg : s.spi.ssoReg = s.command.drives
  holding : s.command.place ≠ .slaveSel →
    s.spi.spiSlaveSelectHoldingReg.getLsbD 0 = decide (s.command.slave % 32 = 0)
  selected : s.command.drives = true →
    s.spi.spiSlaveSelectReg.getLsbD 0 = decide (s.command.slave % 32 = 0)

/-- The first slave is bit 0. -/
theorem getLsbD_shiftLeft_slave (slave : ℕ) :
    ((1#32 <<< slave).setWidth 16).getLsbD 0 = decide (slave = 0) := by
  rw [BitVec.getLsbD_setWidth, BitVec.getLsbD_shiftLeft]
  by_cases h : slave = 0
  · simp [h]
  · simp [h, Nat.pos_of_ne_zero h]

theorem ne_slaveSel_of_drives {c : AltAvalonSpiCommand} (h : c.drives = true) :
    c.place ≠ .slaveSel := by
  intro hp
  rw [AltAvalonSpiCommand.drives, hp] at h
  cases h

theorem Selected.first (h : s.Selected) (hst : s.Strobes) (hs : s.second = false) :
    (s.step i).Selected := by
  have hc := command_step_first (i := i) hs
  have hhold := hst.slaveSelectHoldingReg (i := i)
  have hsel := hst.slaveSelectReg (i := i)
  rw [hs, if_neg (by simp)] at hhold
  refine ⟨by rw [hc]; exact h.toggle, by rw [hc]; exact h.release, ?_, ?_, ?_⟩
  · rw [hst.ssoReg, hs, if_neg (by simp), if_neg (by simp), hc, h.ssoReg]
  · rw [hc, hhold]
    exact h.holding
  · rw [hc, hsel]
    intro hd
    split
    · exact h.holding (ne_slaveSel_of_drives hd)
    · exact h.selected hd

theorem Selected.second (h : s.Selected) (hst : s.Strobes) (hs : s.second = true) :
    (s.step i).Selected := by
  have hc := command_step_second (i := i) hs
  obtain ⟨hflags, hslave⟩ := AltAvalonSpiCommand.next_arguments (c := s.command) (x := s.result)
  have hdrives := AltAvalonSpiCommand.drives_next (x := s.result) h.toggle h.release
  have hhold : (s.step i).spi.spiSlaveSelectHoldingReg.getLsbD 0 =
      decide (s.command.slave % 32 = 0) := by
    rw [hst.slaveSelectHoldingReg]
    split
    · exact getLsbD_shiftLeft_slave _
    · next hp => exact h.holding fun hsel => hp ⟨hs, hsel⟩
  refine ⟨by rw [hc, hflags]; exact h.toggle, ?_, ?_, ?_, ?_⟩
  · rw [hc, hflags]
    intro hp
    cases hpl : s.command.place with
    | waitTmt =>
      rcases AltAvalonSpiCommand.place_next_of_waitTmt (x := s.result) hpl with
        hw | ⟨-, hm⟩ | ⟨hd, -⟩
      · rw [hw] at hp
        cases hp
      · exact hm
      · rw [hd] at hp
        cases hp
    | slaveSel =>
      rcases AltAvalonSpiCommand.next_of_slaveSel s.result hpl with hn | hn <;> rw [hn] at hp <;>
        cases hp
    | control =>
      rw [AltAvalonSpiCommand.next_of_control hpl] at hp
      cases hp
    | discard =>
      rw [AltAvalonSpiCommand.next_of_discard hpl] at hp
      cases hp
    | release => exact h.release hpl
    | done =>
      rw [AltAvalonSpiCommand.next_of_done hpl, hpl] at hp
      cases hp
    | poll => exact absurd hp (AltAvalonSpiCommand.stage_next_of_loop (Or.inl hpl)).2
    | txData byte =>
      exact absurd hp (AltAvalonSpiCommand.stage_next_of_loop (Or.inr (Or.inl ⟨byte, hpl⟩))).2
    | rxData => exact absurd hp (AltAvalonSpiCommand.stage_next_of_loop (Or.inr (Or.inr hpl))).2
  · rw [hst.ssoReg, hc, hdrives, h.ssoReg, hs]
    simp only [true_and]
  · rw [hc, hslave]
    exact fun _ => hhold
  · rw [hc, hslave, hdrives, hst.slaveSelectReg]
    intro hd
    split
    · next hload =>
      refine h.holding fun hsel => ?_
      rw [hsel] at hd
      simp [AltAvalonSpiCommand.drives, hsel] at hd
    · next hload =>
      refine h.selected ?_
      by_cases hp : s.command.place = .control
      -- it is forced now: the slave select register takes the slave
      · have hsso : s.spi.ssoReg = false := by
          rw [h.ssoReg, AltAvalonSpiCommand.drives, hp]
        exact absurd (Or.inr ⟨hs, hp, hsso⟩) hload
      · rw [if_neg hp] at hd
        split at hd
        · cases hd
        · exact hd

/-- **Every clock keeps the slave select as the function wants it.** -/
theorem Selected.step (h : s.Selected) (hst : s.Strobes) : (s.step i).Selected := by
  cases hs : s.second with
  | false => exact h.first hst hs
  | true => exact h.second hst hs

/-- **The pin**: it is low while the function forces the slave select of the first slave. -/
theorem Selected.ssN {bytes sent got : List (BitVec 8)} {w r : ℕ} (h : s.Selected)
    (hl : s.Ledger bytes w r p sent got) (hm : s.spi.Matches p) :
    s.spi.ssN = !(s.command.drives && decide (s.command.slave % 32 = 0)) := by
  rw [Spi.ssN, h.ssoReg]
  cases hd : s.command.drives with
  | true => rw [Bool.or_true, if_pos rfl, h.selected hd, Bool.true_and]
  | false =>
    -- before the window and after it no byte is on the line
    have hempty : p.Empty := by
      rcases hl.phase.empty_or_busy with hempty | ⟨-, -, hp, -⟩
      · exact hempty
      · rw [AltAvalonSpiCommand.drives, hp] at hd
        cases hd
    rw [(hm.idle hempty.1).enableSS]
    rfl

end NiosSystem

/-! ## The window -/

namespace Session

open AltAvalonSpiCommand (call merge toggleSsN)

variable {σ : Session} {slave readLength : ℕ} {writeData : List (BitVec 8)} {flags : BitVec 32}

theorem arguments (hc : σ.command = call slave writeData readLength flags) (n : ℕ) :
    (σ.system n).command.flags = flags ∧ (σ.system n).command.slave = slave := by
  induction n with
  | zero =>
    have hcommand : (σ.system 0).command = call slave writeData readLength flags := hc
    rw [hcommand]
    exact ⟨rfl, rfl⟩
  | succ n ih =>
    rw [system_succ, NiosSystem.step_arguments.1, NiosSystem.step_arguments.2]
    exact ih

theorem stage_succ (σ : Session) (n : ℕ) :
    (σ.system n).command.stage ≤ (σ.system (n + 1)).command.stage ∧
      (σ.system (n + 1)).command.stage ≤ (σ.system n).command.stage + 1 := by
  rw [system_succ]
  cases hs : (σ.system n).second with
  | false =>
    rw [NiosSystem.command_step_first hs]
    omega
  | true =>
    rw [NiosSystem.command_step_second hs]
    exact AltAvalonSpiCommand.stage_next

section Call

variable (hc : σ.command = call slave writeData readLength flags)
  (h : (σ.history.spi σ.start).AtRest) (ht : flags &&& toggleSsN = 0#32)
  (hsso : (σ.history.spi σ.start).ssoReg = false)

include hc h ht hsso

theorem selected (n : ℕ) : (σ.system n).Selected := by
  induction n with
  | zero =>
    have hcommand : (σ.system 0).command = call slave writeData readLength flags := hc
    have hdrives : (call slave writeData readLength flags).drives = false := rfl
    refine ⟨?_, ?_, ?_, ?_, ?_⟩ <;> rw [hcommand]
    · exact ht
    · intro hp
      cases hp
    · rw [hdrives]
      exact hsso
    · exact fun hp => absurd rfl hp
    · rw [hdrives]
      intro hd
      cases hd
  | succ n ih =>
    rw [system_succ]
    exact ih.step (strobes h n)

end Call

/-- `SCLK` moves inside the second stage only. -/
theorem stage_of_sclk_changes (hc : σ.command = call slave writeData readLength flags)
    (h : (σ.history.spi σ.start).AtRest) (hpos : 0 < writeData.length + readLength) {n : ℕ}
    (hn : σ.run.sclk.ChangesAt (σ.start + n)) :
    (σ.system n).command.stage = 1 ∧ (σ.system (n + 1)).command.stage = 1 := by
  obtain ⟨t, ht, -, -⟩ := Spi.Run.sends_of_sclk_changes hn
  rw [run_spi] at ht
  have htrans := (σ.matches_port n).transmitting
  rw [ht.transmitting] at htrans
  rcases (ledger hc h hpos n).phase.empty_or_busy with hempty | ⟨-, -, hp, -⟩
  · rw [hempty.1] at htrans
    cases htrans
  · refine ⟨by rw [AltAvalonSpiCommand.stage, hp], ?_⟩
    rw [system_succ]
    cases hs : (σ.system n).second with
    | false => rw [NiosSystem.command_step_first hs, AltAvalonSpiCommand.stage, hp]
    | true =>
      rw [NiosSystem.command_step_second hs]
      exact (AltAvalonSpiCommand.stage_next_of_loop (Or.inl hp)).1

/-- **The slave select of a call** without the flag `TOGGLE_SS_N`, on a core at rest whose slave select
is not forced, once the call has returned. The steps after `a` up to `b` are a window: for the first
slave `SS_n` is low in it, and after it only if the flag `MERGE` keeps it low; for any other slave it is
always high. Every edge of `SCLK` is inside the window. -/
theorem slave_select_window (σ : Session) (slave readLength : ℕ) (writeData : List (BitVec 8))
    (flags : BitVec 32) (hslave : slave < 32)
    (hc : σ.command = call slave writeData readLength flags)
    (h : (σ.history.spi σ.start).AtRest) (hpos : 0 < writeData.length + readLength)
    (ht : flags &&& toggleSsN = 0#32) (hsso : (σ.history.spi σ.start).ssoReg = false) (n : ℕ)
    (hn : (σ.system n).command.place = .done) :
    ∃ a b, σ.start ≤ a ∧ a < b ∧ b < σ.start + n ∧
      (∀ k, σ.start ≤ k → k ≤ σ.start + n →
        (σ.run.ssN k = false ↔
          slave = 0 ∧ a < k ∧ (k ≤ b ∨ flags &&& merge ≠ 0#32))) ∧
      (∀ k, σ.start ≤ k → k < σ.start + n → σ.run.sclk.ChangesAt k → a < k ∧ k < b) := by
  have hmono : Monotone fun m => (σ.system m).command.stage :=
    monotone_nat_of_le_succ fun m => (σ.stage_succ m).1
  have hzero : (σ.system 0).command.stage = 0 := by
    have hcommand : (σ.system 0).command = call slave writeData readLength flags := hc
    rw [hcommand]
    rfl
  have hdone : (σ.system n).command.stage = 2 := by rw [AltAvalonSpiCommand.stage, hn]
  -- the last step of the first stage, and of the second
  obtain ⟨a, han, ha⟩ := exists_last_step hmono (v := 0) (n := n) (by rw [hzero]) (by rw [hdone]; omega)
  obtain ⟨b, hbn, hb⟩ := exists_last_step hmono (v := 1) (n := n) (by rw [hzero]; omega)
    (by rw [hdone]; omega)
  have hab : a < b := by
    have hstep := (σ.stage_succ a).2
    have ha' := ha a
    have hb' := hb (a + 1)
    omega
  refine ⟨σ.start + a, σ.start + b, by omega, by omega, by omega, ?_, ?_⟩
  · intro k hk hk'
    obtain ⟨m, rfl⟩ := Nat.exists_eq_add_of_le hk
    have hpin : σ.run.ssN (σ.start + m) = (σ.system m).spi.ssN :=
      congrArg Spi.ssN (σ.run_spi m)
    obtain ⟨hflags, hnumber⟩ := arguments hc m
    rw [hpin, (selected hc h ht hsso m).ssN (ledger hc h hpos m) (σ.matches_port m), hnumber,
      Nat.mod_eq_of_lt hslave, Bool.not_eq_false', Bool.and_eq_true, decide_eq_true_iff,
      AltAvalonSpiCommand.drives_iff, hflags, and_comm]
    have ham := ha m
    have hbm := hb m
    have hmax : (σ.system m).command.stage ≤ 2 := by
      have hle := hmono (show m ≤ n by omega)
      simp only [hdone] at hle
      exact hle
    refine and_congr_right fun _ => ?_
    by_cases hm : flags &&& merge = 0#32
    · simp only [hm, ne_eq, not_true_eq_false, and_false, or_false]
      omega
    · simp only [hm, ne_eq, not_false_eq_true, and_true, or_true]
      omega
  · intro k hk hk' hch
    obtain ⟨m, rfl⟩ := Nat.exists_eq_add_of_le hk
    obtain ⟨h1, h2⟩ := stage_of_sclk_changes hc h hpos hch
    have ham := ha m
    have hbm := hb (m + 1)
    omega

theorem slave_select_window_steady :
    ∃ a b, a < b ∧ ∀ k, k ≤ 7088 →
      ((steady true (call 0 [0xA5#8] 1 0#32)).run.ssN k = false ↔ a < k ∧ k ≤ b) := by
  obtain ⟨a, b, -, hab, -, hpin, -⟩ := slave_select_window (steady true (call 0 [0xA5#8] 1 0#32)) 0 1
    [0xA5#8] 0#32 (by decide) rfl (steady_atRest _ _) (by decide) rfl rfl 7088 steady_done
  refine ⟨a, b, hab, fun k hk => ?_⟩
  have hk' := hpin k (Nat.zero_le k) (by rw [show (steady true _).start = 0 from rfl]; omega)
  simpa using hk'

end Session

end ADS131A0X
