import ADS131A0X.Nios.Ledger

/-!
# The return of a call

The polls of a call end: each clock in which the processor does something brings the call closer to
its return, and the transfer goes on without the processor. A byte takes 3539 clocks at most. The
call with nothing to write and nothing to read is the exception, and polls forever.

## Main definitions

* `NiosSystem.Active`: the clocks of the processor
* `NiosSystem.rank`: a bound on the active clocks until the return

## Main results

* `NiosSystem.Ledger.rank_step`: the rank drops at every active clock
* `Session.done_of_active`: the return, by the number of active clocks
* `Session.command_returns`, `Session.empty_call_never_returns`: which calls return
-/

namespace ADS131A0X

open Transition Waveform

namespace NiosSystem

/-- An access begins or ends at this clock. -/
def Active (s : NiosSystem) (i : Inputs) : Prop := s.second = true ∨ i.go = true

instance (s : NiosSystem) (i : Inputs) : Decidable (s.Active i) :=
  inferInstanceAs (Decidable (_ ∨ _))

/-- A bound on the active clocks until the return of the function. -/
def rank (s : NiosSystem) (p : SerialPort) : ℕ :=
  let loop := 4 + 3539 * s.command.left
  match s.command.place with
  | .slaveSel => loop + 6 - s.second.toNat
  | .control => loop + 4 - s.second.toNat
  | .discard => loop + 2 - s.second.toNat
  | .poll =>
    if p.Busy then loop + 5 + p.clocksLeft
    else if s.command.credits = 1 then loop - s.second.toNat
    -- the byte has arrived: a poll that has read the status before has to be made again
    else if s.second = true ∧ s.result &&& statusRrdyMsk = 0#32 then loop + 5
    else loop + 4 - s.second.toNat
  | .txData _ => loop + 3537 - s.second.toNat
  | .rxData => loop + 2 - s.second.toNat
  | .waitTmt => 4 - s.second.toNat
  | .release => 2 - s.second.toNat
  | .done => 0

variable {s : NiosSystem} {p : SerialPort} {i : Inputs} {bytes sent got : List (BitVec 8)} {w r : ℕ}

theorem done_of_rank (h : s.rank p = 0) : s.command.place = .done := by
  have hle : s.second.toNat ≤ 1 := Bool.toNat_le s.second
  unfold rank at h
  cases hp : s.command.place with
  | done => rfl
  | poll =>
    simp only [hp] at h
    split at h
    · omega
    · split at h
      · omega
      · split at h <;> omega
  | slaveSel | control | discard | txData _ | rxData | waitTmt | release =>
    simp only [hp] at h
    omega

section Poll

variable (hp : s.command.place = .poll)

include hp

theorem rank_of_poll_room (hempty : p.Empty) (hcred : s.command.credits = 1) :
    s.rank p = 4 + 3539 * s.command.left - s.second.toNat := by
  unfold rank
  simp only [hp]
  rw [if_neg hempty.not_busy, if_pos hcred]

theorem rank_of_poll_busy (hbusy : p.Busy) :
    s.rank p = 9 + 3539 * s.command.left + p.clocksLeft := by
  unfold rank
  simp only [hp]
  rw [if_pos hbusy]
  omega

theorem rank_of_poll_seen (hempty : p.Empty) (hcred : s.command.credits = 0)
    (hseen : s.second = true → s.result &&& statusRrdyMsk ≠ 0#32) :
    s.rank p = 8 + 3539 * s.command.left - s.second.toNat := by
  unfold rank
  simp only [hp]
  rw [if_neg hempty.not_busy, if_neg (by simp [hcred]), if_neg fun h => hseen h.1 h.2]
  omega

theorem rank_of_poll_missed (hempty : p.Empty) (hcred : s.command.credits = 0)
    (hs : s.second = true) (hmissed : s.result &&& statusRrdyMsk = 0#32) :
    s.rank p = 9 + 3539 * s.command.left := by
  unfold rank
  simp only [hp]
  rw [if_neg hempty.not_busy, if_neg (by simp [hcred]), if_pos ⟨hs, hmissed⟩]
  omega

theorem rank_of_poll_le (hempty : p.Empty) (hcred : s.command.credits = 0) :
    s.rank p ≤ 9 + 3539 * s.command.left := by
  by_cases hmissed : s.second = true ∧ s.result &&& statusRrdyMsk = 0#32
  · exact (rank_of_poll_missed hp hempty hcred hmissed.1 hmissed.2).le
  · rw [rank_of_poll_seen hp hempty hcred fun h2 hres => hmissed ⟨h2, hres⟩]
    omega

end Poll

/-- Before the return there is an access to make. -/
theorem access_isSome (h : s.command.place ≠ .done) : s.command.access.isSome = true := by
  rw [AltAvalonSpiCommand.access]
  cases hp : s.command.place with
  | done => exact absurd hp h
  | _ => rfl

/-- The rank in the first cycle of an access, or between two. -/
theorem Ledger.rank_first (h : s.Ledger bytes w r p sent got) (hm : s.spi.Matches p)
    (hs : s.second = false) (hp : s.command.place ≠ .done) :
    (s.step i).rank (p.next { miso := i.miso }) + i.go.toNat ≤ s.rank p := by
  have hc := command_step_first (i := i) hs
  have h2 : (s.step i).second = i.go := by
    simp [NiosSystem.step, hs, access_isSome hp]
  have hle : i.go.toNat ≤ 1 := Bool.toNat_le i.go
  have hphase := h.phase
  unfold Phase at hphase
  cases hpl : s.command.place with
  | poll =>
    simp only [hpl] at hphase
    have hpl' : (s.step i).command.place = .poll := by rw [hc, hpl]
    have hpolls : s.command.polls = true := by rw [AltAvalonSpiCommand.polls, hpl]; rfl
    rcases hphase with ⟨hempty, hr, hcred, -⟩ | ⟨hbusy, hr, hcred, -⟩ | ⟨hempty, hr, hcred⟩
    · rw [hempty.next, rank_of_poll_room hpl' hempty (by rw [hc]; exact hcred),
        rank_of_poll_room hpl hempty hcred, hc, h2, hs, Bool.toNat_false]
      omega
    -- the exchange goes on
    · rw [rank_of_poll_busy hpl hbusy]
      obtain ⟨hclocks, -, -, ⟨-, hbusy', -⟩ | ⟨-, hempty', -⟩⟩ := hbusy.next hr i.miso
      · rw [rank_of_poll_busy hpl' hbusy', hc]
        omega
      · have hmax := rank_of_poll_le hpl' hempty' (by rw [hc]; exact hcred)
        rw [hc] at hmax
        omega
    -- a poll that begins now sees the byte
    · have hseen : (s.step i).second = true → (s.step i).result &&& statusRrdyMsk ≠ 0#32 := by
        intro hg
        rw [result_of_polls hg hpolls, ne_eq, Spi.status_rrdy, hm.rrdy, hr]
        simp
      rw [hempty.next, rank_of_poll_seen hpl' hempty (by rw [hc]; exact hcred) hseen,
        rank_of_poll_seen hpl hempty hcred (by simp [hs]), hc, h2, hs, Bool.toNat_false]
      omega
  | done => exact absurd hpl hp
  | slaveSel | control | discard | txData _ | rxData | waitTmt | release =>
    unfold rank
    rw [hc, h2, hs]
    simp only [hpl, Bool.toNat_false]
    omega

/-! ### The second cycle of an access -/

section Second

variable (hs : s.second = true)

include hs

theorem rank_second_preamble (p' : SerialPort)
    (hp : s.command.place = .slaveSel ∨ s.command.place = .control) :
    (s.step i).rank p' + 1 ≤ s.rank p := by
  have h2 := second_step_second (i := i) hs
  have hcs := command_step_second (i := i) hs
  rcases hp with hp | hp
  · rcases AltAvalonSpiCommand.next_of_slaveSel s.result hp with hc | hc
    all_goals
      unfold rank
      rw [hcs, hc, h2, hs]
      simp only [hp, Bool.toNat_false, Bool.toNat_true, AltAvalonSpiCommand.left]
      omega
  · unfold rank
    rw [hcs, AltAvalonSpiCommand.next_of_control hp, h2, hs]
    simp only [hp, Bool.toNat_false, Bool.toNat_true, AltAvalonSpiCommand.left]
    omega

theorem Ledger.rank_second_discard (h : s.Ledger bytes w r p sent got)
    (hp : s.command.place = .discard) :
    (s.step i).rank (p.next { read := true, miso := i.miso }) + 1 ≤ s.rank p := by
  have hphase := h.phase
  unfold Phase at hphase
  simp only [hp] at hphase
  obtain ⟨hempty, hcred⟩ := hphase
  have hc := (command_step_second (i := i) hs).trans (AltAvalonSpiCommand.next_of_discard hp)
  have hempty' : ({ p with rrdy := false } : SerialPort).Empty := hempty
  have hnew := rank_of_poll_room (s := s.step i) (by rw [hc]) hempty' (by rw [hc]; exact hcred)
  have hold : s.rank p = 5 + 3539 * s.command.left := by
    unfold rank
    simp only [hp, hs, Bool.toNat_true]
    omega
  rw [hempty.next_read, hnew, hold, hc, second_step_second hs]
  simp only [Bool.toNat_false, AltAvalonSpiCommand.left]
  omega

theorem Ledger.rank_second_poll (h : s.Ledger bytes w r p sent got)
    (hp : s.command.place = .poll) :
    (s.step i).rank (p.next { miso := i.miso }) + 1 ≤ s.rank p := by
  have h2 := second_step_second (i := i) hs
  have hcs := command_step_second (i := i) hs
  have hphase := h.phase
  unfold Phase at hphase
  simp only [hp] at hphase
  rcases hphase with ⟨hempty, hr, hcred, hstat⟩ | ⟨hbusy, hr, hcred, hstat⟩ | ⟨hempty, hr, hcred⟩
  -- one byte less is left
  · obtain ⟨-, hroom⟩ := hstat hs
    obtain ⟨byte, rest, zeros, hc, hbytes⟩ :=
      AltAvalonSpiCommand.next_of_poll_room hp hcred hroom (h.left_pos hp hempty hr)
    have hlen := congrArg List.length hbytes
    rw [List.length_cons, List.length_append, List.length_append, List.length_replicate,
      List.length_replicate] at hlen
    rw [rank_of_poll_room hp hempty hcred, hs]
    unfold rank
    rw [hcs, hc, h2]
    simp only [Bool.toNat_false, Bool.toNat_true, AltAvalonSpiCommand.left]
    omega
  · have hc := hcs.trans (AltAvalonSpiCommand.next_of_poll_wait hp hcred (hstat hs))
    rw [rank_of_poll_busy hp hbusy]
    obtain ⟨hclocks, -, -, ⟨-, hbusy', -⟩ | ⟨-, hempty', -⟩⟩ := hbusy.next hr i.miso
    · rw [rank_of_poll_busy (by rw [hc]) hbusy', hc]
      simp only [AltAvalonSpiCommand.left]
      omega
    · have hmax := rank_of_poll_le (s := s.step i) (by rw [hc]) hempty' (by rw [hc]; exact hcred)
      rw [hc] at hmax
      simp only [AltAvalonSpiCommand.left] at hmax ⊢
      omega
  -- the byte has arrived before the status was read, or the status is read once more
  · rw [hempty.next]
    by_cases hready : s.result &&& statusRrdyMsk = 0#32
    · have hc := hcs.trans (AltAvalonSpiCommand.next_of_poll_wait hp hcred hready)
      rw [rank_of_poll_missed hp hempty hcred hs hready,
        rank_of_poll_seen (by rw [hc]) hempty (by rw [hc]; exact hcred) (by simp [h2]), hc]
      simp only [AltAvalonSpiCommand.left]
      omega
    · have hc := hcs.trans (AltAvalonSpiCommand.next_of_poll_arrived hp hcred hready)
      rw [rank_of_poll_seen hp hempty hcred fun _ => hready, hs]
      unfold rank
      rw [hc, h2]
      simp only [Bool.toNat_false, Bool.toNat_true, AltAvalonSpiCommand.left]
      omega

theorem Ledger.rank_second_txData (h : s.Ledger bytes w r p sent got) {byte : BitVec 8}
    (hp : s.command.place = .txData byte) :
    (s.step i).rank (p.next { write := some byte, miso := i.miso }) + 1 ≤ s.rank p := by
  have hphase := h.phase
  unfold Phase at hphase
  simp only [hp] at hphase
  obtain ⟨hempty, -, -, hstat⟩ := hphase
  have hc := (command_step_second (i := i) hs).trans (AltAvalonSpiCommand.next_of_txData hp hstat)
  have hbusy : ({ p with pending := some byte } : SerialPort).Busy := by
    rw [SerialPort.Busy, hempty.1]
    rfl
  have hclocks : ({ p with pending := some byte } : SerialPort).clocksLeft = 3530 := by
    rw [SerialPort.clocksLeft, hempty.1]
    rfl
  have hold : s.rank p = 3540 + 3539 * s.command.left := by
    unfold rank
    simp only [hp, hs, Bool.toNat_true]
    omega
  rw [hempty.next_write, rank_of_poll_busy (by rw [hc]) hbusy, hclocks, hold, hc]
  simp only [AltAvalonSpiCommand.left]
  omega

theorem Ledger.rank_second_rxData (h : s.Ledger bytes w r p sent got)
    (hp : s.command.place = .rxData) :
    (s.step i).rank (p.next { read := true, miso := i.miso }) + 1 ≤ s.rank p := by
  have hphase := h.phase
  unfold Phase at hphase
  simp only [hp] at hphase
  obtain ⟨hempty, -, hcred, -⟩ := hphase
  have h2 := second_step_second (i := i) hs
  obtain ⟨place, ignore, data, hc, -, hplace⟩ :=
    AltAvalonSpiCommand.next_of_rxData s.result hp
  have hc' := (command_step_second (i := i) hs).trans hc
  have hempty' : ({ p with rrdy := false } : SerialPort).Empty := hempty
  have hold : s.rank p = 5 + 3539 * s.command.left := by
    unfold rank
    simp only [hp, hs, Bool.toNat_true]
    omega
  rw [hempty.next_read, hold]
  rcases hplace with ⟨rfl, -⟩ | ⟨rfl, -⟩
  · unfold rank
    rw [hc', h2]
    simp only [Bool.toNat_false]
    omega
  · rw [rank_of_poll_room (by rw [hc']) hempty' (by rw [hc', hcred]; rfl), hc', h2]
    simp only [Bool.toNat_false, AltAvalonSpiCommand.left]
    omega

theorem Ledger.rank_second_leaving (h : s.Ledger bytes w r p sent got) (p' : SerialPort)
    (hp : s.command.place = .waitTmt ∨ s.command.place = .release) :
    (s.step i).rank p' + 1 ≤ s.rank p := by
  have h2 := second_step_second (i := i) hs
  have hcs := command_step_second (i := i) hs
  have hphase := h.phase
  unfold Phase at hphase
  rcases hp with hp | hp
  · simp only [hp] at hphase
    obtain ⟨place, hplace, hc⟩ := AltAvalonSpiCommand.next_of_waitTmt hp (hphase.2.2 hs)
    unfold rank
    rw [hcs, hc, h2, hs]
    rcases hplace with rfl | rfl <;> simp [hp]
  · unfold rank
    rw [hcs, AltAvalonSpiCommand.next_of_release hp, hs]
    simp [hp]

end Second

/-- **The rank drops at every active clock**, and never grows. -/
theorem Ledger.rank_step (h : s.Ledger bytes w r p sent got) (hm : s.spi.Matches p)
    (hst : s.Strobes) (hp : s.command.place ≠ .done) :
    (s.step i).rank (p.next (s.spi.portInputs (s.bus i))) + (if s.Active i then 1 else 0) ≤
      s.rank p := by
  rw [hst.portInputs]
  cases hs : s.second with
  | false =>
    have hgo : (if s.Active i then 1 else 0) = i.go.toNat := by
      have hactive : s.Active i ↔ i.go = true := by simp [Active, hs]
      simp only [hactive]
      cases i.go <;> rfl
    rw [hgo, Bool.false_and]
    exact h.rank_first hm hs hp
  | true =>
    have hactive : s.Active i := Or.inl hs
    rw [if_pos hactive, if_pos rfl, Bool.true_and, AltAvalonSpiCommand.writes,
      AltAvalonSpiCommand.reads]
    cases hpl : s.command.place with
    | slaveSel => exact rank_second_preamble hs _ (Or.inl hpl)
    | control => exact rank_second_preamble hs _ (Or.inr hpl)
    | discard => simpa [beq_eq_decide] using h.rank_second_discard hs hpl
    | poll => simpa [beq_eq_decide] using h.rank_second_poll hs hpl
    | txData byte => simpa [beq_eq_decide] using h.rank_second_txData hs hpl
    | rxData => simpa [beq_eq_decide] using h.rank_second_rxData hs hpl
    | waitTmt => exact h.rank_second_leaving hs _ (Or.inl hpl)
    | release => exact h.rank_second_leaving hs _ (Or.inr hpl)
    | done => exact absurd hpl hp

theorem place_done_step (h : s.command.place = .done) : (s.step i).command.place = .done := by
  cases hs : s.second with
  | false => rw [command_step_first hs, h]
  | true => rw [command_step_second hs, AltAvalonSpiCommand.next_of_done h, h]

end NiosSystem

namespace Session

open AltAvalonSpiCommand (call)

variable {σ : Session} {slave readLength : ℕ} {writeData : List (BitVec 8)} {flags : BitVec 32}

/-- The clocks at which an access begins or ends. -/
def active (σ : Session) (n : ℕ) : Prop := (σ.system n).Active (σ.input n)

instance (σ : Session) : DecidablePred σ.active :=
  fun n => inferInstanceAs (Decidable ((σ.system n).Active (σ.input n)))

section Call

variable (hc : σ.command = call slave writeData readLength flags)
  (h : (σ.history.spi σ.start).AtRest) (hpos : 0 < writeData.length + readLength)

include hc h hpos

theorem activeRanking (b : ℕ) :
    ActiveRanking (fun n => (σ.system n).rank (σ.run.port (σ.start + n))) σ.active
      (fun n => (σ.system n).command.place = .done) b := by
  have hstep : ∀ n, (σ.system n).command.place ≠ .done →
      (σ.system (n + 1)).rank (σ.run.port (σ.start + (n + 1))) + (if σ.active n then 1 else 0) ≤
        (σ.system n).rank (σ.run.port (σ.start + n)) := by
    intro n hn
    rw [port_succ, system_succ]
    exact (ledger hc h hpos n).rank_step (σ.matches_port n) (strobes h n) hn
  constructor
  · exact fun n hzero => NiosSystem.done_of_rank hzero
  · intro n _ hn
    rw [system_succ]
    exact NiosSystem.place_done_step hn
  · intro n _ hn
    have := hstep n hn
    omega
  · intro n _ hn hactive
    have := hstep n hn
    rw [if_pos hactive] at this
    omega

/-- A call returns once there were enough active clocks. -/
theorem done_of_active {n : ℕ}
    (hn : 10 + 3539 * (writeData.length + readLength) ≤ Nat.count σ.active n) :
    (σ.system n).command.place = .done := by
  have hzero : (σ.system 0).rank (σ.run.port (σ.start + 0)) =
      10 + 3539 * (writeData.length + readLength) := by
    have hcommand : (σ.system 0).command = call slave writeData readLength flags := hc
    have hsecond : (σ.system 0).second = false := rfl
    unfold NiosSystem.rank
    rw [hcommand, hsecond]
    simp only [call, AltAvalonSpiCommand.left, Bool.toNat_false]
    omega
  exact (activeRanking hc h hpos n).goal_of_count le_rfl (hzero ▸ hn)

end Call

/-- **A call returns**: with something to write or to read, on a core at rest with any past and with
any levels of `MISO`, the function has returned once there were `10 + 3539 (w + r)` clocks at which it
began or ended an access, however long it pauses between its accesses. -/
theorem command_returns (σ : Session) (slave readLength : ℕ) (writeData : List (BitVec 8))
    (flags : BitVec 32) (hc : σ.command = call slave writeData readLength flags)
    (h : (σ.history.spi σ.start).AtRest) (hpos : 0 < writeData.length + readLength) (n : ℕ)
    (hn : 10 + 3539 * (writeData.length + readLength) ≤ Nat.count σ.active n) :
    (σ.system n).command.place = .done :=
  done_of_active hc h hpos hn

/-- A call right after a reset, by a processor that never pauses, with `MISO` at one level. -/
def steady (miso : Bool) (command : AltAvalonSpiCommand) : Session where
  history := { event := fun _ => .reset }
  start := 0
  command
  input := fun _ => { miso, go := true }

theorem steady_atRest (miso : Bool) (command : AltAvalonSpiCommand) :
    ((steady miso command).history.spi (steady miso command).start).AtRest := ⟨rfl, rfl, rfl⟩

/-- A processor that never pauses is active at every clock. -/
theorem count_active_of_go (h : ∀ k, (σ.input k).go = true) (n : ℕ) : Nat.count σ.active n = n :=
  Nat.count_of_forall fun k _ => Or.inr (h k)

theorem count_steady_active (miso : Bool) (command : AltAvalonSpiCommand) (n : ℕ) :
    Nat.count (steady miso command).active n = n :=
  count_active_of_go (fun _ => rfl) n

theorem command_returns_steady :
    ((steady true (call 0 [0xA5#8] 1 0#32)).system 7088).command.place = .done :=
  command_returns _ 0 1 [0xA5#8] 0#32 rfl (steady_atRest _ _) (by decide) 7088
    (by rw [count_steady_active]; decide)

end Session

/-! ## The call that never returns -/

namespace NiosSystem

/-- The function polls with nothing left to write, and no byte can arrive. -/
structure Spins (s : NiosSystem) (p : SerialPort) : Prop where
  left : s.command.left = 0
  empty : p.Empty
  place :
    match s.command.place with
    | .slaveSel | .control | .discard => s.command.credits = 1
    | .poll =>
      s.command.credits ≠ 0 ∧ p.rrdy = false ∧
        (s.second = true →
          s.result &&& statusRrdyMsk = 0#32 ∧ s.result &&& statusTrdyMsk ≠ 0#32)
    | _ => False

variable {s : NiosSystem} {p : SerialPort} {i : Inputs}

/-- It never writes the data register. -/
theorem Spins.writes (h : s.Spins p) : s.command.writes = none := by
  have hplace := h.place
  rw [AltAvalonSpiCommand.writes]
  cases hp : s.command.place with
  | txData byte =>
    rw [hp] at hplace
    exact hplace.elim
  | _ => rfl

theorem Spins.not_done (h : s.Spins p) : s.command.place ≠ .done := by
  intro hp
  have hplace := h.place
  rw [hp] at hplace
  exact hplace

theorem Spins.first (h : s.Spins p) (hm : s.spi.Matches p) (hs : s.second = false) :
    (s.step i).Spins p := by
  have hc := command_step_first (i := i) hs
  have hplace := h.place
  refine ⟨by rw [hc]; exact h.left, h.empty, ?_⟩
  rw [hc]
  cases hp : s.command.place with
  | poll =>
    simp only [hp] at hplace ⊢
    refine ⟨hplace.1, hplace.2.1, fun h2 => ?_⟩
    rw [result_of_polls h2 (by rw [AltAvalonSpiCommand.polls, hp]; rfl), Spi.status_rrdy, ne_eq,
      Spi.status_trdy, hm.rrdy, hm.trdy, hplace.2.1, h.empty.trdy]
    simp
  | slaveSel | control | discard | txData _ | rxData | waitTmt | release | done =>
    rw [hp] at hplace
    exact hplace

theorem Spins.second (h : s.Spins p) (hs : s.second = true) :
    (s.step i).Spins (p.next { read := s.command.reads, miso := i.miso }) := by
  have h2 := second_step_second (i := i) hs
  have hcs := command_step_second (i := i) hs
  have hplace := h.place
  rw [AltAvalonSpiCommand.reads]
  cases hp : s.command.place with
  | slaveSel =>
    simp only [hp] at hplace
    have hread : (Place.slaveSel == Place.discard || Place.slaveSel == Place.rxData) = false := rfl
    rw [hread, h.empty.next]
    rcases AltAvalonSpiCommand.next_of_slaveSel s.result hp with hc | hc
    all_goals
      rw [hc] at hcs
      exact ⟨by rw [hcs]; exact h.left, h.empty, by rw [hcs]; exact hplace⟩
  | control =>
    simp only [hp] at hplace
    have hread : (Place.control == Place.discard || Place.control == Place.rxData) = false := rfl
    rw [AltAvalonSpiCommand.next_of_control hp] at hcs
    rw [hread, h.empty.next]
    exact ⟨by rw [hcs]; exact h.left, h.empty, by rw [hcs]; exact hplace⟩
  | discard =>
    simp only [hp] at hplace
    have hread : (Place.discard == Place.discard || Place.discard == Place.rxData) = true := rfl
    rw [AltAvalonSpiCommand.next_of_discard hp] at hcs
    rw [hread, h.empty.next_read]
    refine ⟨by rw [hcs]; exact h.left, h.empty, ?_⟩
    rw [hcs, h2]
    exact ⟨by simp [hplace], rfl, by simp⟩
  | poll =>
    simp only [hp] at hplace
    obtain ⟨hcred, hr, hstat⟩ := hplace
    obtain ⟨hnone, hroom⟩ := hstat hs
    have hread : (Place.poll == Place.discard || Place.poll == Place.rxData) = false := rfl
    obtain ⟨credits, hcred', hc⟩ :=
      AltAvalonSpiCommand.next_of_poll_spin hp hcred hnone hroom h.left
    rw [hc] at hcs
    rw [hread, h.empty.next]
    refine ⟨by rw [hcs]; exact h.left, h.empty, ?_⟩
    rw [hcs, h2]
    exact ⟨hcred', hr, by simp⟩
  | txData _ | rxData | waitTmt | release | done =>
    rw [hp] at hplace
    exact hplace.elim

theorem Spins.step (h : s.Spins p) (hm : s.spi.Matches p) (hst : s.Strobes) :
    (s.step i).Spins (p.next (s.spi.portInputs (s.bus i))) ∧
      p.accepted (s.spi.portInputs (s.bus i)) = [] := by
  rw [hst.portInputs, h.writes, ite_self]
  refine ⟨?_, rfl⟩
  cases hs : s.second with
  | false =>
    rw [Bool.false_and, h.empty.next]
    exact h.first hm hs
  | true =>
    rw [Bool.true_and]
    exact h.second hs

end NiosSystem

namespace Session

open AltAvalonSpiCommand (call)

/-- **The empty call polls forever**: with nothing to write and nothing to read, the function never
returns, however often it polls, and no byte is sent. Its credits go to -1024, and no answer will
ever come. -/
theorem empty_call_never_returns (σ : Session) (slave : ℕ) (flags : BitVec 32)
    (hc : σ.command = call slave [] 0 flags) (h : (σ.history.spi σ.start).AtRest) (n : ℕ) :
    (σ.system n).command.place ≠ .done ∧
      emitted σ.run.accepted σ.start (σ.start + n) = [] := by
  have hspins : ∀ n, (σ.system n).Spins (σ.run.port (σ.start + n)) ∧
      emitted σ.run.accepted σ.start (σ.start + n) = [] := by
    intro n
    induction n with
    | zero =>
      have hcommand : (σ.system 0).command = call slave [] 0 flags := hc
      refine ⟨⟨by rw [hcommand]; rfl, port_start h, ?_⟩, by rw [Nat.add_zero, emitted_self]⟩
      rw [hcommand]
      rfl
    | succ n ih =>
      obtain ⟨hspin, hnone⟩ := ih.1.step (i := σ.input n) (σ.matches_port n) (strobes h n)
      refine ⟨by rw [port_succ, system_succ]; exact hspin, ?_⟩
      rw [← Nat.add_assoc, emitted_succ (Nat.le_add_right _ _),
        Spi.Run.accepted_eq (σ.run_event n), run_spi, ih.2, hnone]
      rfl
  exact ⟨(hspins n).1.not_done, (hspins n).2⟩

theorem empty_call_never_returns_steady :
    ((steady true (call 0 [] 0 0#32)).system 1000000).command.place ≠ .done :=
  (empty_call_never_returns _ 0 0#32 rfl (steady_atRest _ _) 1000000).1

end Session

end ADS131A0X
