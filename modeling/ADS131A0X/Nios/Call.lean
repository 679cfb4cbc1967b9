import ADS131A0X.Nios.Return

/-!
# What a call does

A call sends the bytes of `write_data`, then a zero for every byte to read, and stores the bytes that
answer the zeros. It overruns neither register of the core nor the buffer of the caller, and leaves
the core at rest. So calls can follow each other, and what is on the line is one after the other.

## Main definitions

* `Calls`: a run that was made by calls, with the bytes that they had to send

## Main results

* `Session.one_byte_in_flight`: at every clock of a call
* `Session.command_exchanges`: when the call has returned
* `Calls.line`: the line after any number of calls
-/

namespace ADS131A0X

open Waveform

namespace Session

open AltAvalonSpiCommand (call)

variable {σ : Session} {slave readLength : ℕ} {writeData : List (BitVec 8)} {flags : BitVec 32}
  {n : ℕ}

theorem spi_tmt_of_empty (hempty : (σ.run.port (σ.start + n)).Empty) :
    (σ.system n).spi.tmt = true := by
  rw [(σ.matches_port n).tmt, hempty.1, hempty.2]
  rfl

section Call

variable (hc : σ.command = call slave writeData readLength flags)
  (h : (σ.history.spi σ.start).AtRest) (hpos : 0 < writeData.length + readLength)

include hc h hpos

theorem length_sent (n : ℕ) :
    (emitted σ.run.accepted σ.start (σ.start + n)).length ≤ writeData.length + readLength := by
  have hl := ledger hc h hpos n
  have hlen := congrArg List.length hl.sent_append
  rw [List.length_append, hl.length_bytes] at hlen
  omega

section Return

variable (hn : (σ.system n).command.place = .done)

include hn

theorem empty_of_done : (σ.run.port (σ.start + n)).Empty ∧
    (σ.run.port (σ.start + n)).rrdy = false := by
  have hphase := (ledger hc h hpos n).phase
  unfold NiosSystem.Phase at hphase
  rwa [hn] at hphase

/-- All bytes are sent, each is answered, and the last answers are stored. -/
theorem accounts_of_done :
    emitted σ.run.accepted σ.start (σ.start + n) = writeData ++ List.replicate readLength 0#8 ∧
      (emitted σ.run.received σ.start (σ.start + n)).length = writeData.length + readLength ∧
      (σ.system n).command.readData =
        (emitted σ.run.received σ.start (σ.start + n)).drop writeData.length := by
  have hl := ledger hc h hpos n
  obtain ⟨hempty, hr⟩ := empty_of_done hc h hpos hn
  obtain ⟨taken, hgot, hignore, hread⟩ := hl.taken
  rw [NiosSystem.unread, hr, Bool.and_false] at hgot
  have htaken : emitted σ.run.received σ.start (σ.start + n) = taken := by simpa using hgot
  have hcount := hl.count
  rw [if_neg hempty.not_busy, htaken] at hcount
  have hfin : (σ.system n).command.Finished :=
    hl.finished.mpr (by rw [AltAvalonSpiCommand.leaving, hn])
  have hstored := hfin.2
  rw [hread, List.length_drop, hl.readLength] at hstored
  have hanswered : taken.length = writeData.length + readLength := by
    have hle := length_sent hc h hpos n
    have := hfin.1
    omega
  refine ⟨?_, by rw [htaken, hanswered], by rw [htaken, hread]⟩
  -- as many bytes are sent as there are, so nothing is left
  have hsend := hl.sent_append
  have hlen := congrArg List.length hsend
  rw [List.length_append, hl.length_bytes] at hlen
  have hnil : (σ.system n).command.toSend = [] := List.length_eq_zero_iff.mp (by omega)
  rwa [hnil, List.append_nil] at hsend

/-- The core is at rest again. -/
theorem atRest_of_done : (σ.system n).spi.AtRest where
  tmt := spi_tmt_of_empty (empty_of_done hc h hpos hn).1
  rdStrobe := by
    rw [(strobes h n).rdStrobe, AltAvalonSpiCommand.access, hn]
    exact Bool.and_false _
  wrStrobe := by
    rw [(strobes h n).wrStrobe, AltAvalonSpiCommand.access, hn]
    exact Bool.and_false _

theorem mosi_of_done :
    (stepsIn σ.run.sclk.FallsAt σ.start (σ.start + n)).map σ.run.mosi =
      (writeData ++ List.replicate readLength 0#8).flatMap msbFirst := by
  rw [← (accounts_of_done hc h hpos hn).1]
  refine Spi.Run.mosi_eq_of_tmt (Nat.le_add_right _ _) (σ.run_noReset _) ?_ ?_
  · rw [σ.run_spi_of_le le_rfl]
    exact h.tmt
  · rw [run_spi]
    exact (atRest_of_done hc h hpos hn).tmt

theorem miso_of_done :
    (σ.system n).command.readData.flatMap msbFirst =
      ((stepsIn σ.run.sclk.FallsAt σ.start (σ.start + n)).map σ.run.miso).drop
        (8 * writeData.length) := by
  have hmiso := Spi.Run.received_eq_of_tmt (ρ := σ.run) (Nat.le_add_right σ.start n)
    (σ.run_noReset _) (by rw [σ.run_spi_of_le le_rfl]; exact h.tmt)
    (by rw [run_spi]; exact (atRest_of_done hc h hpos hn).tmt)
  obtain ⟨-, hlen, hread⟩ := accounts_of_done hc h hpos hn
  rw [← hmiso, hread, mul_comm]
  exact flatMap_msbFirst_drop _ _

end Return

end Call

/-- **One byte in flight.** At every clock of a call with some byte to write or to read: what has been
sent is the beginning of `write_data` followed by zeros, at most one byte of it has not been answered,
the stored bytes are the beginning of the answers to the zeros and fit the buffer, and the overrun
flags are as they were. -/
theorem one_byte_in_flight (σ : Session) (slave readLength : ℕ) (writeData : List (BitVec 8))
    (flags : BitVec 32) (hc : σ.command = call slave writeData readLength flags)
    (h : (σ.history.spi σ.start).AtRest) (hpos : 0 < writeData.length + readLength) (n : ℕ) :
    emitted σ.run.accepted σ.start (σ.start + n) <+:
        writeData ++ List.replicate readLength 0#8 ∧
      (emitted σ.run.received σ.start (σ.start + n)).length ≤
        (emitted σ.run.accepted σ.start (σ.start + n)).length ∧
      (emitted σ.run.accepted σ.start (σ.start + n)).length ≤
        (emitted σ.run.received σ.start (σ.start + n)).length + 1 ∧
      (σ.system n).command.readData <+:
        (emitted σ.run.received σ.start (σ.start + n)).drop writeData.length ∧
      (σ.system n).command.readData.length ≤ readLength ∧
      (σ.system n).spi.roe = (σ.history.spi σ.start).roe ∧
      (σ.system n).spi.toe = (σ.history.spi σ.start).toe := by
  have hl := ledger hc h hpos n
  have hsent := length_sent hc h hpos n
  have hcount := hl.count
  obtain ⟨taken, hgot, -, hread⟩ := hl.taken
  have hlen := congrArg List.length hgot
  rw [List.length_append] at hlen
  refine ⟨⟨_, hl.sent_append⟩, ?_, ?_, ?_, ?_, roe_toe hc h hpos n⟩
  · omega
  · split at hcount <;> omega
  · rw [hread, hgot, List.drop_append]
    exact List.prefix_append _ _
  · rw [hread, List.length_drop]
    omega

theorem one_byte_in_flight_steady :
    ((steady true (call 0 [0xA5#8] 1 0#32)).system 5000).command.readData.length ≤ 1 :=
  (one_byte_in_flight _ 0 1 [0xA5#8] 0#32 rfl (steady_atRest _ _) (by decide) 5000).2.2.2.2.1

/-- **What a call does** with some byte to write or to read, on a core at rest with any past, with any
levels of `MISO` and any pauses of the processor. When it has returned, the levels of `MOSI` at the
falling edges of `SCLK` are the bits of `write_data` and of a zero for every byte to read; the buffer
holds the last `read_length` bytes, with the levels of `MISO` at the same edges; the overrun flags are
as they were, and the core is at rest again. -/
theorem command_exchanges (σ : Session) (slave readLength : ℕ) (writeData : List (BitVec 8))
    (flags : BitVec 32) (hc : σ.command = call slave writeData readLength flags)
    (h : (σ.history.spi σ.start).AtRest) (hpos : 0 < writeData.length + readLength) (n : ℕ)
    (hn : (σ.system n).command.place = .done) :
    (stepsIn σ.run.sclk.FallsAt σ.start (σ.start + n)).map σ.run.mosi =
        (writeData ++ List.replicate readLength 0#8).flatMap msbFirst ∧
      (σ.system n).command.readData.flatMap msbFirst =
        ((stepsIn σ.run.sclk.FallsAt σ.start (σ.start + n)).map σ.run.miso).drop
          (8 * writeData.length) ∧
      (σ.system n).command.readData.length = readLength ∧
      (σ.system n).spi.roe = (σ.history.spi σ.start).roe ∧
      (σ.system n).spi.toe = (σ.history.spi σ.start).toe ∧
      (σ.system n).spi.AtRest := by
  obtain ⟨-, hlen, hread⟩ := accounts_of_done hc h hpos hn
  obtain ⟨hroe, htoe⟩ := roe_toe hc h hpos n
  refine ⟨mosi_of_done hc h hpos hn, miso_of_done hc h hpos hn, ?_, hroe, htoe,
    atRest_of_done hc h hpos hn⟩
  rw [hread, List.length_drop, hlen]
  omega

/-- A call that writes one byte and reads one, 7088 clocks after a reset. -/
theorem steady_done :
    ((steady true (call 0 [0xA5#8] 1 0#32)).system 7088).command.place = .done :=
  done_of_active rfl (steady_atRest _ _) (by decide) (by rw [count_steady_active]; decide)

theorem command_exchanges_steady :
    ((steady true (call 0 [0xA5#8] 1 0#32)).system 7088).command.readData.length = 1 :=
  (command_exchanges _ 0 1 [0xA5#8] 0#32 rfl (steady_atRest _ _) (by decide) 7088 steady_done).2.2.1

end Session

/-! ## Calls in a row -/

/-- The run up to step `b` is made by calls from a reset on, the processor being free to pause
between them; `l` has the bytes that each of them had to send. -/
inductive Calls : Spi.Run → ℕ → List (List (BitVec 8)) → Prop
  | start (ρ : Spi.Run) : Calls ρ 0 []
  | call (σ : Session) (slave readLength : ℕ) (writeData : List (BitVec 8)) (flags : BitVec 32)
      (n : ℕ) (l : List (List (BitVec 8))) (past : Calls σ.history σ.start l)
      (command : σ.command = .call slave writeData readLength flags)
      (some_byte : 0 < writeData.length + readLength)
      (returned : (σ.system n).command.place = .done) :
      Calls σ.run (σ.start + n) (l ++ [writeData ++ List.replicate readLength 0#8])

namespace Calls

variable {ρ : Spi.Run} {b : ℕ} {l : List (List (BitVec 8))}

/-- A call does not change the past. -/
theorem accepted_past (σ : Session) :
    emitted σ.run.accepted 0 σ.start = emitted σ.history.accepted 0 σ.start := by
  refine emitted_congr fun k _ hk => ?_
  rw [Spi.Run.accepted, Spi.Run.accepted, σ.run_event_of_lt hk, σ.run_spi_of_le hk.le]

/-- What the calls leave: their bytes have been taken from the bus, and the core is at rest with
its flags low. -/
theorem accounts (h : Calls ρ b l) :
    ρ.NoReset 0 b ∧ emitted ρ.accepted 0 b = l.flatten ∧ (ρ.spi b).AtRest ∧
      (ρ.spi b).roe = false ∧ (ρ.spi b).toe = false := by
  induction h with
  | start ρ => exact ⟨fun n _ hn => by omega, by simp, ⟨rfl, rfl, rfl⟩, rfl, rfl⟩
  | call σ slave readLength writeData flags n l past command some_byte returned ih =>
    obtain ⟨hreset, haccepted, hrest, hroe, htoe⟩ := ih
    obtain ⟨hroe', htoe'⟩ := Session.roe_toe command hrest some_byte n
    refine ⟨?_, ?_, ?_, ?_, ?_⟩
    · intro k hk hkb
      by_cases hlt : k < σ.start
      · rw [σ.run_event_of_lt hlt]
        exact hreset k hk hlt
      · exact σ.run_noReset _ k (by omega) hkb
    · rw [← emitted_append σ.start.zero_le (Nat.le_add_right σ.start n), accepted_past, haccepted,
        (Session.accounts_of_done command hrest some_byte returned).1]
      simp
    · rw [Session.run_spi]
      exact Session.atRest_of_done command hrest some_byte returned
    · rw [Session.run_spi, hroe', hroe]
    · rw [Session.run_spi, htoe', htoe]

/-- **The line after any number of calls** from a reset on, with any pauses in and between them: the
levels of `MOSI` at the falling edges of `SCLK` are the bits of what the calls had to send, one call
after the other; as many bytes came in; no overrun was flagged, and the core is at rest. -/
theorem line (ρ : Spi.Run) (b : ℕ) (l : List (List (BitVec 8))) (h : Calls ρ b l) :
    (stepsIn ρ.sclk.FallsAt 0 b).map ρ.mosi = l.flatten.flatMap msbFirst ∧
      (emitted ρ.received 0 b).length = l.flatten.length ∧
      (ρ.spi b).roe = false ∧ (ρ.spi b).toe = false ∧ (ρ.spi b).AtRest := by
  obtain ⟨hreset, haccepted, hrest, hroe, htoe⟩ := h.accounts
  rw [← haccepted]
  exact ⟨Spi.Run.mosi_eq_of_tmt b.zero_le hreset rfl hrest.tmt,
    Spi.Run.length_received_eq b.zero_le hreset rfl hrest.tmt, hroe, htoe, hrest⟩

/-- A second call right after the first one, by a processor that never pauses. -/
def again : Session where
  history := (Session.steady true (.call 0 [0xA5#8] 1 0#32)).run
  start := 7088
  command := .call 0 [0x5A#8] 0 0#32
  input := fun _ => { miso := false, go := true }

theorem calls_steady : Calls again.history again.start [[0xA5#8, 0#8]] := by
  have h := Calls.call (.steady true (.call 0 [0xA5#8] 1 0#32)) 0 1 [0xA5#8] 0#32 7088 []
    (.start _) rfl (by decide) Session.steady_done
  rwa [show (Session.steady true (.call 0 [0xA5#8] 1 0#32)).start + 7088 = again.start from rfl] at h

theorem again_done : (again.system 3549).command.place = .done :=
  Session.done_of_active rfl calls_steady.accounts.2.2.1 (by decide)
    (by rw [Session.count_active_of_go fun _ => rfl]; decide)

/-- Two calls, of two bytes and of one. -/
theorem line_steady :
    (stepsIn again.run.sclk.FallsAt 0 (7088 + 3549)).map again.run.mosi =
        [0xA5#8, 0#8, 0x5A#8].flatMap msbFirst ∧
      (emitted again.run.received 0 (7088 + 3549)).length = 3 := by
  obtain ⟨hmosi, hlen, -⟩ := line again.run (7088 + 3549) _
    (.call again 0 0 [0x5A#8] 0#32 3549 _ calls_steady rfl (by decide) again_done)
  exact ⟨hmosi, hlen⟩

end Calls

end ADS131A0X
