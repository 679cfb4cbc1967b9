import ADS131A0X.Nios.Moves

/-!
# The ledger of a call

Along a call at most one byte is in the core: the function writes the next one only after it has read
the one before. So every byte that is sent is answered by one that is received, none is dropped or
overwritten, and the count of the received bytes tells when the call is over.

## Main definitions

* `NiosSystem.Phase`: what the port looks like at each access of the function
* `NiosSystem.Ledger`: the bytes of the call, as sent, waiting, received and stored

## Main results

* `NiosSystem.Ledger.step`: every clock keeps the ledger
* `Session.ledger`: it holds along a call
-/

namespace ADS131A0X

open Waveform

namespace NiosSystem

/-- The result of the access, in its second cycle. -/
def result (s : NiosSystem) : BitVec 32 := s.spi.dataToCpu.setWidth 32

/-- What the port looks like at each access of the function. A byte is in the port, or has arrived and
is not read, exactly when there are no credits. -/
def Phase (s : NiosSystem) (p : SerialPort) : Prop :=
  match s.command.place with
  | .slaveSel | .control | .discard => p.Empty ∧ s.command.credits = 1
  | .poll =>
    (p.Empty ∧ p.rrdy = false ∧ s.command.credits = 1 ∧
      (s.second = true →
        s.result &&& statusRrdyMsk = 0#32 ∧ s.result &&& statusTrdyMsk ≠ 0#32)) ∨
    (p.Busy ∧ p.rrdy = false ∧ s.command.credits = 0 ∧
      (s.second = true → s.result &&& statusRrdyMsk = 0#32)) ∨
    (p.Empty ∧ p.rrdy = true ∧ s.command.credits = 0)
  | .txData _ =>
    p.Empty ∧ p.rrdy = false ∧ s.command.credits = 0 ∧
      s.command.status &&& statusRrdyMsk = 0#32
  | .rxData =>
    p.Empty ∧ p.rrdy = true ∧ s.command.credits = 0 ∧
      (s.second = true → s.spi.dataToCpu = p.received.setWidth 16)
  | .waitTmt =>
    p.Empty ∧ p.rrdy = false ∧ (s.second = true → s.result &&& statusTmtMsk ≠ 0#32)
  | .release | .done => p.Empty ∧ p.rrdy = false

/-- The received byte that the function has not read. -/
def unread (s : NiosSystem) (p : SerialPort) : List (BitVec 8) :=
  if s.command.started && p.rrdy then [p.received] else []

/-- **The ledger** of a call that sends `bytes`, of which the first `w` are answered by bytes to
ignore and the last `r` by bytes to store. -/
structure Ledger (bytes : List (BitVec 8)) (w r : ℕ) (s : NiosSystem) (p : SerialPort)
    (sent got : List (BitVec 8)) : Prop where
  phase : s.Phase p
  sent_append : sent ++ s.command.toSend = bytes
  length_bytes : bytes.length = w + r
  taken : ∃ taken, got = taken ++ s.unread p ∧ s.command.readIgnore = w - taken.length ∧
    s.command.readData = taken.drop w
  count : sent.length = got.length + if p.Busy then 1 else 0
  readLength : s.command.readLength = r
  finished : s.command.Finished ↔ s.command.leaving = true

variable {s : NiosSystem} {p : SerialPort} {i : Inputs} {bytes sent got : List (BitVec 8)} {w r : ℕ}

theorem step_second (h : (s.step i).second = true) : s.second = false ∧ i.go = true := by
  simp only [NiosSystem.step, Bool.and_eq_true, Bool.not_eq_true'] at h
  exact h.1

/-- The result of a poll is the status before the clock at which it began. -/
theorem result_of_polls (h : (s.step i).second = true) (hp : s.command.polls = true) :
    (s.step i).result = s.spi.statusWord :=
  dataToCpu_status (step_second h).1 (step_second h).2 hp

theorem command_step_first (h : s.second = false) : (s.step i).command = s.command := by
  simp [NiosSystem.step, h]

/-- What an access finds in its first cycle still holds in the second. -/
theorem Phase.first (h : s.Phase p) (hm : s.spi.Matches p) (hs : s.second = false) :
    (s.step i).Phase (p.next { miso := i.miso }) := by
  have hc := command_step_first (i := i) hs
  unfold Phase at h ⊢
  rw [hc]
  cases hp : s.command.place with
  | poll =>
    simp only [hp] at h ⊢
    have hpolls : s.command.polls = true := by rw [AltAvalonSpiCommand.polls, hp]; rfl
    rcases h with ⟨hempty, hr, hcred, -⟩ | ⟨hbusy, hr, hcred, -⟩ | ⟨hempty, hr, hcred⟩
    · rw [hempty.next]
      refine Or.inl ⟨hempty, hr, hcred, fun h2 => ?_⟩
      rw [result_of_polls h2 hpolls, Spi.status_rrdy, ne_eq, Spi.status_trdy, hm.rrdy, hm.trdy, hr,
        hempty.trdy]
      simp
    · obtain ⟨-, -, -, ⟨-, hbusy', hr'⟩ | ⟨-, hempty', hr'⟩⟩ := hbusy.next hr i.miso
      · refine Or.inr (Or.inl ⟨hbusy', hr', hcred, fun h2 => ?_⟩)
        rw [result_of_polls h2 hpolls, Spi.status_rrdy, hm.rrdy, hr]
      · exact Or.inr (Or.inr ⟨hempty', hr', hcred⟩)
    · rw [hempty.next]
      exact Or.inr (Or.inr ⟨hempty, hr, hcred⟩)
  | rxData =>
    simp only [hp] at h ⊢
    obtain ⟨hempty, hr, hcred, -⟩ := h
    rw [hempty.next]
    refine ⟨hempty, hr, hcred, fun h2 => ?_⟩
    obtain ⟨hs, hgo⟩ := step_second h2
    rw [dataToCpu_rxData hs hgo (by rw [AltAvalonSpiCommand.reads, hp]; rfl), hm.rxHoldingReg]
  | waitTmt =>
    simp only [hp] at h ⊢
    obtain ⟨hempty, hr, -⟩ := h
    rw [hempty.next]
    refine ⟨hempty, hr, fun h2 => ?_⟩
    rw [result_of_polls h2 (by rw [AltAvalonSpiCommand.polls, hp]; rfl), ne_eq, Spi.status_tmt,
      hm.tmt, hempty.1, hempty.2]
    simp
  | slaveSel | control | discard | txData _ | release | done =>
    simp only [hp] at h ⊢
    rw [h.1.next]
    exact h

/-- A port that is neither empty nor out of work is busy, and nothing has arrived. -/
theorem Phase.empty_or_busy (h : s.Phase p) :
    p.Empty ∨ p.Busy ∧ p.rrdy = false ∧ s.command.place = .poll ∧ s.command.credits = 0 := by
  unfold Phase at h
  cases hp : s.command.place with
  | poll =>
    simp only [hp] at h
    rcases h with h | h | h
    · exact Or.inl h.1
    · exact Or.inr ⟨h.1, h.2.1, rfl, h.2.2.1⟩
    · exact Or.inl h.1
  | slaveSel | control | discard | txData _ | rxData | waitTmt | release | done =>
    simp only [hp] at h
    exact Or.inl h.1

/-- While nothing is written or read, a byte that arrives goes from the port to the register. -/
theorem Ledger.account_quiet (h : s.Ledger bytes w r p sent got) {s' : NiosSystem}
    (hstarted : s'.command.started = s.command.started) (miso : Bool) :
    (∃ taken, got ++ p.completed.toList = taken ++ s'.unread (p.next { miso }) ∧
        s.command.readIgnore = w - taken.length ∧ s.command.readData = taken.drop w) ∧
      sent.length = (got ++ p.completed.toList).length +
        if (p.next { miso }).Busy then 1 else 0 := by
  obtain ⟨taken, hgot, hignore, hdata⟩ := h.taken
  have hcount := h.count
  rcases h.phase.empty_or_busy with hempty | ⟨hbusy, hr, hp, -⟩
  · rw [hempty.next, hempty.completed, Option.toList_none, List.append_nil]
    refine ⟨⟨taken, ?_, hignore, hdata⟩, hcount⟩
    rw [hgot, unread, unread, hstarted]
  · have hunread : s.unread p = [] := by rw [unread, hr, Bool.and_false]; rfl
    have hst : s'.command.started = true := by
      rw [hstarted, AltAvalonSpiCommand.started, hp]
    rw [hunread, List.append_nil] at hgot
    rw [if_pos hbusy] at hcount
    obtain ⟨-, -, -, ⟨hnone, hbusy', hr'⟩ | ⟨hsome, hempty', hr'⟩⟩ := hbusy.next hr miso
    · rw [hnone, Option.toList_none, List.append_nil, if_pos hbusy', unread, hr', Bool.and_false]
      exact ⟨⟨taken, by simpa using hgot, hignore, hdata⟩, hcount⟩
    · rw [hsome, Option.toList_some, if_neg hempty'.not_busy, unread, hst, hr']
      refine ⟨⟨taken, by simp [hgot], hignore, hdata⟩, ?_⟩
      rw [List.length_append, List.length_singleton]
      omega

/-- The ledger is kept when nothing is written or read, and the function does not count. -/
theorem Ledger.of_quiet (h : s.Ledger bytes w r p sent got) {s' : NiosSystem} {miso : Bool}
    (hphase : s'.Phase (p.next { miso })) (hsend : s'.command.toSend = s.command.toSend)
    (hstarted : s'.command.started = s.command.started)
    (hleaving : s'.command.leaving = s.command.leaving)
    (hignore : s'.command.readIgnore = s.command.readIgnore)
    (hdata : s'.command.readData = s.command.readData)
    (hlen : s'.command.readLength = s.command.readLength) :
    s'.Ledger bytes w r (p.next { miso }) sent (got ++ p.completed.toList) := by
  obtain ⟨htaken, hcount⟩ := h.account_quiet hstarted miso
  exact {
    phase := hphase
    sent_append := hsend ▸ h.sent_append
    length_bytes := h.length_bytes
    taken := by rwa [hignore, hdata]
    count := hcount
    readLength := hlen.trans h.readLength
    finished := by
      rw [AltAvalonSpiCommand.Finished, hignore, hdata, hlen, hleaving]
      exact h.finished }

/-- A clock that is not the second cycle of an access keeps the ledger. -/
theorem Ledger.first (h : s.Ledger bytes w r p sent got) (hm : s.spi.Matches p)
    (hs : s.second = false) :
    (s.step i).Ledger bytes w r (p.next { miso := i.miso }) sent (got ++ p.completed.toList) := by
  have hc := command_step_first (i := i) hs
  exact h.of_quiet (h.phase.first hm hs) (by rw [hc]) (by rw [hc]) (by rw [hc]) (by rw [hc])
    (by rw [hc]) (by rw [hc])

/-- There is something left to write when a poll finds room: otherwise the loop would be over. -/
theorem Ledger.left_pos (h : s.Ledger bytes w r p sent got) (hp : s.command.place = .poll)
    (hempty : p.Empty) (hr : p.rrdy = false) : 0 < s.command.left := by
  by_contra hnot
  obtain ⟨hdata, hzeros⟩ : s.command.writeData.length = 0 ∧ s.command.writeZeros = 0 := by
    rw [AltAvalonSpiCommand.left] at hnot
    omega
  obtain ⟨taken, hgot, hignore, hread⟩ := h.taken
  have hcount := h.count
  have hsent := congrArg List.length h.sent_append
  rw [unread, hr, Bool.and_false] at hgot
  have htaken : got = taken := by simpa using hgot
  rw [if_neg hempty.not_busy, htaken] at hcount
  have htoSend : s.command.toSend.length = 0 := by
    rw [AltAvalonSpiCommand.toSend, AltAvalonSpiCommand.writes, hp, List.length_append,
      List.length_append, List.length_replicate, hdata, hzeros]
    rfl
  rw [List.length_append, htoSend, h.length_bytes] at hsent
  have hfin : s.command.Finished := by
    refine ⟨by omega, ?_⟩
    rw [hread, List.length_drop, h.readLength]
    omega
  have hleaving := h.finished.mp hfin
  rw [AltAvalonSpiCommand.leaving, hp] at hleaving
  cases hleaving

/-! ### The second cycle of an access -/

section Second

variable (hs : s.second = true)

include hs

theorem command_step_second : (s.step i).command = s.command.next s.result := by
  rw [step_of_second hs]
  rfl

theorem second_step_second : (s.step i).second = false := by
  rw [step_of_second hs]

/-- The function goes on to another place, with nothing written or read. -/
theorem Ledger.second_place (h : s.Ledger bytes w r p sent got) {place : Place}
    {status : BitVec 32}
    (hc : s.command.next s.result = { s.command with place := place, status := status })
    (hphase : (s.step i).Phase (p.next { miso := i.miso }))
    (hwrites : ({ s.command with place := place } : AltAvalonSpiCommand).writes = s.command.writes)
    (hstarted :
      ({ s.command with place := place } : AltAvalonSpiCommand).started = s.command.started)
    (hleaving :
      ({ s.command with place := place } : AltAvalonSpiCommand).leaving = s.command.leaving) :
    (s.step i).Ledger bytes w r (p.next { miso := i.miso }) sent (got ++ p.completed.toList) := by
  have hc' := (command_step_second (i := i) hs).trans hc
  refine h.of_quiet hphase ?_ ?_ ?_ (by rw [hc']) (by rw [hc']) (by rw [hc'])
  · rw [hc', AltAvalonSpiCommand.toSend, AltAvalonSpiCommand.toSend, ← hwrites]
    rfl
  · rw [hc', ← hstarted]
    rfl
  · rw [hc', ← hleaving]
    rfl

/-- Up to the loop. -/
theorem Ledger.second_preamble (h : s.Ledger bytes w r p sent got)
    (hp : s.command.place = .slaveSel ∨ s.command.place = .control) :
    (s.step i).Ledger bytes w r (p.next { miso := i.miso }) sent (got ++ p.completed.toList) := by
  obtain ⟨place, hplace, hc⟩ : ∃ place, (place = .control ∨ place = .discard) ∧
      s.command.next s.result =
        { s.command with place := place, status := s.command.status } := by
    rcases hp with hp | hp
    · rcases AltAvalonSpiCommand.next_of_slaveSel s.result hp with hc | hc
      · exact ⟨.control, Or.inl rfl, hc⟩
      · exact ⟨.discard, Or.inr rfl, hc⟩
    · exact ⟨.discard, Or.inr rfl, AltAvalonSpiCommand.next_of_control hp⟩
  have hphase : p.Empty ∧ s.command.credits = 1 := by
    have hphase := h.phase
    unfold Phase at hphase
    rcases hp with hp | hp <;> simpa only [hp] using hphase
  have hc' := (command_step_second (i := i) hs).trans hc
  refine h.second_place hs hc ?_ ?_ ?_ ?_
  · unfold Phase
    rw [hphase.1.next, hc']
    rcases hplace with rfl | rfl <;> exact hphase
  all_goals
    rcases hp with hp | hp <;> rcases hplace with rfl | rfl <;>
      simp [AltAvalonSpiCommand.writes, AltAvalonSpiCommand.started, AltAvalonSpiCommand.leaving, hp]

/-- The stale byte is discarded: from here on the receive register holds bytes of the call. -/
theorem Ledger.second_discard (h : s.Ledger bytes w r p sent got)
    (hp : s.command.place = .discard) :
    (s.step i).Ledger bytes w r (p.next { read := true, miso := i.miso }) sent
      (got ++ p.completed.toList) := by
  have hc := (command_step_second (i := i) hs).trans (AltAvalonSpiCommand.next_of_discard hp)
  have hphase := h.phase
  unfold Phase at hphase
  simp only [hp] at hphase
  obtain ⟨hempty, hcred⟩ := hphase
  obtain ⟨taken, hgot, hignore, hdata⟩ := h.taken
  have hcount := h.count
  have hfin := h.finished
  rw [unread, AltAvalonSpiCommand.started, hp] at hgot
  rw [hempty.next_read, hempty.completed, Option.toList_none, List.append_nil]
  exact {
    phase := by
      unfold Phase
      rw [hc]
      exact Or.inl ⟨hempty, rfl, hcred, fun h2 => by rw [second_step_second hs] at h2; cases h2⟩
    sent_append := by
      have hsend := h.sent_append
      rw [AltAvalonSpiCommand.toSend, AltAvalonSpiCommand.writes, hp] at hsend
      rwa [hc]
    length_bytes := h.length_bytes
    taken := ⟨taken, by rw [unread, Bool.and_false]; exact hgot, by rw [hc]; exact hignore,
      by rw [hc]; exact hdata⟩
    count := hcount
    readLength := by rw [hc]; exact h.readLength
    finished := by
      rw [AltAvalonSpiCommand.leaving, hp] at hfin
      rw [hc]
      exact hfin }

/-- A poll: poll again, write the next byte, or read the one that has arrived. -/
theorem Ledger.second_poll (h : s.Ledger bytes w r p sent got) (hp : s.command.place = .poll) :
    (s.step i).Ledger bytes w r (p.next { miso := i.miso }) sent (got ++ p.completed.toList) := by
  have h2 := second_step_second (i := i) hs
  have hphase := h.phase
  unfold Phase at hphase
  simp only [hp] at hphase
  rcases hphase with ⟨hempty, hr, hcred, hstat⟩ | ⟨hbusy, hr, hcred, hstat⟩ | ⟨hempty, hr, hcred⟩
  -- there is room
  · obtain ⟨hnone, hroom⟩ := hstat hs
    obtain ⟨byte, rest, zeros, hc, hbytes⟩ :=
      AltAvalonSpiCommand.next_of_poll_room hp hcred hroom (h.left_pos hp hempty hr)
    have hc' := (command_step_second (i := i) hs).trans hc
    refine h.of_quiet ?_ ?_ ?_ ?_ (by rw [hc']) (by rw [hc']) (by rw [hc'])
    · unfold Phase
      rw [hempty.next, hc']
      exact ⟨hempty, hr, rfl, hnone⟩
    · rw [hc', AltAvalonSpiCommand.toSend, AltAvalonSpiCommand.toSend,
        AltAvalonSpiCommand.writes, AltAvalonSpiCommand.writes, hp]
      simpa using hbytes
    · rw [hc', AltAvalonSpiCommand.started, AltAvalonSpiCommand.started, hp]
    · rw [hc', AltAvalonSpiCommand.leaving, AltAvalonSpiCommand.leaving, hp]
  -- the byte is not exchanged yet
  · have hc := AltAvalonSpiCommand.next_of_poll_wait hp hcred (hstat hs)
    refine h.second_place hs hc ?_ (by simp [AltAvalonSpiCommand.writes, hp])
      (by simp [AltAvalonSpiCommand.started, hp]) (by simp [AltAvalonSpiCommand.leaving, hp])
    unfold Phase
    rw [command_step_second hs, hc, h2]
    obtain ⟨-, -, -, ⟨-, hbusy', hr'⟩ | ⟨-, hempty', hr'⟩⟩ := hbusy.next hr i.miso
    · exact Or.inr (Or.inl ⟨hbusy', hr', hcred, by simp⟩)
    · exact Or.inr (Or.inr ⟨hempty', hr', hcred⟩)
  -- it has arrived, before the status was read or after
  · obtain ⟨place, hplace, hc⟩ : ∃ place, (place = .poll ∨ place = .rxData) ∧
        s.command.next s.result = { s.command with place := place, status := s.result } := by
      by_cases hready : s.result &&& statusRrdyMsk = 0#32
      · exact ⟨.poll, Or.inl rfl, AltAvalonSpiCommand.next_of_poll_wait hp hcred hready⟩
      · exact ⟨.rxData, Or.inr rfl, AltAvalonSpiCommand.next_of_poll_arrived hp hcred hready⟩
    refine h.second_place hs hc ?_ ?_ ?_ ?_
    · unfold Phase
      rw [command_step_second hs, hc, h2, hempty.next]
      rcases hplace with rfl | rfl
      · exact Or.inr (Or.inr ⟨hempty, hr, hcred⟩)
      · exact ⟨hempty, hr, hcred, by simp⟩
    all_goals
      rcases hplace with rfl | rfl <;>
        simp [AltAvalonSpiCommand.writes, AltAvalonSpiCommand.started, AltAvalonSpiCommand.leaving, hp]

/-- A byte is written to the empty port. -/
theorem Ledger.second_txData (h : s.Ledger bytes w r p sent got) {byte : BitVec 8}
    (hp : s.command.place = .txData byte) :
    (s.step i).Ledger bytes w r (p.next { write := some byte, miso := i.miso }) (sent ++ [byte])
      (got ++ p.completed.toList) := by
  have hphase := h.phase
  unfold Phase at hphase
  simp only [hp] at hphase
  obtain ⟨hempty, hr, hcred, hstat⟩ := hphase
  have hc := (command_step_second (i := i) hs).trans (AltAvalonSpiCommand.next_of_txData hp hstat)
  have hbusy : ({ p with pending := some byte } : SerialPort).Busy := by
    rw [SerialPort.Busy, hempty.1]
    rfl
  obtain ⟨taken, hgot, hignore, hread⟩ := h.taken
  have hsent := h.sent_append
  have hcount := h.count
  have hfin := h.finished
  rw [unread, hr, Bool.and_false] at hgot
  rw [AltAvalonSpiCommand.toSend, AltAvalonSpiCommand.writes, hp] at hsent
  rw [if_neg hempty.not_busy] at hcount
  rw [AltAvalonSpiCommand.leaving, hp] at hfin
  rw [hempty.next_write, hempty.completed, Option.toList_none, List.append_nil]
  exact {
    phase := by
      unfold Phase
      rw [hc, second_step_second hs]
      exact Or.inr (Or.inl ⟨hbusy, hr, hcred, by simp⟩)
    sent_append := by
      rw [hc, AltAvalonSpiCommand.toSend, AltAvalonSpiCommand.writes]
      simpa using hsent
    length_bytes := h.length_bytes
    taken := ⟨taken, by simpa [unread, hr] using hgot, by rw [hc]; exact hignore,
      by rw [hc]; exact hread⟩
    count := by
      rw [if_pos hbusy, List.length_append, List.length_singleton]
      omega
    readLength := by rw [hc]; exact h.readLength
    finished := by
      rw [hc]
      exact hfin }

/-- The received byte is read: it is ignored as long as bytes of `write_data` are answered, and
stored after that. -/
theorem Ledger.second_rxData (h : s.Ledger bytes w r p sent got)
    (hp : s.command.place = .rxData) :
    (s.step i).Ledger bytes w r (p.next { read := true, miso := i.miso }) sent
      (got ++ p.completed.toList) := by
  have hphase := h.phase
  unfold Phase at hphase
  simp only [hp] at hphase
  obtain ⟨hempty, hr, hcred, hresult⟩ := hphase
  obtain ⟨taken, hgot, hignore, hread⟩ := h.taken
  have hsent := h.sent_append
  have hcount := h.count
  rw [unread, AltAvalonSpiCommand.started, hp, hr] at hgot
  rw [AltAvalonSpiCommand.toSend, AltAvalonSpiCommand.writes, hp] at hsent
  rw [if_neg hempty.not_busy] at hcount
  have hbyte : s.result.setWidth 8 = p.received := by
    rw [result, hresult hs]
    simp
  obtain ⟨place, ignore, data, hc, hcounts, hplace⟩ :=
    AltAvalonSpiCommand.next_of_rxData s.result hp
  have hc' := (command_step_second (i := i) hs).trans hc
  -- the function counts one more byte
  have hcounts' : ignore = w - (taken ++ [p.received]).length ∧
      data = (taken ++ [p.received]).drop w := by
    rw [List.length_append, List.length_singleton]
    rcases hcounts with ⟨hpos, rfl⟩ | ⟨hzero, rfl, rfl⟩
    · refine ⟨by omega, ?_⟩
      rw [hread, List.drop_eq_nil_of_le (by omega),
        List.drop_eq_nil_of_le (by rw [List.length_append, List.length_singleton]; omega)]
    · refine ⟨by omega, ?_⟩
      rw [hread, hbyte, List.drop_append_of_le_length (by omega)]
  have hempty' : ({ p with rrdy := false } : SerialPort).Empty := hempty
  rw [hempty.next_read, hempty.completed, Option.toList_none, List.append_nil]
  exact {
    phase := by
      unfold Phase
      rw [hc', second_step_second hs]
      rcases hplace with ⟨rfl, -⟩ | ⟨rfl, -⟩
      · exact ⟨hempty, rfl, by simp⟩
      · exact Or.inl ⟨hempty, rfl, by simp [hcred], by simp⟩
    sent_append := by
      rw [hc', AltAvalonSpiCommand.toSend, AltAvalonSpiCommand.writes]
      rcases hplace with ⟨rfl, -⟩ | ⟨rfl, -⟩ <;> exact hsent
    length_bytes := h.length_bytes
    taken := by
      refine ⟨taken ++ [p.received], ?_, by rw [hc']; exact hcounts'.1, by rw [hc']; exact hcounts'.2⟩
      rw [unread, Bool.and_false, hgot]
      simp
    count := by
      rw [if_neg hempty'.not_busy]
      exact hcount
    readLength := by rw [hc']; exact h.readLength
    finished := by
      rw [hc']
      rcases hplace with ⟨rfl, hfin⟩ | ⟨rfl, hfin⟩
      · exact iff_of_true hfin rfl
      · exact iff_of_false hfin Bool.false_ne_true }

/-- After the loop: wait for the end of the transmission, release the slave, return. -/
theorem Ledger.second_leaving (h : s.Ledger bytes w r p sent got)
    (hp : s.command.place = .waitTmt ∨ s.command.place = .release ∨ s.command.place = .done) :
    (s.step i).Ledger bytes w r (p.next { miso := i.miso }) sent (got ++ p.completed.toList) := by
  have hphase := h.phase
  unfold Phase at hphase
  obtain ⟨place, status, hplace, hnext⟩ : ∃ place status, (place = .release ∨ place = .done) ∧
      s.command.next s.result = { s.command with place := place, status := status } := by
    rcases hp with hp | hp | hp
    · simp only [hp] at hphase
      obtain ⟨place, hplace, hc⟩ := AltAvalonSpiCommand.next_of_waitTmt hp (hphase.2.2 hs)
      exact ⟨place, s.result, hplace, hc⟩
    · exact ⟨.done, s.command.status, Or.inr rfl, AltAvalonSpiCommand.next_of_release hp⟩
    · refine ⟨.done, s.command.status, Or.inr rfl, ?_⟩
      rw [AltAvalonSpiCommand.next_of_done hp, ← hp]
  have hempty : p.Empty ∧ p.rrdy = false := by
    rcases hp with hp | hp | hp <;> simp only [hp] at hphase
    · exact ⟨hphase.1, hphase.2.1⟩
    · exact hphase
    · exact hphase
  refine h.second_place hs hnext ?_ ?_ ?_ ?_
  · unfold Phase
    rw [command_step_second hs, hnext, hempty.1.next]
    rcases hplace with rfl | rfl <;> exact hempty
  all_goals
    rcases hp with hp | hp | hp <;> rcases hplace with rfl | rfl <;>
      simp [AltAvalonSpiCommand.writes, AltAvalonSpiCommand.started, AltAvalonSpiCommand.leaving, hp]

end Second

/-- **Every clock keeps the ledger.** -/
theorem Ledger.step (h : s.Ledger bytes w r p sent got) (hm : s.spi.Matches p) (hst : s.Strobes) :
    (s.step i).Ledger bytes w r (p.next (s.spi.portInputs (s.bus i)))
      (sent ++ p.accepted (s.spi.portInputs (s.bus i))) (got ++ p.completed.toList) := by
  rw [hst.portInputs]
  cases hs : s.second with
  | false =>
    rw [SerialPort.accepted, Bool.false_and]
    simpa using h.first hm hs
  | true =>
    rw [if_pos rfl, Bool.true_and, SerialPort.accepted, AltAvalonSpiCommand.writes,
      AltAvalonSpiCommand.reads]
    cases hp : s.command.place with
    | slaveSel => simpa [beq_eq_decide] using h.second_preamble hs (Or.inl hp)
    | control => simpa [beq_eq_decide] using h.second_preamble hs (Or.inr hp)
    | discard => simpa [beq_eq_decide] using h.second_discard hs hp
    | poll => simpa [beq_eq_decide] using h.second_poll hs hp
    | txData byte =>
      have hphase := h.phase
      unfold Phase at hphase
      simp only [hp] at hphase
      simpa [beq_eq_decide, hphase.1.trdy] using h.second_txData hs hp
    | rxData => simpa [beq_eq_decide] using h.second_rxData hs hp
    | waitTmt => simpa [beq_eq_decide] using h.second_leaving hs (Or.inl hp)
    | release => simpa [beq_eq_decide] using h.second_leaving hs (Or.inr (Or.inl hp))
    | done => simpa [beq_eq_decide] using h.second_leaving hs (Or.inr (Or.inr hp))

/-- **No byte is lost**: a clock of a call sets neither of the overrun flags, and clears neither. -/
theorem Ledger.flags (h : s.Ledger bytes w r p sent got) (hst : s.Strobes) :
    (p.next (s.spi.portInputs (s.bus i))).roe = p.roe ∧
      (p.next (s.spi.portInputs (s.bus i))).toe = p.toe := by
  rw [hst.portInputs, SerialPort.next]
  simp only [Bool.not_false, Bool.and_true, Bool.true_and]
  rcases h.phase.empty_or_busy with hempty | ⟨-, hr, hp, -⟩
  · simp [hempty.completed, hempty.trdy]
  · simp [hr, AltAvalonSpiCommand.writes, hp]

end NiosSystem

/-! ## Along a call -/

namespace Spi

/-- Nothing is sent or waits, and no access is on the bus. -/
structure AtRest (m : Spi) : Prop where
  tmt : m.tmt = true
  rdStrobe : m.rdStrobe = false
  wrStrobe : m.wrStrobe = false

/-- The data strobes belong to the strobes. -/
theorem Run.dataStrobes (ρ : Run) (n : ℕ) :
    ((ρ.spi n).dataWrStrobe = true → (ρ.spi n).wrStrobe = true) ∧
      ((ρ.spi n).dataRdStrobe = true → (ρ.spi n).rdStrobe = true) := by
  cases n with
  | zero => exact ⟨fun h => h, fun h => h⟩
  | succ n =>
    rw [Run.spi_succ]
    cases ρ.event n with
    | reset => exact ⟨fun h => h, fun h => h⟩
    | clk i =>
      constructor
      · intro h
        exact (Bool.and_eq_true _ _ ▸ h : _ ∧ _).1
      · intro h
        exact (Bool.and_eq_true _ _ ▸ h : _ ∧ _).1

end Spi

namespace Session

open AltAvalonSpiCommand (call)

variable {σ : Session} {slave readLength : ℕ} {writeData : List (BitVec 8)} {flags : BitVec 32}

theorem strobes (h : (σ.history.spi σ.start).AtRest) (n : ℕ) : (σ.system n).Strobes := by
  induction n with
  | zero =>
    obtain ⟨hwr, hrd⟩ := σ.history.dataStrobes σ.start
    rw [h.wrStrobe, Bool.false_eq_true, imp_false, Bool.not_eq_true] at hwr
    rw [h.rdStrobe, Bool.false_eq_true, imp_false, Bool.not_eq_true] at hrd
    exact ⟨h.wrStrobe, hwr, h.rdStrobe, hrd⟩
  | succ n ih =>
    rw [system_succ]
    exact ih.step

theorem matches_port (σ : Session) (n : ℕ) :
    (σ.system n).spi.Matches (σ.run.port (σ.start + n)) :=
  σ.run_spi n ▸ σ.run.matches_port (σ.start + n)

theorem port_succ (σ : Session) (n : ℕ) :
    σ.run.port (σ.start + (n + 1)) = (σ.run.port (σ.start + n)).next
      ((σ.system n).spi.portInputs ((σ.system n).bus (σ.input n))) := by
  rw [← Nat.add_assoc, Spi.Run.port_succ_of_clk (σ.run_event n), run_spi]

theorem port_start (h : (σ.history.spi σ.start).AtRest) : (σ.run.port σ.start).Empty := by
  refine Spi.Run.port_of_tmt ?_
  rw [σ.run_spi_of_le le_rfl]
  exact h.tmt

section Call

variable (hc : σ.command = call slave writeData readLength flags)
  (h : (σ.history.spi σ.start).AtRest) (hpos : 0 < writeData.length + readLength)

include hc h hpos

/-- **The ledger holds along a call** with something to write or to read. -/
theorem ledger (n : ℕ) :
    (σ.system n).Ledger (writeData ++ List.replicate readLength 0#8) writeData.length readLength
      (σ.run.port (σ.start + n)) (emitted σ.run.accepted σ.start (σ.start + n))
      (emitted σ.run.received σ.start (σ.start + n)) := by
  induction n with
  | zero =>
    have hempty := port_start h
    have hcommand : (σ.system 0).command = call slave writeData readLength flags := hc
    exact {
      phase := by
        unfold NiosSystem.Phase
        rw [hcommand]
        exact ⟨hempty, rfl⟩
      sent_append := by
        rw [hcommand, Nat.add_zero, emitted_self]
        rfl
      length_bytes := by rw [List.length_append, List.length_replicate]
      taken := ⟨[], by rw [Nat.add_zero, emitted_self, NiosSystem.unread, hcommand]; rfl,
        by rw [hcommand]; rfl, by rw [hcommand, List.drop_nil]; rfl⟩
      count := by
        rw [Nat.add_zero, emitted_self, emitted_self, if_neg hempty.not_busy]
        rfl
      readLength := by rw [hcommand]; rfl
      finished := by
        rw [hcommand]
        refine iff_of_false ?_ Bool.false_ne_true
        rintro ⟨hw, hr⟩
        have hw' : writeData.length = 0 := hw
        have hr' : 0 = readLength := hr
        omega }
  | succ n ih =>
    have hstep := ih.step (i := σ.input n) (σ.matches_port n) (strobes h n)
    have he := σ.run_event n
    rw [← port_succ, ← system_succ] at hstep
    rw [← Nat.add_assoc, emitted_succ (Nat.le_add_right _ _), emitted_succ (Nat.le_add_right _ _),
      Spi.Run.accepted_eq he, Spi.Run.received_eq he, run_spi, Nat.add_assoc]
    exact hstep

theorem roe_toe (n : ℕ) :
    (σ.system n).spi.roe = (σ.history.spi σ.start).roe ∧
      (σ.system n).spi.toe = (σ.history.spi σ.start).toe := by
  induction n with
  | zero => exact ⟨rfl, rfl⟩
  | succ n ih =>
    obtain ⟨hroe, htoe⟩ := (ledger hc h hpos n).flags (i := σ.input n) (strobes h n)
    have hm := σ.matches_port n
    have hm' := σ.matches_port (n + 1)
    rw [port_succ] at hm'
    rw [hm'.roe, hm'.toe, hroe, htoe, ← hm.roe, ← hm.toe]
    exact ih

end Call

end Session

end ADS131A0X
