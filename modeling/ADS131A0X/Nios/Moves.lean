import ADS131A0X.Nios.Bus

/-!
# The moves of a call

The function writes a byte only when none is on its way, so the port of a call is empty or busy with
one byte. And it has a move for what it finds: this module has one lemma for each of its accesses.

## Main definitions

* `SerialPort.Empty`, `SerialPort.Busy`: no byte is in the port, one byte is
* `AltAvalonSpiCommand.toSend`, `AltAvalonSpiCommand.Finished`: what is left of the call

## Main results

* `SerialPort.Busy.next`: a clock of the port along the exchange of its byte
* `AltAvalonSpiCommand.next_of_poll_room`, `AltAvalonSpiCommand.next_of_rxData`, ...: the function
  after an access
-/

namespace ADS131A0X

/-! ## A port with one byte at a time -/

namespace SerialPort

variable {p : SerialPort} {miso : Bool}

/-- Nothing waits and nothing is sent. -/
def Empty (p : SerialPort) : Prop := p.transfer = none ∧ p.pending = none

/-- One byte waits or is sent. -/
def Busy (p : SerialPort) : Prop := p.transfer.isSome = !p.pending.isSome

instance (p : SerialPort) : Decidable p.Busy := inferInstanceAs (Decidable (_ = _))

theorem Empty.not_busy (h : p.Empty) : ¬ p.Busy := by
  rw [Busy, h.1, h.2]
  simp

/-- The clocks until the byte in the port is exchanged. -/
def clocksLeft (p : SerialPort) : ℕ :=
  match p.transfer with
  | some t => 3529 - t.clocks
  | none => if p.pending.isSome then 3530 else 0

theorem Empty.trdy (h : p.Empty) : p.trdy = true := by
  rw [SerialPort.trdy, h.1]
  rfl

theorem Empty.completed (h : p.Empty) : p.completed = none := by
  rw [SerialPort.completed, h.1]

theorem Empty.clocksLeft (h : p.Empty) : p.clocksLeft = 0 := by
  rw [SerialPort.clocksLeft, h.1, h.2]
  rfl

/-- An empty port rests. -/
theorem Empty.next (h : p.Empty) : p.next { miso } = p := by
  obtain ⟨htrans, hpend⟩ := h
  cases p
  simp only at htrans hpend
  simp [SerialPort.next, SerialPort.completed, htrans, hpend]

theorem Empty.next_write (h : p.Empty) (byte : BitVec 8) :
    p.next { write := some byte, miso } = { p with pending := some byte } := by
  obtain ⟨htrans, hpend⟩ := h
  cases p
  simp only at htrans hpend
  simp [SerialPort.next, SerialPort.completed, SerialPort.trdy, htrans, hpend]

theorem Empty.next_read (h : p.Empty) : p.next { read := true, miso } = { p with rrdy := false } := by
  obtain ⟨htrans, hpend⟩ := h
  cases p
  simp only at htrans hpend
  simp [SerialPort.next, SerialPort.completed, htrans, hpend]

/-- A busy port comes one clock closer to the end of its byte, or the byte arrives. -/
theorem Busy.next (h : p.Busy) (hr : p.rrdy = false) (miso : Bool) :
    (p.next { miso }).clocksLeft + 1 = p.clocksLeft ∧
      (p.next { miso }).roe = p.roe ∧ (p.next { miso }).toe = p.toe ∧
      (p.completed = none ∧ (p.next { miso }).Busy ∧ (p.next { miso }).rrdy = false ∨
        p.completed = some (p.next { miso }).received ∧ (p.next { miso }).Empty ∧
          (p.next { miso }).rrdy = true) := by
  obtain ⟨transfer, pending, received, rrdy, roe, toe⟩ := p
  simp only [Busy] at h hr
  subst hr
  cases transfer with
  | none =>
    obtain ⟨byte, rfl⟩ : ∃ byte, pending = some byte := by
      rw [← Option.isSome_iff_exists]
      simpa using h
    simp [SerialPort.next, SerialPort.completed, clocksLeft, Busy, Transfer.start]
  | some t =>
    obtain rfl : pending = none := by simpa using h
    have hle := t.clocks_le
    by_cases ht : t.clocks < 3528
    · simp [SerialPort.next, SerialPort.completed, clocksLeft, Busy, ht]
      omega
    · have hlast : 3529 - t.clocks = 1 := by omega
      simp [SerialPort.next, SerialPort.completed, clocksLeft, Busy, Empty, ht, hlast]

end SerialPort

/-! ## What is left of a call -/

namespace AltAvalonSpiCommand

variable (c : AltAvalonSpiCommand)

/-- The bytes that are still to be written to the core. -/
def toSend : List (BitVec 8) :=
  c.writes.toList ++ c.writeData ++ List.replicate c.writeZeros 0#8

/-- The number of bytes that the function has not taken yet. -/
def left : ℕ := c.writeData.length + c.writeZeros

/-- All bytes have been received. -/
def Finished : Prop := c.readIgnore = 0 ∧ c.readData.length = c.readLength

/-- The stale byte of an earlier communication has been discarded. -/
def started : Bool :=
  match c.place with
  | .slaveSel | .control | .discard => false
  | _ => true

/-- The loop is over. -/
def leaving : Bool :=
  match c.place with
  | .waitTmt | .release | .done => true
  | _ => false

variable {c} {result : BitVec 32}

/-! ### After an access -/

theorem next_of_slaveSel (result : BitVec 32) (hp : c.place = .slaveSel) :
    c.next result = { c with place := .control } ∨ c.next result = { c with place := .discard } := by
  rw [next, hp]
  simp only
  split
  · exact Or.inl rfl
  · exact Or.inr rfl

theorem next_of_control (hp : c.place = .control) : c.next result = { c with place := .discard } := by
  rw [next, hp]

theorem next_of_discard (hp : c.place = .discard) : c.next result = { c with place := .poll } := by
  rw [next, hp]

/-- Without credits the function polls until a byte arrives. -/
theorem next_of_poll_wait (hp : c.place = .poll) (hcred : c.credits = 0)
    (hr : result &&& statusRrdyMsk = 0#32) :
    c.next result = { c with place := .poll, status := result } := by
  rw [next, hp]
  simp only [afterPoll]
  rw [if_pos ⟨Or.inr hcred, hr⟩]

theorem next_of_poll_arrived (hp : c.place = .poll) (hcred : c.credits = 0)
    (hr : result &&& statusRrdyMsk ≠ 0#32) :
    c.next result = { c with place := .rxData, status := result } := by
  rw [next, hp]
  simp only [afterPoll]
  rw [if_neg (by simp [hr]), if_neg (by simp [hcred]), afterTransmit, if_pos hr]

/-- With a credit, and room in the core, it takes the next byte: one of `write_data`, or a zero. -/
theorem next_of_poll_room (hp : c.place = .poll) (hcred : c.credits = 1)
    (ht : result &&& statusTrdyMsk ≠ 0#32) (hleft : 0 < c.left) :
    ∃ byte rest zeros,
      c.next result =
        { c with
          credits := 0
          writeData := rest
          writeZeros := zeros
          place := .txData byte
          status := result } ∧
      byte :: (rest ++ List.replicate zeros 0#8) =
        c.writeData ++ List.replicate c.writeZeros 0#8 := by
  rw [next, hp]
  simp only [afterPoll]
  rw [if_neg (by simp [ht, hcred]), if_pos (by simp [ht, hcred])]
  cases hdata : c.writeData with
  | cons byte rest =>
    simp only [hcred]
    exact ⟨byte, rest, c.writeZeros, rfl, rfl⟩
  | nil =>
    rw [left, hdata, List.length_nil, Nat.zero_add] at hleft
    obtain ⟨zeros, hzeros⟩ : ∃ zeros, c.writeZeros = zeros + 1 := ⟨c.writeZeros - 1, by omega⟩
    rw [if_pos hleft]
    simp only [hcred, hzeros]
    exact ⟨0#8, [], zeros, by rw [← hdata]; rfl, rfl⟩

/-- With a credit and nothing left to take, the function polls on, without credits to come. -/
theorem next_of_poll_spin (hp : c.place = .poll) (hcred : c.credits ≠ 0)
    (hr : result &&& statusRrdyMsk = 0#32) (ht : result &&& statusTrdyMsk ≠ 0#32)
    (hleft : c.left = 0) :
    ∃ credits, credits ≠ 0 ∧
      c.next result = { c with credits := credits, place := .poll, status := result } := by
  obtain ⟨hdata, hzeros⟩ : c.writeData = [] ∧ c.writeZeros = 0 := by
    rw [left] at hleft
    exact ⟨List.length_eq_zero_iff.mp (by omega), by omega⟩
  rw [next, hp]
  simp only [afterPoll]
  rw [if_neg (by simp [ht, hcred])]
  by_cases hpos : c.credits > 0
  · rw [if_pos ⟨ht, hpos⟩]
    simp only [hdata, hzeros]
    rw [if_neg (by simp), afterTransmit, if_neg (by simp [hr])]
    exact ⟨-1024, by decide, by rw [← hdata, ← hzeros]⟩
  · rw [if_neg fun h => hpos h.2, afterTransmit, if_neg (by simp [hr])]
    exact ⟨c.credits, hcred, rfl⟩

theorem next_of_txData {byte : BitVec 8} (hp : c.place = .txData byte)
    (hr : c.status &&& statusRrdyMsk = 0#32) : c.next result = { c with place := .poll } := by
  rw [next, hp]
  simp only [afterTransmit]
  rw [if_neg (by simp [hr])]

/-- A received byte is ignored as long as bytes of `write_data` are answered, and stored after
that. -/
theorem next_of_rxData (result : BitVec 32) (hp : c.place = .rxData) :
    ∃ place ignore data,
      c.next result =
        { c with
          credits := c.credits + 1
          readIgnore := ignore
          readData := data
          place := place } ∧
      (c.readIgnore = ignore + 1 ∧ data = c.readData ∨
        c.readIgnore = 0 ∧ ignore = 0 ∧ data = c.readData ++ [result.setWidth 8]) ∧
      (place = .waitTmt ∧ ignore = 0 ∧ data.length = c.readLength ∨
        place = .poll ∧ ¬ (ignore = 0 ∧ data.length = c.readLength)) := by
  rw [next, hp]
  simp only [receive]
  by_cases hpos : c.readIgnore > 0
  · rw [if_pos hpos]
    by_cases hfin : c.readIgnore - 1 = 0 ∧ c.readData.length = c.readLength
    · rw [if_pos hfin]
      exact ⟨.waitTmt, c.readIgnore - 1, _, rfl, Or.inl ⟨by omega, rfl⟩, Or.inl ⟨rfl, hfin⟩⟩
    · rw [if_neg hfin]
      exact ⟨.poll, c.readIgnore - 1, _, rfl, Or.inl ⟨by omega, rfl⟩, Or.inr ⟨rfl, hfin⟩⟩
  · have hzero : c.readIgnore = 0 := by omega
    rw [if_neg hpos]
    by_cases hfin : c.readIgnore = 0 ∧ (c.readData ++ [result.setWidth 8]).length = c.readLength
    · rw [if_pos hfin]
      exact ⟨.waitTmt, _, _, rfl, Or.inr ⟨hzero, hzero, rfl⟩, Or.inl ⟨rfl, hfin⟩⟩
    · rw [if_neg hfin]
      exact ⟨.poll, _, _, rfl, Or.inr ⟨hzero, hzero, rfl⟩, Or.inr ⟨rfl, hfin⟩⟩

theorem next_of_waitTmt (hp : c.place = .waitTmt) (ht : result &&& statusTmtMsk ≠ 0#32) :
    ∃ place, (place = .release ∨ place = .done) ∧
      c.next result = { c with place := place, status := result } := by
  rw [next, hp]
  simp only
  rw [if_neg ht]
  split
  · exact ⟨.release, Or.inl rfl, rfl⟩
  · exact ⟨.done, Or.inr rfl, rfl⟩

theorem next_of_release (hp : c.place = .release) : c.next result = { c with place := .done } := by
  rw [next, hp]

theorem next_of_done (hp : c.place = .done) : c.next result = c := by
  rw [next, hp]

end AltAvalonSpiCommand

end ADS131A0X
