import ADS131A0X.Base.Serial
import ADS131A0X.Nios.Spi

/-!
# The SPI core refines a serial port

What the core is for: it exchanges bytes, one at a time. A byte that is written waits until the
line is free; a transfer then takes 3529 clocks and ends with the received byte in the receive
register. Strobes, divider, state and shift register are how the core does it.

## Main definitions

* `Transfer`, `Transfer.start`, `Transfer.tick`: a byte on the line, by the clocks since its start
* `SerialPort`, `SerialPort.next`: the port and one clock
* `Spi.Idle`, `Spi.Sends`: the registers of the core between transfers and along one
* `Spi.Matches`: the refinement relation

## Main results

* `Spi.Sends.tick`: a clock of the core along a transfer
* `Spi.Matches.posedgeClk`: a clock of the core is a clock of the port
* `Spi.Run.matches_port`: the relation holds along every run
-/

namespace ADS131A0X

open Waveform

/-! ## The port -/

/-- A transfer, `clocks` edges after the shift register was loaded with `byte`. The bits received so
far are the levels of `MISO` at the falling edges of `SCLK`, which are 392 clocks apart. -/
structure Transfer where
  byte : BitVec 8
  clocks : ℕ
  bits : List Bool
  clocks_le : clocks ≤ 3528
  length_bits : bits.length = (clocks + 196) / 392 - 1
  deriving DecidableEq, Repr

namespace Transfer

/-- The start of a transfer. -/
def start (byte : BitVec 8) : Transfer where
  byte
  clocks := 0
  bits := []
  clocks_le := by omega
  length_bits := by simp

/-- `SCLK` falls at the next edge. -/
def Samples (t : Transfer) : Prop := (t.clocks + 1) % 392 = 196 ∧ 588 ≤ t.clocks + 1

instance (t : Transfer) : Decidable t.Samples := inferInstanceAs (Decidable (_ ∧ _))

/-- One clock of a transfer that is not at its end. -/
def tick (t : Transfer) (h : t.clocks < 3528) (miso : Bool) : Transfer where
  byte := t.byte
  clocks := t.clocks + 1
  bits := if t.Samples then t.bits ++ [miso] else t.bits
  clocks_le := h
  length_bits := by
    have hlen := t.length_bits
    split
    · next hs =>
      obtain ⟨h0, h1⟩ := hs
      rw [List.length_append, List.length_singleton]
      omega
    · next hs =>
      rw [Samples] at hs
      omega

/-- The level of `SCLK`: eight pulses, high for 196 clocks each. -/
def sclk (t : Transfer) : Bool :=
  decide (392 ≤ t.clocks ∧ t.clocks < 3332 ∧ t.clocks / 196 % 2 = 0)

/-- The shift register: each received bit enters it half a bit time after it was sampled. -/
def shiftReg (t : Transfer) : BitVec 8 := shifted t.byte (t.bits.take (t.clocks / 392 - 1))

section Tick

variable {t : Transfer} {h : t.clocks < 3528} {miso : Bool}

@[simp] theorem tick_byte : (t.tick h miso).byte = t.byte := rfl

@[simp] theorem tick_clocks : (t.tick h miso).clocks = t.clocks + 1 := rfl

theorem tick_bits : (t.tick h miso).bits = if t.Samples then t.bits ++ [miso] else t.bits := rfl

/-- `SCLK` toggles every 196 clocks, but for the first and the last 196. -/
theorem tick_sclk : (t.tick h miso).sclk =
    if t.clocks % 196 = 195 ∧ 196 ≤ t.clocks ∧ t.clocks < 3332 then !t.sclk else t.sclk := by
  rw [sclk, sclk, tick_clocks, ← decide_not]
  split
  · exact decide_eq_decide.mpr (by omega)
  · exact decide_eq_decide.mpr (by omega)

/-- `SCLK` is high when it is about to fall. -/
theorem samples_iff : t.Samples ↔ t.clocks % 196 = 195 ∧ t.sclk = true := by
  have hle := t.clocks_le
  rw [Samples, sclk, decide_eq_true_iff]
  omega

/-- The bit that was sampled last enters the shift register as `SCLK` rises again, or at the end. -/
theorem tick_shiftReg : (t.tick h miso).shiftReg =
    if t.clocks % 196 = 195 ∧ 392 ≤ t.clocks ∧ t.sclk = false then
      t.shiftReg.shiftConcat (t.bits.getLastD false)
    else t.shiftReg := by
  have hlen := t.length_bits
  have hle := t.clocks_le
  have hsclk : t.sclk = false ↔ ¬ (392 ≤ t.clocks ∧ t.clocks < 3332 ∧ t.clocks / 196 % 2 = 0) := by
    rw [sclk, decide_eq_false_iff_not]
  rw [shiftReg, shiftReg, tick_byte, tick_clocks, tick_bits]
  by_cases hshift : t.clocks % 196 = 195 ∧ 392 ≤ t.clocks ∧ t.sclk = false
  -- a shift: no bit is sampled at this edge, and all sampled bits are shifted in
  · have hs : ¬ t.Samples := fun hs => by simp [(samples_iff.mp hs).2] at hshift
    rw [if_pos hshift, if_neg hs]
    rw [hsclk] at hshift
    obtain ⟨bits, last, hbits⟩ : ∃ bits last, t.bits = bits ++ [last] := by
      rcases List.eq_nil_or_concat' t.bits with hnil | hconcat
      · rw [hnil, List.length_nil] at hlen
        omega
      · exact hconcat
    rw [hbits, List.length_append, List.length_singleton] at hlen
    have hall : (t.clocks + 1) / 392 - 1 = (bits ++ [last]).length := by
      rw [List.length_append, List.length_singleton]
      omega
    have hrest : t.clocks / 392 - 1 = bits.length := by omega
    rw [hbits, hall, hrest, List.take_length, List.take_left, shifted_concat]
    simp
  -- otherwise the number of shifts rests, and a bit that is sampled waits
  · have hcount : (t.clocks + 1) / 392 - 1 = t.clocks / 392 - 1 := by
      rw [hsclk] at hshift
      omega
    rw [if_neg hshift, hcount]
    by_cases hs : t.Samples
    · rw [if_pos hs, List.take_append_of_le_length (by omega)]
    · rw [if_neg hs]

end Tick

end Transfer

/-- The serial port: the transfer on the line, the byte that waits for it, the byte received last
with its flag, and the overrun flags. -/
structure SerialPort where
  transfer : Option Transfer := none
  pending : Option (BitVec 8) := none
  received : BitVec 8 := 0#8
  rrdy : Bool := false
  roe : Bool := false
  toe : Bool := false
  deriving DecidableEq, Repr

namespace SerialPort

/-- What reaches the port at a clock: a byte that is written, a read of the received byte, a clear of
the flags, and the level of `MISO`. -/
structure Inputs where
  write : Option (BitVec 8) := none
  read : Bool := false
  clear : Bool := false
  miso : Bool
  deriving DecidableEq, Repr

/-- There is room for one more byte. -/
def trdy (p : SerialPort) : Bool := !(p.transfer.isSome && p.pending.isSome)

/-- The byte that is received at the next clock, if the transfer is at its end. -/
def completed (p : SerialPort) : Option (BitVec 8) :=
  match p.transfer with
  | none => none
  | some t => if t.clocks < 3528 then none else some t.shiftReg

/-- One clock of the port. -/
def next (i : Inputs) (p : SerialPort) : SerialPort where
  transfer :=
    match p.transfer with
    -- a free line takes the byte that waits
    | none => p.pending.map .start
    | some t => if h : t.clocks < 3528 then some (t.tick h i.miso) else none
  pending :=
    match i.write with
    | some byte => if p.trdy then some byte else p.pending
    | none => if p.transfer.isSome then p.pending else none
  received := p.completed.getD p.received
  rrdy := if p.completed.isSome then true else p.rrdy && !i.read && !i.clear
  roe := if p.completed.isSome && p.rrdy then true else p.roe && !i.clear
  toe := !i.clear && (p.toe || (i.write.isSome && !p.trdy))

end SerialPort

/-! ## The registers of the core -/

namespace Spi

/-- The registers between two transfers. The divider rests at 0, one clock after the end. -/
structure Idle (m : Spi) : Prop where
  transmitting : m.transmitting = false
  slowcount : m.slowcount.toNat ≤ 1
  state : m.state = 0#5
  stateZero : m.stateZero = true
  sclkReg : m.sclkReg = false
  transactionPrimed : m.transactionPrimed = false

/-- The registers along a transfer. -/
structure Sends (m : Spi) (t : Transfer) : Prop where
  transmitting : m.transmitting = true
  slowcount : m.slowcount.toNat = t.clocks % 196
  state : m.state.toNat = t.clocks / 196 % 18
  stateZero : m.stateZero = decide (t.clocks / 196 % 18 = 0)
  sclkReg : m.sclkReg = t.sclk
  transactionPrimed : m.transactionPrimed = decide (t.clocks = 3528)
  shiftReg : m.shiftReg = t.shiftReg
  misoReg : ∀ b ∈ t.bits.getLast?, m.misoReg = b

variable {m : Spi} {t : Transfer} {i : Inputs}

/-- The shift of the source. -/
theorem extractLsb'_append_ofBool (x : BitVec 8) (level : Bool) :
    x.extractLsb' 0 7 ++ BitVec.ofBool level = x.shiftConcat level := by
  apply BitVec.eq_of_getLsbD_eq
  intro k hk
  rw [BitVec.getLsbD_append, BitVec.getLsbD_ofBool, BitVec.getLsbD_extractLsb',
    BitVec.getLsbD_shiftConcat]
  by_cases h0 : k = 0
  · simp [h0]
  · have hlt : ¬ k < 1 := by omega
    have h7 : k - 1 < 7 := by omega
    simp [h0, hlt, h7, hk]

theorem slowclock_iff : m.slowclock = true ↔ m.slowcount.toNat = 195 := by
  rw [slowclock, beq_iff_eq, ← BitVec.toNat_inj]
  rfl

theorem Idle.slowclock (h : m.Idle) : m.slowclock = false := by
  have := h.slowcount
  rw [← Bool.not_eq_true, slowclock_iff]
  omega

/-- The divider is clear, after a clock without a transfer. -/
theorem Idle.p1Slowcount (h : m.Idle) : m.p1Slowcount = 0#8 := by
  rw [Spi.p1Slowcount, h.transmitting, Bool.false_and, if_neg (by simp)]

/-- Nothing to send: the core stays idle. -/
theorem Idle.rest (h : m.Idle) (hp : m.txHoldingPrimed = false) : (m.posedgeClk i).Idle where
  transmitting := by simp [posedgeClk, writeShiftReg, h.transmitting, hp]
  slowcount := by simp [posedgeClk, h.p1Slowcount]
  state := by simp [posedgeClk, h.transmitting, h.state]
  stateZero := by simp [posedgeClk, h.transmitting, h.stateZero]
  sclkReg := by simp [posedgeClk, nextSclkReg, h.transmitting, h.sclkReg]
  transactionPrimed := by simp [posedgeClk, h.slowclock, h.transactionPrimed]

/-- A byte waits: its transfer starts. -/
theorem Idle.start (h : m.Idle) (hp : m.txHoldingPrimed = true) :
    (m.posedgeClk i).Sends (.start m.txHoldingReg) where
  transmitting := by simp [posedgeClk, writeShiftReg, h.transmitting, h.transactionPrimed, hp]
  slowcount := by simp [posedgeClk, h.p1Slowcount, Transfer.start]
  state := by simp [posedgeClk, h.transmitting, h.state, Transfer.start]
  stateZero := by simp [posedgeClk, h.transmitting, h.stateZero, Transfer.start]
  sclkReg := by simp [posedgeClk, nextSclkReg, h.transmitting, h.sclkReg, Transfer.sclk, Transfer.start]
  transactionPrimed := by simp [posedgeClk, h.slowclock, h.transactionPrimed, Transfer.start]
  shiftReg := by
    simp [posedgeClk, nextShiftReg, h.slowclock, writeShiftReg, h.transmitting, hp,
      Transfer.shiftReg, Transfer.start]
  misoReg := by simp [Transfer.start]

namespace Sends

theorem slowclock_iff (h : m.Sends t) : m.slowclock = true ↔ t.clocks % 196 = 195 := by
  rw [Spi.slowclock_iff, h.slowcount]

/-- The end of a transfer. -/
theorem rest (h : m.Sends t) (ht : ¬ t.clocks < 3528) : (m.posedgeClk i).Idle := by
  have hclocks : t.clocks = 3528 := by
    have := t.clocks_le
    omega
  have hslow : m.slowclock = false := by
    rw [← Bool.not_eq_true, h.slowclock_iff]
    omega
  have hprimed : m.transactionPrimed = true := by rw [h.transactionPrimed, hclocks]; rfl
  have hstate : m.state = 0#5 := by
    rw [← BitVec.toNat_inj, h.state, hclocks]
    rfl
  have hzero : m.slowcount = 0#8 := by
    rw [← BitVec.toNat_inj, h.slowcount, hclocks]
    rfl
  exact {
    transmitting := by simp [posedgeClk, hprimed]
    slowcount := by simp [posedgeClk, p1Slowcount, hslow, h.transmitting, hzero]
    state := by simp [posedgeClk, hslow, hstate]
    stateZero := by simp [posedgeClk, hslow, h.stateZero, hclocks]
    sclkReg := by simp [posedgeClk, nextSclkReg, hslow, hprimed]
    transactionPrimed := by simp [posedgeClk, hslow, hprimed] }

/-- The comparisons of the source with a literal. -/
theorem state_eq_ofNat (h : m.Sends t) {k : ℕ} (hk : k < 18) (ht : t.clocks < 3528) :
    m.state = BitVec.ofNat 5 k ↔ t.clocks / 196 = k := by
  rw [← BitVec.toNat_inj, h.state, BitVec.toNat_ofNat]
  omega

/-- The register of the sampled level holds the last bit when it is shifted in. -/
theorem misoReg_eq (h : m.Sends t)
    (hs : t.clocks % 196 = 195 ∧ 392 ≤ t.clocks ∧ t.sclk = false) :
    m.misoReg = t.bits.getLastD false := by
  have hlen := t.length_bits
  rw [Transfer.sclk, decide_eq_false_iff_not] at hs
  have hne : t.bits ≠ [] := by
    intro hnil
    rw [hnil, List.length_nil] at hlen
    omega
  have hlast := List.getLast?_eq_some_getLast hne
  rw [h.misoReg _ hlast, List.getLastD_eq_getLast?, hlast]
  rfl

/-- **A clock along a transfer.** -/
theorem tick (h : m.Sends t) (ht : t.clocks < 3528) :
    (m.posedgeClk i).Sends (t.tick ht i.miso) := by
  have hslow := h.slowclock_iff
  have h0 := h.state_eq_ofNat (k := 0) (by omega) ht
  have h1 := h.state_eq_ofNat (k := 1) (by omega) ht
  have h17 := h.state_eq_ofNat (k := 17) (by omega) ht
  have hprimed : m.transactionPrimed = false := by
    rw [h.transactionPrimed]
    exact decide_eq_false (by omega)
  have hcount := h.slowcount
  have hst := h.state
  have hlevel := h.sclkReg
  have hsclk : m.sclkReg = true ↔ 392 ≤ t.clocks ∧ t.clocks < 3332 ∧ t.clocks / 196 % 2 = 0 := by
    rw [hlevel, Transfer.sclk, decide_eq_true_iff]
  refine ⟨?_, ?_, ?_, ?_, ?_, ?_, ?_, ?_⟩
  · simp [posedgeClk, writeShiftReg, h.transmitting, hprimed]
  -- the divider
  · show m.p1Slowcount.toNat = (t.clocks + 1) % 196
    rw [p1Slowcount, h.transmitting, Bool.true_and]
    by_cases hs : t.clocks % 196 = 195
    · rw [hslow.mpr hs]
      simp
      omega
    · rw [Bool.not_eq_true _ |>.mp (mt hslow.mp hs)]
      simp [BitVec.toNat_add, hcount]
      omega
  -- the state advances every 196 clocks
  · show (if m.transmitting && m.slowclock then
      if m.state = 17#5 then 0#5 else m.state + 1#5 else m.state).toNat = (t.clocks + 1) / 196 % 18
    rw [h.transmitting, Bool.true_and]
    by_cases hs : t.clocks % 196 = 195
    · rw [hslow.mpr hs, if_pos rfl]
      split
      · next hlast =>
        have := h17.mp hlast
        simp
        omega
      · next hlast =>
        have := mt h17.mpr hlast
        rw [BitVec.toNat_add, hst]
        simp
        omega
    · rw [Bool.not_eq_true _ |>.mp (mt hslow.mp hs), if_neg (by simp), hst]
      omega
  · show (if m.transmitting && m.slowclock then m.state == 17#5 else m.stateZero) =
      decide ((t.clocks + 1) / 196 % 18 = 0)
    rw [h.transmitting, Bool.true_and]
    by_cases hs : t.clocks % 196 = 195
    · rw [hslow.mpr hs, if_pos rfl, beq_eq_decide]
      exact decide_eq_decide.mpr (h17.trans (by omega))
    · rw [Bool.not_eq_true _ |>.mp (mt hslow.mp hs), if_neg (by simp), h.stateZero]
      exact decide_eq_decide.mpr (by omega)
  -- `SCLK` toggles with it, but for the states 0 and 17
  · show m.nextSclkReg = _
    rw [Transfer.tick_sclk, ← hlevel, nextSclkReg, hprimed]
    refine if_congr ?_ rfl (by simp)
    simp only [Bool.and_eq_true, bne_iff_ne, ne_eq, hslow, h0, h17, h.transmitting, and_true]
    omega
  · show (if m.slowclock && m.state == 17#5 then true
      else if m.transactionPrimed then false else m.transactionPrimed) = decide (t.clocks + 1 = 3528)
    have hlast : (m.slowclock && m.state == 17#5) = true ↔ t.clocks + 1 = 3528 := by
      simp only [Bool.and_eq_true, beq_iff_eq, hslow, h17]
      omega
    by_cases hc : t.clocks + 1 = 3528
    · rw [if_pos (hlast.mpr hc), decide_eq_true hc]
    · rw [if_neg (mt hlast.mp hc), hprimed, decide_eq_false hc]
      rfl
  -- the shift register and the sampled level
  · have hshift : (m.slowclock && !m.sclkReg && (m.state != 0#5 && m.state != 1#5)) = true ↔
        t.clocks % 196 = 195 ∧ 392 ≤ t.clocks ∧ t.sclk = false := by
      simp only [Bool.and_eq_true, Bool.not_eq_true', bne_iff_ne, ne_eq, hslow, h0, h1, ← hlevel,
        Bool.eq_false_iff, hsclk]
      omega
    show m.nextShiftReg = _
    rw [nextShiftReg, writeShiftReg, h.transmitting, Bool.not_true, Bool.and_false,
      if_neg Bool.false_ne_true, Transfer.tick_shiftReg, h.shiftReg]
    by_cases hs : t.clocks % 196 = 195 ∧ 392 ≤ t.clocks ∧ t.sclk = false
    · rw [if_pos (hshift.mpr hs), if_pos hs, extractLsb'_append_ofBool, h.misoReg_eq hs]
    · rw [if_neg (mt hshift.mp hs), if_neg hs]
  · have hsample : (m.slowclock && m.sclkReg) = true ↔ t.Samples := by
      rw [Bool.and_eq_true, hslow, hlevel, Transfer.samples_iff]
    show ∀ b ∈ (t.tick ht i.miso).bits.getLast?, (if m.slowclock && m.sclkReg then i.miso
      else m.misoReg) = b
    rw [Transfer.tick_bits]
    by_cases hs : t.Samples
    · rw [if_pos (hsample.mpr hs), if_pos hs]
      simp
    · rw [if_neg (mt hsample.mp hs), if_neg hs]
      exact h.misoReg

end Sends

/-! ## The refinement -/

/-- What reaches the port at an edge of `clk`: the second cycle of an access. -/
def portInputs (i : Inputs) (m : Spi) : SerialPort.Inputs where
  write := if m.dataWrStrobe then some (i.dataFromCpu.setWidth 8) else none
  read := m.dataRdStrobe
  clear := m.statusWrStrobe i
  miso := i.miso

/-- The core holds what the port says. -/
structure Matches (m : Spi) (p : SerialPort) : Prop where
  line :
    match p.transfer with
    | none => m.Idle
    | some t => m.Sends t
  txHoldingPrimed : m.txHoldingPrimed = p.pending.isSome
  txHoldingReg : ∀ byte ∈ p.pending, m.txHoldingReg = byte
  rxHoldingReg : m.rxHoldingReg = p.received
  rrdy : m.rrdy = p.rrdy
  roe : m.roe = p.roe
  toe : m.toe = p.toe

namespace Matches

variable {p : SerialPort}

theorem idle (h : m.Matches p) (hp : p.transfer = none) : m.Idle := by
  have hline := h.line
  rwa [hp] at hline

theorem sends (h : m.Matches p) (hp : p.transfer = some t) : m.Sends t := by
  have hline := h.line
  rwa [hp] at hline

theorem transmitting (h : m.Matches p) : m.transmitting = p.transfer.isSome := by
  cases hp : p.transfer with
  | none => exact (h.idle hp).transmitting
  | some t => exact (h.sends hp).transmitting

theorem trdy (h : m.Matches p) : m.trdy = p.trdy := by
  rw [Spi.trdy, SerialPort.trdy, h.transmitting, h.txHoldingPrimed]

theorem tmt (h : m.Matches p) : m.tmt = (p.transfer.isNone && p.pending.isNone) := by
  rw [Spi.tmt, h.transmitting, h.txHoldingPrimed, Option.not_isSome, Option.not_isSome]

theorem writeShiftReg (h : m.Matches p) :
    m.writeShiftReg = (p.pending.isSome && p.transfer.isNone) := by
  rw [Spi.writeShiftReg, h.transmitting, h.txHoldingPrimed, Option.not_isSome]

/-- `transaction_primed` flags the end of a transfer, with the received byte in the shift
register. -/
theorem completed (h : m.Matches p) :
    p.completed = if m.transactionPrimed then some m.shiftReg else none := by
  rw [SerialPort.completed]
  cases hp : p.transfer with
  | none => simp [(h.idle hp).transactionPrimed]
  | some t =>
    have hs := h.sends hp
    have hle := t.clocks_le
    simp only [hs.transactionPrimed, hs.shiftReg, decide_eq_true_eq]
    by_cases ht : t.clocks < 3528
    · rw [if_pos ht, if_neg (by omega)]
    · rw [if_neg ht, if_pos (by omega)]

theorem completed_isSome (h : m.Matches p) : p.completed.isSome = m.transactionPrimed := by
  rw [h.completed]
  cases m.transactionPrimed <;> rfl

theorem line_next (h : m.Matches p) (i : Inputs) :
    match (p.next (m.portInputs i)).transfer with
    | none => (m.posedgeClk i).Idle
    | some t => (m.posedgeClk i).Sends t := by
  rw [SerialPort.next]
  cases hp : p.transfer with
  | none =>
    have hprimed := h.txHoldingPrimed
    cases hpend : p.pending with
    | none =>
      rw [hpend] at hprimed
      exact (h.idle hp).rest hprimed
    | some byte =>
      rw [hpend] at hprimed
      have hstart := (h.idle hp).start (i := i) hprimed
      rwa [h.txHoldingReg byte hpend] at hstart
  | some t =>
    by_cases ht : t.clocks < 3528
    · simp only [ht, dif_pos]
      exact (h.sends hp).tick ht
    · simp only [ht, dif_neg, not_false_eq_true]
      exact (h.sends hp).rest ht

/-- The byte that waits: a new one, or none once it has gone to the shift register. -/
theorem pending_next (h : m.Matches p) (i : Inputs) :
    (p.next (m.portInputs i)).pending =
      if m.writeTxHolding then some (i.dataFromCpu.setWidth 8)
      else if m.writeShiftReg then none
      else p.pending := by
  rw [h.writeShiftReg, writeTxHolding, h.trdy, SerialPort.next, SerialPort.trdy, portInputs]
  cases m.dataWrStrobe <;> cases p.transfer <;> cases hp : p.pending <;> simp

/-- **A clock of the core is a clock of the port.** -/
theorem posedgeClk (h : m.Matches p) (i : Inputs) :
    (m.posedgeClk i).Matches (p.next (m.portInputs i)) where
  line := h.line_next i
  txHoldingPrimed := by
    show (if m.writeShiftReg && !m.writeTxHolding then false
      else if m.writeTxHolding then true else m.txHoldingPrimed) = _
    rw [h.pending_next, h.txHoldingPrimed]
    cases m.writeTxHolding <;> cases m.writeShiftReg <;> simp
  txHoldingReg := by
    show ∀ byte ∈ (p.next (m.portInputs i)).pending,
      (if m.writeTxHolding then i.dataFromCpu.setWidth 8 else m.txHoldingReg) = byte
    rw [h.pending_next]
    cases m.writeTxHolding with
    | true => simp
    | false =>
      cases m.writeShiftReg with
      | true => simp
      | false => exact h.txHoldingReg
  rxHoldingReg := by
    show (if m.transactionPrimed then m.shiftReg else m.rxHoldingReg) =
      p.completed.getD p.received
    rw [h.completed, h.rxHoldingReg]
    cases m.transactionPrimed <;> rfl
  rrdy := by
    show (if m.transactionPrimed then true else if m.statusWrStrobe i then false
      else if m.dataRdStrobe then false else m.rrdy) =
        if p.completed.isSome then true else p.rrdy && !m.dataRdStrobe && !m.statusWrStrobe i
    rw [h.completed_isSome, h.rrdy]
    cases m.transactionPrimed <;> cases m.statusWrStrobe i <;> cases m.dataRdStrobe <;> simp
  roe := by
    show (if m.transactionPrimed && m.rrdy then true else if m.statusWrStrobe i then false
      else m.roe) = if p.completed.isSome && p.rrdy then true else p.roe && !m.statusWrStrobe i
    rw [h.completed_isSome, h.rrdy, h.roe]
    cases m.statusWrStrobe i <;> simp
  toe := by
    show (if m.statusWrStrobe i then false else if m.dataWrStrobe && !m.trdy then true
      else m.toe) = (!m.statusWrStrobe i && (p.toe || ((m.portInputs i).write.isSome && !p.trdy)))
    rw [h.trdy, h.toe, portInputs]
    cases m.statusWrStrobe i <;> cases m.dataWrStrobe <;> cases p.trdy <;> simp

theorem init : Matches {} {} where
  line := ⟨rfl, by decide, rfl, rfl, rfl, rfl⟩
  txHoldingPrimed := rfl
  txHoldingReg := by simp
  rxHoldingReg := rfl
  rrdy := rfl
  roe := rfl
  toe := rfl

end Matches

namespace Run

/-- The port along a run of the core. -/
def port (ρ : Run) : ℕ → SerialPort
  | 0 => {}
  | n + 1 =>
    match ρ.event n with
    | .clk i => (ρ.port n).next ((ρ.spi n).portInputs i)
    | .reset => {}

/-- **Refinement.** Along every run the core holds what the port says. -/
theorem matches_port (ρ : Run) (n : ℕ) : (ρ.spi n).Matches (ρ.port n) := by
  induction n with
  | zero => exact .init
  | succ n ih =>
    rw [spi_succ, port]
    cases ρ.event n with
    | clk i => exact ih.posedgeClk i
    | reset => exact .init

end Run

end Spi

end ADS131A0X
