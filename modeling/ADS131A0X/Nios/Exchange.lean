import ADS131A0X.Nios.SerialPort

/-!
# The exchange of bytes

The port is two pipelines. On the way out a byte passes the holding register and the shift register,
which gives out its bits; on the way in the shift register collects bits and gives out bytes. Each
of these is a stage that loses nothing, so the bits on the wires are the bytes of the software, as
long as no reset comes in between.

## Main definitions

* `Spi.Run.accepted`, `Spi.Run.received`: the bytes that a step takes from the bus, and that it
  hands to the receive register
* `Spi.Run.NoReset`: a stretch of a run without a reset

## Main results

* `SerialPort.queue_step`, `SerialPort.send_step`, `SerialPort.receive_step`: the three stages
* `Spi.Run.fallsAt_iff`: the falling edges of `SCLK`
* `Spi.Run.bytes_exchanged`: the bits on the wires are the bytes on the bus
-/

namespace ADS131A0X

open Waveform

/-! ## The stages of the port -/

namespace Transfer

variable {t : Transfer}

/-- `SCLK` falls once for every bit. -/
theorem length_bits_of_samples (h : t.Samples) :
    t.bits.length < 8 ∧ t.clocks / 392 - 1 = t.bits.length := by
  have hlen := t.length_bits
  have hle := t.clocks_le
  obtain ⟨h0, h1⟩ := h
  omega

/-- What `MOSI` carries as `SCLK` falls. -/
theorem msb_shiftReg (h : t.Samples) : t.shiftReg.msb = t.byte.getMsbD t.bits.length := by
  obtain ⟨hlt, hcount⟩ := length_bits_of_samples h
  rw [shiftReg, hcount, List.take_length, msb_shifted _ hlt]

/-- A transfer ends with all bits in the shift register. -/
theorem msbFirst_shiftReg (h : ¬ t.clocks < 3528) : msbFirst t.shiftReg = t.bits := by
  have hlen := t.length_bits
  have hle := t.clocks_le
  have h8 : t.bits.length = 8 := by omega
  rw [shiftReg, List.take_of_length_le (by omega), msbFirst_shifted_of_length _ h8]

end Transfer

namespace SerialPort

/-- The level of `SCLK`. -/
def sclk (p : SerialPort) : Bool :=
  match p.transfer with
  | none => false
  | some t => t.sclk

/-- The byte that is taken from the bus at a clock. -/
def accepted (i : Inputs) (p : SerialPort) : List (BitVec 8) :=
  match i.write with
  | none => []
  | some byte => if p.trdy then [byte] else []

/-- The byte that goes to the shift register at a clock. -/
def loaded (p : SerialPort) : List (BitVec 8) :=
  match p.transfer with
  | none => p.pending.toList
  | some _ => []

/-- The bit that is given out at a clock. -/
def bitOut (p : SerialPort) : List Bool :=
  match p.transfer with
  | none => []
  | some t => if t.Samples then [t.byte.getMsbD t.bits.length] else []

/-- The bit that is taken in at a clock. -/
def bitIn (miso : Bool) (p : SerialPort) : List Bool :=
  match p.transfer with
  | none => []
  | some t => if t.Samples then [miso] else []

/-- The bits of the transfer that are to be given out. -/
def bitsToSend (p : SerialPort) : List Bool :=
  match p.transfer with
  | none => []
  | some t => (msbFirst t.byte).drop t.bits.length

/-- The bits of the transfer that have been taken in. -/
def bitsReceived (p : SerialPort) : List Bool :=
  match p.transfer with
  | none => []
  | some t => t.bits

variable (i : Inputs) (p : SerialPort)

/-- The holding register passes bytes on to the shift register. -/
theorem queue_step :
    p.pending.toList ++ p.accepted i = p.loaded ++ (p.next i).pending.toList := by
  rw [accepted, loaded, next, trdy]
  cases i.write <;> cases p.transfer <;> cases p.pending <;> rfl

/-- The shift register gives out the bits of a byte. -/
theorem send_step :
    p.bitsToSend ++ p.loaded.flatMap msbFirst = p.bitOut ++ (p.next i).bitsToSend := by
  rw [bitsToSend, loaded, bitOut, bitsToSend, next]
  cases p.transfer with
  | none =>
    cases p.pending with
    | none => rfl
    | some byte => simp [Transfer.start]
  | some t =>
    have hlen := t.length_bits
    have hle := t.clocks_le
    by_cases ht : t.clocks < 3528
    · simp only [ht, dif_pos, List.flatMap_nil, List.append_nil, Transfer.tick_byte,
        Transfer.tick_bits]
      by_cases hs : t.Samples
      -- the next bit goes out
      · have hlt : t.bits.length < (msbFirst t.byte).length := by
          have := (Transfer.length_bits_of_samples hs).1
          simpa using this
        rw [if_pos hs, if_pos hs, List.drop_eq_getElem_cons hlt, getElem_msbFirst,
          List.length_append, List.length_singleton, List.singleton_append]
      · rw [if_neg hs, if_neg hs, List.nil_append]
    -- the end: all bits are out
    · have hs : ¬ t.Samples := fun hs => by
        have := (Transfer.length_bits_of_samples hs).1
        omega
      simp only [ht, dif_neg, not_false_eq_true, hs, if_false, List.flatMap_nil, List.append_nil]
      exact List.drop_eq_nil_of_le (by simp; omega)

/-- The shift register collects the bits of a byte. -/
theorem receive_step :
    p.bitsReceived ++ p.bitIn i.miso =
      p.completed.toList.flatMap msbFirst ++ (p.next i).bitsReceived := by
  rw [bitsReceived, bitIn, completed, bitsReceived, next]
  cases p.transfer with
  | none => cases p.pending <;> rfl
  | some t =>
    have hlen := t.length_bits
    have hle := t.clocks_le
    by_cases ht : t.clocks < 3528
    · simp only [ht, dif_pos, if_pos, Transfer.tick_bits, Option.toList_none, List.flatMap_nil,
        List.nil_append]
      by_cases hs : t.Samples
      · rw [if_pos hs, if_pos hs]
      · rw [if_neg hs, if_neg hs, List.append_nil]
    · have hs : ¬ t.Samples := fun hs => by
        have := (Transfer.length_bits_of_samples hs).1
        omega
      simp [ht, hs, Transfer.msbFirst_shiftReg ht]

/-- `SCLK` falls when the transfer samples. -/
theorem sclk_falls_iff :
    p.sclk = true ∧ (p.next i).sclk = false ↔ ∃ t, p.transfer = some t ∧ t.Samples := by
  rw [sclk, sclk, next]
  cases p.transfer with
  | none => simp
  | some t =>
    simp only [Option.some.injEq, exists_eq_left']
    rw [Transfer.samples_iff]
    by_cases ht : t.clocks < 3528
    · simp only [ht, dif_pos, Transfer.tick_sclk]
      have hsclk : t.sclk = true → 196 ≤ t.clocks ∧ t.clocks < 3332 := by
        rw [Transfer.sclk, decide_eq_true_iff]
        omega
      constructor
      · rintro ⟨hhigh, hlow⟩
        refine ⟨?_, hhigh⟩
        by_contra hc
        rw [if_neg fun h => hc h.1, hhigh] at hlow
        cases hlow
      · rintro ⟨hc, hhigh⟩
        refine ⟨hhigh, ?_⟩
        rw [if_pos ⟨hc, hsclk hhigh⟩, hhigh]
        rfl
    · have hle := t.clocks_le
      have hsclk : t.sclk = false := by
        rw [Transfer.sclk]
        exact decide_eq_false (by omega)
      simp [hsclk]

end SerialPort

/-! ## Whole runs -/

namespace Spi

theorem Matches.sclk {m : Spi} {p : SerialPort} (h : m.Matches p) : m.sclk = p.sclk := by
  rw [Spi.sclk, SerialPort.sclk]
  cases hp : p.transfer with
  | none => exact (h.idle hp).sclkReg
  | some t => exact (h.sends hp).sclkReg

namespace Run

variable (ρ : Run) (n : ℕ)

/-! ### Pins and bytes -/

/-- The output pin `SCLK` along the run. -/
def sclk : Signal := fun n => (ρ.spi n).sclk

/-- The output pin `MOSI` along the run. -/
def mosi : Signal := fun n => (ρ.spi n).mosi

/-- The output pin `SS_n` along the run. -/
def ssN : Signal := fun n => (ρ.spi n).ssN

/-- The input pin `MISO` along the run. -/
def miso : Signal := fun n =>
  match ρ.event n with
  | .clk i => i.miso
  | .reset => false

/-- The byte that step `n` takes from the bus. -/
def accepted : List (BitVec 8) :=
  match ρ.event n with
  | .clk i => if (ρ.spi n).writeTxHolding then [i.dataFromCpu.setWidth 8] else []
  | .reset => []

/-- The byte that step `n` hands to the receive register. -/
def received : List (BitVec 8) :=
  match ρ.event n with
  | .clk _ => if (ρ.spi n).transactionPrimed then [(ρ.spi n).shiftReg] else []
  | .reset => []

/-- There is no reset at the steps from `a` to `b`. -/
def NoReset (a b : ℕ) : Prop := ∀ n, a ≤ n → n < b → ρ.event n ≠ .reset

variable {ρ n} {a b : ℕ} {i : Inputs}

theorem NoReset.of_le {a' b' : ℕ} (h : ρ.NoReset a b) (ha : a ≤ a') (hb : b' ≤ b) :
    ρ.NoReset a' b' := fun n hn hn' => h n (ha.trans hn) (hn'.trans_le hb)

theorem NoReset.exists_clk (h : ρ.NoReset a b) (ha : a ≤ n) (hb : n < b) :
    ∃ i, ρ.event n = .clk i := by
  cases he : ρ.event n with
  | clk i => exact ⟨i, rfl⟩
  | reset => exact absurd he (h n ha hb)

theorem spi_succ_of_clk (h : ρ.event n = .clk i) : ρ.spi (n + 1) = (ρ.spi n).posedgeClk i := by
  rw [spi_succ, h]
  rfl

theorem port_succ_of_clk (h : ρ.event n = .clk i) :
    ρ.port (n + 1) = (ρ.port n).next ((ρ.spi n).portInputs i) := by
  rw [port, h]

/-! ### The pins in terms of the port -/

theorem sclk_eq : ρ.sclk n = (ρ.port n).sclk := (ρ.matches_port n).sclk

/-- **The falling edges of `SCLK`** are the sampling clocks of the transfers. -/
theorem fallsAt_iff (h : ρ.event n = .clk i) :
    ρ.sclk.FallsAt n ↔ ∃ t, (ρ.port n).transfer = some t ∧ t.Samples := by
  rw [Signal.FallsAt, sclk_eq, sclk_eq, port_succ_of_clk h, SerialPort.sclk_falls_iff]

theorem bitOut_eq (h : ρ.event n = .clk i) :
    (if ρ.sclk.FallsAt n then [ρ.mosi n] else []) = (ρ.port n).bitOut := by
  simp only [fallsAt_iff h, SerialPort.bitOut]
  cases hp : (ρ.port n).transfer with
  | none => simp
  | some t =>
    simp only [Option.some.injEq, exists_eq_left']
    by_cases hs : t.Samples
    · have hmosi : ρ.mosi n = t.byte.getMsbD t.bits.length := by
        rw [← Transfer.msb_shiftReg hs, ← ((ρ.matches_port n).sends hp).shiftReg]
        rfl
      rw [if_pos hs, if_pos hs, hmosi]
    · rw [if_neg hs, if_neg hs]

theorem bitIn_eq (h : ρ.event n = .clk i) :
    (if ρ.sclk.FallsAt n then [ρ.miso n] else []) = (ρ.port n).bitIn i.miso := by
  simp only [fallsAt_iff h, SerialPort.bitIn, miso, h]
  cases (ρ.port n).transfer <;> simp

theorem accepted_eq (h : ρ.event n = .clk i) :
    ρ.accepted n = (ρ.port n).accepted ((ρ.spi n).portInputs i) := by
  rw [accepted, h, SerialPort.accepted, portInputs]
  simp only [writeTxHolding, (ρ.matches_port n).trdy]
  cases (ρ.spi n).dataWrStrobe <;> rfl

theorem received_eq (h : ρ.event n = .clk i) : ρ.received n = (ρ.port n).completed.toList := by
  rw [received, h, (ρ.matches_port n).completed]
  simp only
  split <;> rfl

/-- The receive register holds the byte that was handed to it. -/
theorem rxHoldingReg_succ {byte : BitVec 8} (h : ρ.received n = [byte]) :
    (ρ.spi (n + 1)).rxHoldingReg = byte := by
  rw [received] at h
  cases he : ρ.event n with
  | reset => simp [he] at h
  | clk i =>
    rw [he] at h
    rw [spi_succ_of_clk he]
    show (if (ρ.spi n).transactionPrimed then (ρ.spi n).shiftReg else _) = byte
    by_cases hp : (ρ.spi n).transactionPrimed = true
    · simpa [hp] using h
    · simp [hp] at h

/-! ### Conservation -/

/-- The way out: bytes from the bus to bits on `MOSI`. -/
theorem stage_out (h : ρ.NoReset a b) :
    Stage (fun n => (ρ.accepted n).flatMap msbFirst)
      (fun n => (ρ.port n).bitsToSend ++ (ρ.port n).pending.toList.flatMap msbFirst)
      (fun n => if ρ.sclk.FallsAt n then [ρ.mosi n] else []) a b := by
  have hqueue : Stage ρ.accepted (fun n => (ρ.port n).pending.toList)
      (fun n => (ρ.port n).loaded) a b := by
    intro n ha hb
    obtain ⟨i, he⟩ := h.exists_clk ha hb
    beta_reduce
    rw [accepted_eq he, port_succ_of_clk he]
    exact SerialPort.queue_step _ _
  have hsend : Stage (fun n => (ρ.port n).loaded.flatMap msbFirst)
      (fun n => (ρ.port n).bitsToSend)
      (fun n => if ρ.sclk.FallsAt n then [ρ.mosi n] else []) a b := by
    intro n ha hb
    obtain ⟨i, he⟩ := h.exists_clk ha hb
    beta_reduce
    rw [bitOut_eq he, port_succ_of_clk he]
    exact SerialPort.send_step _ _
  exact (hqueue.flatMap msbFirst).comp hsend

/-- The way in: bits on `MISO` to bytes in the receive register. -/
theorem stage_in (h : ρ.NoReset a b) :
    Stage (fun n => if ρ.sclk.FallsAt n then [ρ.miso n] else [])
      (fun n => (ρ.port n).bitsReceived) (fun n => (ρ.received n).flatMap msbFirst) a b := by
  intro n ha hb
  obtain ⟨i, he⟩ := h.exists_clk ha hb
  beta_reduce
  rw [bitIn_eq he, received_eq he, port_succ_of_clk he]
  exact SerialPort.receive_step ((ρ.spi n).portInputs i) _

theorem port_of_tmt (h : (ρ.spi n).tmt = true) :
    (ρ.port n).transfer = none ∧ (ρ.port n).pending = none := by
  rw [(ρ.matches_port n).tmt] at h
  simpa using h

section FromIdle

variable (hab : a ≤ b) (h : ρ.NoReset a b) (ha : (ρ.spi a).tmt = true)

include hab h ha

/-- The levels of `MOSI` at the falling edges of `SCLK` are the first bits of the accepted bytes. -/
theorem mosi_of_idle :
    (stepsIn ρ.sclk.FallsAt a b).map ρ.mosi <+: (emitted ρ.accepted a b).flatMap msbFirst := by
  obtain ⟨ha, ha'⟩ := port_of_tmt ha
  rw [map_stepsIn_eq_emitted, flatMap_emitted]
  exact (stage_out h).prefix_of_empty hab (by simp [SerialPort.bitsToSend, ha, ha'])

theorem mosi_eq_of_tmt (hb : (ρ.spi b).tmt = true) :
    (stepsIn ρ.sclk.FallsAt a b).map ρ.mosi = (emitted ρ.accepted a b).flatMap msbFirst := by
  obtain ⟨ha, ha'⟩ := port_of_tmt ha
  obtain ⟨hb, hb'⟩ := port_of_tmt hb
  rw [map_stepsIn_eq_emitted, flatMap_emitted]
  exact (stage_out h).emitted_eq_of_empty hab (by simp [SerialPort.bitsToSend, ha, ha'])
    (by simp [SerialPort.bitsToSend, hb, hb'])

/-- The received bytes are the first of the levels of `MISO` at the falling edges of `SCLK`. -/
theorem received_of_idle :
    (emitted ρ.received a b).flatMap msbFirst <+: (stepsIn ρ.sclk.FallsAt a b).map ρ.miso := by
  obtain ⟨ha, -⟩ := port_of_tmt ha
  rw [map_stepsIn_eq_emitted, flatMap_emitted]
  exact (stage_in h).prefix_of_empty hab (by simp [SerialPort.bitsReceived, ha])

theorem received_eq_of_tmt (hb : (ρ.spi b).tmt = true) :
    (emitted ρ.received a b).flatMap msbFirst = (stepsIn ρ.sclk.FallsAt a b).map ρ.miso := by
  obtain ⟨ha, -⟩ := port_of_tmt ha
  obtain ⟨hb, -⟩ := port_of_tmt hb
  rw [map_stepsIn_eq_emitted, flatMap_emitted]
  exact (stage_in h).emitted_eq_of_empty hab (by simp [SerialPort.bitsReceived, ha])
    (by simp [SerialPort.bitsReceived, hb])

/-- As many bytes come in as go out: both have eight bits, one for each falling edge. -/
theorem length_received_eq (hb : (ρ.spi b).tmt = true) :
    (emitted ρ.received a b).length = (emitted ρ.accepted a b).length := by
  have hout := congrArg List.length (mosi_eq_of_tmt hab h ha hb)
  have hin := congrArg List.length (received_eq_of_tmt hab h ha hb)
  rw [List.length_map, length_flatMap_msbFirst] at hout hin
  omega

end FromIdle

/-- **The exchange of bytes.** From any point of a run at which nothing waits and nothing is sent,
and as long as no reset comes, the levels of `MOSI` at the falling edges of `SCLK` are the bits of
the bytes taken from the bus, in order, up to those that are still to be sent; and the levels of
`MISO` at the same edges are the bits of the bytes handed to the receive register, in order, up to
those of an unfinished byte. When nothing waits or is sent any more, both are complete. -/
theorem bytes_exchanged (ρ : Run) (a b : ℕ) (hab : a ≤ b) (h : ρ.NoReset a b)
    (ha : (ρ.spi a).tmt = true) :
    (stepsIn ρ.sclk.FallsAt a b).map ρ.mosi <+: (emitted ρ.accepted a b).flatMap msbFirst ∧
      (emitted ρ.received a b).flatMap msbFirst <+: (stepsIn ρ.sclk.FallsAt a b).map ρ.miso ∧
      ((ρ.spi b).tmt = true →
        (stepsIn ρ.sclk.FallsAt a b).map ρ.mosi = (emitted ρ.accepted a b).flatMap msbFirst ∧
        (emitted ρ.received a b).flatMap msbFirst = (stepsIn ρ.sclk.FallsAt a b).map ρ.miso ∧
        (emitted ρ.received a b).length = (emitted ρ.accepted a b).length) :=
  ⟨mosi_of_idle hab h ha, received_of_idle hab h ha, fun hb =>
    ⟨mosi_eq_of_tmt hab h ha hb, received_eq_of_tmt hab h ha hb, length_received_eq hab h ha hb⟩⟩

end Run

end Spi

end ADS131A0X
