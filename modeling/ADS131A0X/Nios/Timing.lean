import ADS131A0X.Nios.Exchange

/-!
# The waveforms of a transfer

A transfer takes 3530 clocks from the edge that loads the shift register, and nothing on the bus
changes its course. `SCLK` has eight pulses of 196 clocks, `MOSI` changes as `SCLK` rises, and the
slave is selected from 196 clocks before the first edge to 196 clocks after the last.

## Main results

* `Spi.Run.transfer_of_load`: the transfer, by the clocks since the load
* `Spi.Run.transfer_shape`: the pins along a transfer
* `Spi.Run.sclk_changes_selected`: `SCLK` moves inside the window of the slave select only
-/

namespace ADS131A0X

open Waveform

namespace Spi

theorem Sends.enableSS {m : Spi} {t : Transfer} (h : m.Sends t) :
    m.enableSS = decide (196 ≤ t.clocks ∧ t.clocks < 3528) := by
  have hle := t.clocks_le
  rw [Spi.enableSS, h.transmitting, h.stateZero, Bool.true_and, ← decide_not]
  exact decide_eq_decide.mpr (by omega)

theorem Idle.enableSS {m : Spi} (h : m.Idle) : m.enableSS = false := by
  rw [Spi.enableSS, h.transmitting, Bool.false_and]

namespace Run

variable {ρ : Run} {n b c : ℕ}

/-- `c` clocks after the edge that loads the shift register, the transfer is `c` clocks old. -/
theorem transfer_of_load (hl : (ρ.spi n).writeShiftReg = true) (h : ρ.NoReset n b)
    (hc : c ≤ 3528) (hb : n + c < b) :
    ∃ t, (ρ.port (n + 1 + c)).transfer = some t ∧ t.clocks = c ∧
      t.byte = (ρ.spi n).txHoldingReg := by
  induction c with
  | zero =>
    have hm := ρ.matches_port n
    obtain ⟨i, he⟩ := h.exists_clk le_rfl (by omega : n < b)
    rw [hm.writeShiftReg, Bool.and_eq_true, Option.isNone_iff_eq_none] at hl
    obtain ⟨hpend, hidle⟩ := hl
    obtain ⟨byte, hbyte⟩ := Option.isSome_iff_exists.mp hpend
    refine ⟨.start byte, ?_, rfl, (hm.txHoldingReg byte hbyte).symm⟩
    rw [Nat.add_zero, port_succ_of_clk he, SerialPort.next, hidle, hbyte]
    rfl
  | succ c ih =>
    obtain ⟨t, ht, hclocks, hbyte⟩ := ih (by omega) (by omega)
    obtain ⟨i, he⟩ := h.exists_clk (n := n + 1 + c) (by omega) (by omega)
    have hlt : t.clocks < 3528 := by omega
    refine ⟨t.tick hlt i.miso, ?_, by rw [Transfer.tick_clocks, hclocks], hbyte⟩
    rw [← Nat.add_assoc, port_succ_of_clk he, SerialPort.next, ht]
    simp only [hlt, dif_pos]
    rfl

/-- The transfer `c` clocks after the load, and the registers that hold it. -/
theorem sends_of_load (hl : (ρ.spi n).writeShiftReg = true) (h : ρ.NoReset n b)
    (hc : c ≤ 3528) (hb : n + c < b) :
    ∃ t, (ρ.spi (n + 1 + c)).Sends t ∧ t.clocks = c ∧ t.byte = (ρ.spi n).txHoldingReg := by
  obtain ⟨t, ht, hclocks, hbyte⟩ := transfer_of_load hl h hc hb
  exact ⟨t, (ρ.matches_port _).sends ht, hclocks, hbyte⟩

/-- Before a transfer the line rests. -/
theorem idle_of_load (hl : (ρ.spi n).writeShiftReg = true) : (ρ.spi n).Idle := by
  have hm := ρ.matches_port n
  rw [hm.writeShiftReg, Bool.and_eq_true, Option.isNone_iff_eq_none] at hl
  exact hm.idle hl.2

/-- After it the line rests again, with the received byte in the receive register. -/
theorem idle_after_load (hl : (ρ.spi n).writeShiftReg = true) (h : ρ.NoReset n (n + 3530)) :
    (ρ.spi (n + 3530)).Idle := by
  obtain ⟨t, ht, hclocks, -⟩ := sends_of_load hl h (c := 3528) le_rfl (by omega)
  obtain ⟨i, he⟩ := h.exists_clk (n := n + 3529) (by omega) (by omega)
  rw [show n + 3530 = n + 3529 + 1 by omega, spi_succ_of_clk he]
  exact ht.rest (by omega)

/-- `SCLK` along a transfer, by the clocks since the load. -/
theorem sclk_of_load (hl : (ρ.spi n).writeShiftReg = true) (h : ρ.NoReset n (n + 3530)) {k : ℕ}
    (hk : n ≤ k) (hk' : k ≤ n + 3530) :
    ρ.sclk k = decide (n + 393 ≤ k ∧ k < n + 3333 ∧ (k - (n + 1)) / 196 % 2 = 0) := by
  rcases hk.eq_or_lt with rfl | hlt
  · rw [decide_eq_false (by omega)]
    exact (idle_of_load hl).sclkReg
  rcases hk'.eq_or_lt with rfl | hlt'
  · rw [decide_eq_false (by omega)]
    exact (idle_after_load hl h).sclkReg
  obtain ⟨t, ht, hclocks, -⟩ := sends_of_load hl h (c := k - (n + 1)) (by omega) (by omega)
  rw [show n + 1 + (k - (n + 1)) = k by omega] at ht
  rw [show ρ.sclk k = (ρ.spi k).sclkReg from rfl, ht.sclkReg, Transfer.sclk]
  exact decide_eq_decide.mpr (by omega)

theorem mosi_of_load (hl : (ρ.spi n).writeShiftReg = true) (h : ρ.NoReset n (n + 3530)) {j k : ℕ}
    (hj : j < 8) (hk : n + 392 * j + 393 ≤ k) (hk' : k ≤ n + 392 * j + 784) :
    ρ.mosi k = (ρ.spi n).txHoldingReg.getMsbD j := by
  obtain ⟨t, ht, hclocks, hbyte⟩ := sends_of_load hl h (c := k - (n + 1)) (by omega) (by omega)
  rw [show n + 1 + (k - (n + 1)) = k by omega] at ht
  have hlen := t.length_bits
  have hcount : t.clocks / 392 - 1 = j := by omega
  have htake : (t.bits.take j).length = j := by
    rw [List.length_take]
    omega
  rw [show ρ.mosi k = (ρ.spi k).shiftReg.msb from rfl, ht.shiftReg, Transfer.shiftReg, hcount,
    msb_shifted _ (by omega), htake, hbyte]

/-- No byte arrives before the last clock of the transfer. -/
theorem received_eq_nil_of_load (hl : (ρ.spi n).writeShiftReg = true) (h : ρ.NoReset n b) {k : ℕ}
    (hk : n ≤ k) (hk' : k < n + 3529) (hb : k < b) : ρ.received k = [] := by
  obtain ⟨i, he⟩ := h.exists_clk hk hb
  rw [received_eq he, SerialPort.completed]
  rcases hk.eq_or_lt with rfl | hlt
  · have hidle := (ρ.matches_port n).writeShiftReg
    rw [hl, eq_comm, Bool.and_eq_true, Option.isNone_iff_eq_none] at hidle
    rw [hidle.2]
    rfl
  · obtain ⟨t, ht, hclocks, -⟩ := transfer_of_load hl h (c := k - (n + 1)) (by omega) (by omega)
    rw [show n + 1 + (k - (n + 1)) = k by omega] at ht
    rw [ht]
    simp only
    rw [if_pos (by omega)]
    rfl

/-- It arrives at the last one. -/
theorem received_of_load (hl : (ρ.spi n).writeShiftReg = true) (h : ρ.NoReset n (n + 3530)) :
    ρ.received (n + 3529) = [(ρ.spi (n + 3530)).rxHoldingReg] := by
  obtain ⟨t, ht, hclocks, -⟩ := transfer_of_load hl h (c := 3528) le_rfl (by omega)
  obtain ⟨i, he⟩ := h.exists_clk (n := n + 3529) (by omega) (by omega)
  have hlast : ρ.received (n + 3529) = [t.shiftReg] := by
    rw [received_eq he, SerialPort.completed, ht]
    simp only
    rw [if_neg (by omega)]
    rfl
  rw [hlast, ← rxHoldingReg_succ hlast]

/-- The receive register takes the levels of `MISO` at the falling edges. -/
theorem rxHoldingReg_of_load (hl : (ρ.spi n).writeShiftReg = true)
    (h : ρ.NoReset n (n + 3530)) :
    msbFirst (ρ.spi (n + 3530)).rxHoldingReg =
      (stepsIn ρ.sclk.FallsAt n (n + 3530)).map ρ.miso := by
  have hstart := (ρ.matches_port n).writeShiftReg
  rw [hl, eq_comm, Bool.and_eq_true, Option.isNone_iff_eq_none] at hstart
  have hend : (ρ.port (n + 3530)).transfer = none := by
    have htrans := (ρ.matches_port (n + 3530)).transmitting
    rw [(idle_after_load hl h).transmitting, eq_comm, Option.isSome_eq_false_iff,
      Option.isNone_iff_eq_none] at htrans
    exact htrans
  have hnone : emitted ρ.received n (n + 3529) = [] :=
    emitted_eq_nil.mpr fun k hk hk' => received_eq_nil_of_load hl h hk hk' (by omega)
  have hbits := (stage_in h).emitted_eq_of_empty (by omega)
    (by simp [SerialPort.bitsReceived, hstart.2]) (by simp [SerialPort.bitsReceived, hend])
  rw [map_stepsIn_eq_emitted, ← hbits, ← flatMap_emitted, show n + 3530 = n + 3529 + 1 by omega,
    emitted_succ (by omega), hnone, received_of_load hl h]
  simp

/-- **The waveforms of a transfer**, whatever happens on the bus, as long as no reset comes. From the
edge at step `n` that loads the shift register, the transfer goes on for 3530 clocks. `SCLK` rises and
falls eight times at fixed clocks; `MOSI` has a bit of the byte from 196 clocks before `SCLK` falls to
196 clocks after it, most significant bit first; the receive register takes the eight levels of `MISO`
at the falling edges; and the slave select is enabled from 196 clocks before `SCLK` rises for the first
time to 196 clocks after it falls for the last time. -/
theorem transfer_shape (ρ : Run) (n : ℕ) (hl : (ρ.spi n).writeShiftReg = true)
    (h : ρ.NoReset n (n + 3530)) :
    stepsIn ρ.sclk.RisesAt n (n + 3530) = (List.range 8).map (fun j => n + 392 * j + 392) ∧
      stepsIn ρ.sclk.FallsAt n (n + 3530) = (List.range 8).map (fun j => n + 392 * j + 588) ∧
      (∀ j < 8, ∀ k, n + 392 * j + 393 ≤ k → k ≤ n + 392 * j + 784 →
        ρ.mosi k = (ρ.spi n).txHoldingReg.getMsbD j) ∧
      msbFirst (ρ.spi (n + 3530)).rxHoldingReg =
        (stepsIn ρ.sclk.FallsAt n (n + 3530)).map ρ.miso ∧
      (∀ k, n ≤ k → k ≤ n + 3530 →
        ((ρ.spi k).transmitting = true ↔ n < k ∧ k < n + 3530) ∧
        ((ρ.spi k).enableSS = true ↔ n + 197 ≤ k ∧ k < n + 3529)) := by
  refine ⟨?_, ?_, fun j hj k hk hk' => mosi_of_load hl h hj hk hk', ?_, ?_⟩
  · refine stepsIn_eq_map_range (fun a b hab => ?_) (fun j hj => ⟨by omega, by omega⟩) fun k hk hk' => ?_
    · show n + 392 * a + 392 < n + 392 * b + 392
      omega
    · rw [Signal.RisesAt, sclk_of_load hl h hk (by omega), sclk_of_load hl h (by omega) (by omega),
        decide_eq_false_iff_not, decide_eq_true_iff]
      constructor
      · intro hrise
        exact ⟨(k - n) / 392 - 1, by omega, by omega⟩
      · rintro ⟨j, hj, rfl⟩
        omega
  · refine stepsIn_eq_map_range (fun a b hab => ?_) (fun j hj => ⟨by omega, by omega⟩) fun k hk hk' => ?_
    · show n + 392 * a + 588 < n + 392 * b + 588
      omega
    · rw [Signal.FallsAt, sclk_of_load hl h hk (by omega), sclk_of_load hl h (by omega) (by omega),
        decide_eq_false_iff_not, decide_eq_true_iff]
      constructor
      · intro hfall
        exact ⟨(k - n - 196) / 392 - 1, by omega, by omega⟩
      · rintro ⟨j, hj, rfl⟩
        omega
  · exact rxHoldingReg_of_load hl h
  · intro k hk hk'
    rcases hk.eq_or_lt with rfl | hlt
    · have hidle := idle_of_load hl
      rw [hidle.transmitting, hidle.enableSS]
      simp only [Bool.false_eq_true, false_iff]
      omega
    rcases hk'.eq_or_lt with rfl | hlt'
    · have hidle := idle_after_load hl h
      rw [hidle.transmitting, hidle.enableSS]
      simp only [Bool.false_eq_true, false_iff]
      omega
    obtain ⟨t, ht, hclocks, -⟩ := sends_of_load hl h (c := k - (n + 1)) (by omega) (by omega)
    rw [show n + 1 + (k - (n + 1)) = k by omega] at ht
    rw [ht.transmitting, ht.enableSS, decide_eq_true_iff]
    simp only [true_iff]
    omega

/-! ### The window of the slave select -/

/-- A step at which `SCLK` rises or falls is in the middle of a transfer. -/
theorem sends_of_sclk_changes (h : ρ.sclk.ChangesAt n) :
    ∃ t, (ρ.spi n).Sends t ∧ 391 ≤ t.clocks ∧ t.clocks < 3332 := by
  have hm := ρ.matches_port n
  rcases Signal.changesAt_iff.mp h with ⟨hlow, hhigh⟩ | ⟨hhigh, -⟩
  · cases he : ρ.event n with
    | reset =>
      have hreset : ρ.sclk (n + 1) = false := by
        show (ρ.spi (n + 1)).sclk = false
        rw [spi_succ, he]
        rfl
      rw [hreset] at hhigh
      cases hhigh
    | clk i =>
      rw [sclk_eq, port_succ_of_clk he, SerialPort.sclk, SerialPort.next] at hhigh
      cases hp : (ρ.port n).transfer with
      | none => cases hpend : (ρ.port n).pending <;> simp [hp, hpend, Transfer.start, Transfer.sclk] at hhigh
      | some t =>
        have hs := hm.sends hp
        by_cases ht : t.clocks < 3528
        · simp only [hp, ht, dif_pos] at hhigh
          have hrange := of_decide_eq_true hhigh
          rw [Transfer.tick_clocks] at hrange
          exact ⟨t, hs, by omega, by omega⟩
        · simp [hp, ht] at hhigh
  · cases hp : (ρ.port n).transfer with
    | none =>
      rw [sclk_eq, SerialPort.sclk, hp] at hhigh
      cases hhigh
    | some t =>
      rw [sclk_eq, SerialPort.sclk, hp] at hhigh
      have hrange := of_decide_eq_true hhigh
      exact ⟨t, hm.sends hp, by omega, by omega⟩

theorem ssN_of_enableSS (h : (ρ.spi n).enableSS = true) :
    ρ.ssN n = !(ρ.spi n).spiSlaveSelectReg.getLsbD 0 := by
  show (ρ.spi n).ssN = _
  rw [Spi.ssN, h, Bool.true_or, if_pos rfl]

/-- **`SCLK` moves only while the slave select is enabled**, in every run: before the step, and after
it unless the step is a reset, at which `SCLK` falls. The pin `SS_n` is then low if the slave is
selected. -/
theorem sclk_changes_selected (ρ : Run) (n : ℕ) (h : ρ.sclk.ChangesAt n) :
    ((ρ.spi n).enableSS = true ∧ ρ.ssN n = !(ρ.spi n).spiSlaveSelectReg.getLsbD 0) ∧
      ((ρ.spi (n + 1)).enableSS = true ∧
          ρ.ssN (n + 1) = !(ρ.spi (n + 1)).spiSlaveSelectReg.getLsbD 0 ∨
        ρ.event n = .reset ∧ ρ.sclk.FallsAt n) := by
  obtain ⟨t, ht, h391, h3332⟩ := sends_of_sclk_changes h
  have hnow : (ρ.spi n).enableSS = true := by
    rw [ht.enableSS]
    exact decide_eq_true (by omega)
  refine ⟨⟨hnow, ssN_of_enableSS hnow⟩, ?_⟩
  cases he : ρ.event n with
  | clk i =>
    have hnext : (ρ.spi (n + 1)).enableSS = true := by
      rw [spi_succ_of_clk he, (ht.tick (by omega : t.clocks < 3528)).enableSS,
        Transfer.tick_clocks]
      exact decide_eq_true (by omega)
    exact Or.inl ⟨hnext, ssN_of_enableSS hnext⟩
  | reset =>
    have hlow : ρ.sclk (n + 1) = false := by
      show (ρ.spi (n + 1)).sclk = false
      rw [spi_succ, he]
      rfl
    refine Or.inr ⟨rfl, ?_, hlow⟩
    by_contra hh
    exact h (hlow.trans (by simpa using hh : ρ.sclk n = false).symm)

/-! ### A run -/

/-- The run in which software writes a byte in every two of the first `cycles` clocks. -/
def writing (byte : BitVec 8) (miso : Bool) (cycles : ℕ) : Run where
  event := fun n => .clk {
    miso
    dataFromCpu := byte.setWidth 16
    memAddr := txData
    readN := true
    spiSelect := decide (n < cycles)
    writeN := false }

theorem writing_noReset (byte : BitVec 8) (miso : Bool) (cycles a b : ℕ) :
    (writing byte miso cycles).NoReset a b := by
  intro n _ _ he
  cases he

/-- Its first transfer starts at step 2. -/
theorem writing_load : ((writing 0xA5#8 true 4).spi 2).writeShiftReg = true := by decide

/-- After the writes the strobe of the data register is low. -/
theorem writing_dataWrStrobe (byte : BitVec 8) (miso : Bool) {cycles n : ℕ} (h : cycles < n) :
    ((writing byte miso cycles).spi n).dataWrStrobe = false := by
  obtain ⟨m, rfl⟩ : ∃ m, n = m + 1 := ⟨n - 1, by omega⟩
  rw [spi_succ_of_clk (ρ := writing byte miso cycles) rfl]
  have hsel : decide (m < cycles) = false := decide_eq_false (by omega)
  simp [posedgeClk, p1DataWrStrobe, p1WrStrobe, hsel]

/-- After the writes a byte waits until the shift register is loaded. -/
theorem writing_pending_succ (byte : BitVec 8) (miso : Bool) {cycles n : ℕ} (h : cycles < n) :
    ((writing byte miso cycles).port (n + 1)).pending =
      if ((writing byte miso cycles).spi n).writeShiftReg then none
      else ((writing byte miso cycles).port n).pending := by
  rw [port_succ_of_clk (ρ := writing byte miso cycles) rfl,
    ((writing byte miso cycles).matches_port n).pending_next, writeTxHolding,
    writing_dataWrStrobe byte miso h]
  rfl

/-- The second byte waits for the end of the first transfer. -/
theorem writing_pending {c : ℕ} (hc : c ≤ 3527) :
    ((writing 0xA5#8 true 4).port (5 + c)).pending = some 0xA5#8 := by
  induction c with
  | zero => decide
  | succ c ih =>
    have hm := (writing 0xA5#8 true 4).matches_port (5 + c)
    obtain ⟨t, ht, -, -⟩ := transfer_of_load (b := 3532) writing_load
      (writing_noReset _ _ _ _ _) (c := 2 + c) (by omega) (by omega)
    rw [show 2 + 1 + (2 + c) = 5 + c by omega] at ht
    rw [← Nat.add_assoc, writing_pending_succ _ _ (by omega), hm.writeShiftReg, ht, ih (by omega)]
    rfl

/-- The second transfer follows the first at once. -/
theorem writing_load_next : ((writing 0xA5#8 true 4).spi 3532).writeShiftReg = true := by
  have hidle := idle_after_load writing_load (writing_noReset 0xA5#8 true 4 2 3532)
  have hm := (writing 0xA5#8 true 4).matches_port 3532
  have hpend := writing_pending (c := 3527) le_rfl
  rw [writeShiftReg, hidle.transmitting, hm.txHoldingPrimed, hpend]
  rfl

/-- Nothing waits any more. -/
theorem writing_pending_eq_none (c : ℕ) :
    ((writing 0xA5#8 true 4).port (3533 + c)).pending = none := by
  induction c with
  | zero => rw [Nat.add_zero, writing_pending_succ _ _ (by omega), writing_load_next, if_pos rfl]
  | succ c ih =>
    rw [← Nat.add_assoc, writing_pending_succ _ _ (by omega), ih]
    split <;> rfl

theorem writing_tmt : ((writing 0xA5#8 true 4).spi 7062).tmt = true := by
  have hidle := idle_after_load writing_load_next (writing_noReset 0xA5#8 true 4 3532 7062)
  have hm := (writing 0xA5#8 true 4).matches_port 7062
  rw [hm.tmt, ← Option.not_isSome, ← hm.transmitting, hidle.transmitting,
    writing_pending_eq_none 3529]
  rfl

theorem writing_accepted : emitted (writing 0xA5#8 true 4).accepted 0 7062 = [0xA5#8, 0xA5#8] := by
  have hrest : emitted (writing 0xA5#8 true 4).accepted 5 7062 = [] := by
    refine emitted_eq_nil.mpr fun n hn _ => ?_
    show (if ((writing 0xA5#8 true 4).spi n).writeTxHolding then _ else []) = _
    rw [writeTxHolding, writing_dataWrStrobe _ _ (by omega)]
    rfl
  rw [← emitted_append (b := 5) (by omega) (by omega), hrest]
  decide

/-- Two bytes go out, and with `MISO` high two bytes of ones come in. -/
theorem bytes_exchanged_writing :
    (stepsIn (writing 0xA5#8 true 4).sclk.FallsAt 0 7062).map (writing 0xA5#8 true 4).mosi =
        [0xA5#8, 0xA5#8].flatMap msbFirst ∧
      (emitted (writing 0xA5#8 true 4).received 0 7062).flatMap msbFirst =
        (stepsIn (writing 0xA5#8 true 4).sclk.FallsAt 0 7062).map (writing 0xA5#8 true 4).miso ∧
      (emitted (writing 0xA5#8 true 4).received 0 7062).length = 2 := by
  obtain ⟨hout, hin, hlen⟩ := (bytes_exchanged (writing 0xA5#8 true 4) 0 7062 (by omega)
    (writing_noReset _ _ _ _ _) rfl).2.2 writing_tmt
  rw [writing_accepted] at hout hlen
  exact ⟨hout, hin, hlen⟩

theorem transfer_shape_writing :
    stepsIn (writing 0xA5#8 true 4).sclk.FallsAt 2 3532 =
        (List.range 8).map (fun j => 2 + 392 * j + 588) ∧
      msbFirst ((writing 0xA5#8 true 4).spi 3532).rxHoldingReg =
        (stepsIn (writing 0xA5#8 true 4).sclk.FallsAt 2 3532).map (writing 0xA5#8 true 4).miso :=
  have h := transfer_shape (writing 0xA5#8 true 4) 2 writing_load (writing_noReset _ _ _ _ _)
  ⟨h.2.1, h.2.2.2.1⟩

theorem sclk_changes_selected_writing : ((writing 0xA5#8 true 4).spi 394).enableSS = true :=
  (sclk_changes_selected (writing 0xA5#8 true 4) 394 (by
    rw [Signal.ChangesAt, sclk_of_load writing_load (writing_noReset _ _ _ _ _) (by omega) (by omega),
      sclk_of_load writing_load (writing_noReset _ _ _ _ _) (by omega) (by omega)]
    decide)).1.1

end Run

end Spi

end ADS131A0X
