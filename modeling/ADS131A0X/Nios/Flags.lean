import ADS131A0X.Nios.Timing

/-!
# The overrun flags

Two bytes can be lost on the bus side of the core: one that is written while there is no room, and
one that is received before the last was read. `TOE` and `ROE` flag them. `TOE` is exact: as long as
nobody clears it, it is low if and only if every written byte was accepted. `ROE` is not: a byte that
arrives in the very clock in which a read begins is lost without a flag.

## Main definitions

* `Spi.Run.written`: the byte that a step writes to the data register, accepted or not
* `Spi.Run.readStarts`, `Spi.Run.clears`: a read of the data register begins, the flags are cleared

## Main results

* `Spi.Run.toe_eq_false_iff`: `TOE` is low iff no written byte was dropped
* `Spi.Run.written_bytes_sent`: with `TOE` low, the bits on `MOSI` are those of the written bytes
* `Spi.Run.after_arrival`: the receive register and its flags until the next byte arrives
* `Spi.Run.received_byte_read`: when a received byte is read, flagged, or lost
-/

namespace ADS131A0X

open Waveform

namespace Spi.Run

variable (ρ : Run) (n : ℕ)

/-- The byte that step `n` writes to the data register, accepted or not. -/
def written : List (BitVec 8) :=
  match ρ.event n with
  | .clk i => if (ρ.spi n).dataWrStrobe then [i.dataFromCpu.setWidth 8] else []
  | .reset => []

/-- Step `n` clears the flags by a write to the status register. -/
def clears : Bool :=
  match ρ.event n with
  | .clk i => (ρ.spi n).statusWrStrobe i
  | .reset => false

/-- A read of the data register begins at step `n`. -/
def readStarts : Bool :=
  match ρ.event n with
  | .clk i => (ρ.spi n).p1DataRdStrobe i
  | .reset => false

/-- No step from `a` to `b` is a reset or clears the flags. -/
def NoClear (a b : ℕ) : Prop := ρ.NoReset a b ∧ ∀ n, a ≤ n → n < b → ρ.clears n = false

variable {ρ n} {a b : ℕ} {i : Inputs}

theorem NoClear.of_le {a' b' : ℕ} (h : ρ.NoClear a b) (ha : a ≤ a') (hb : b' ≤ b) :
    ρ.NoClear a' b' := ⟨h.1.of_le ha hb, fun n hn hn' => h.2 n (ha.trans hn) (hn'.trans_le hb)⟩

theorem NoClear.exists_clk (h : ρ.NoClear a b) (ha : a ≤ n) (hb : n < b) :
    ∃ i, ρ.event n = .clk i ∧ (ρ.spi n).statusWrStrobe i = false := by
  obtain ⟨i, he⟩ := h.1.exists_clk ha hb
  have hc := h.2 n ha hb
  rw [clears, he] at hc
  exact ⟨i, he, hc⟩

/-! ## Bytes that are written -/

/-- `TOE` is set by a byte for which there is no room. -/
theorem toe_succ (he : ρ.event n = .clk i) (hc : (ρ.spi n).statusWrStrobe i = false) :
    (ρ.spi (n + 1)).toe = ((ρ.spi n).toe || ((ρ.spi n).dataWrStrobe && !(ρ.spi n).trdy)) := by
  rw [spi_succ_of_clk he]
  show (if (ρ.spi n).statusWrStrobe i then false
    else if (ρ.spi n).dataWrStrobe && !(ρ.spi n).trdy then true else (ρ.spi n).toe) = _
  rw [hc]
  cases (ρ.spi n).dataWrStrobe <;> cases (ρ.spi n).trdy <;> simp

/-- A step accepts the written byte, or drops it. -/
theorem accepted_eq_written (he : ρ.event n = .clk i) :
    ρ.accepted n =
      if (ρ.spi n).dataWrStrobe && !(ρ.spi n).trdy then [] else ρ.written n := by
  simp only [accepted, written, he, writeTxHolding]
  by_cases hw : (ρ.spi n).dataWrStrobe = true
  · by_cases ht : (ρ.spi n).trdy = true <;> simp [hw, ht]
  · simp [hw]

theorem sublist_written (h : ρ.NoReset a b) (hab : a ≤ b) :
    (emitted ρ.accepted a b).Sublist (emitted ρ.written a b) := by
  induction b, hab using Nat.le_induction with
  | base => simp
  | succ b hab ih =>
    obtain ⟨i, he⟩ := h.exists_clk hab b.lt_succ_self
    rw [emitted_succ hab, emitted_succ hab, accepted_eq_written he]
    refine (ih (h.of_le le_rfl b.le_succ)).append ?_
    split
    · exact List.nil_sublist _
    · exact List.Sublist.refl _

/-- **`TOE` is exact**: as long as nobody clears it, it is low iff no written byte was dropped. -/
theorem toe_eq_false_iff (h : ρ.NoClear a b) (hab : a ≤ b) (ha : (ρ.spi a).toe = false) :
    (ρ.spi b).toe = false ↔ emitted ρ.accepted a b = emitted ρ.written a b := by
  induction b, hab using Nat.le_induction with
  | base => simp [ha]
  | succ b hab ih =>
    have ih := ih (h.of_le le_rfl b.le_succ)
    have hlen := (sublist_written (h.1.of_le le_rfl b.le_succ) hab).length_le
    obtain ⟨i, he, hc⟩ := h.exists_clk hab b.lt_succ_self
    rw [toe_succ he hc, emitted_succ hab, emitted_succ hab, accepted_eq_written he, Bool.or_eq_false_iff, ih]
    by_cases hdrop : ((ρ.spi b).dataWrStrobe && !(ρ.spi b).trdy) = true
    -- the byte of this step is dropped, and no later one makes up for it
    · have hone : (ρ.written b).length = 1 := by
        rw [written, he]
        simp only [Bool.and_eq_true] at hdrop
        simp [hdrop.1]
      rw [if_pos hdrop]
      constructor
      · rintro ⟨-, hf⟩
        rw [hdrop] at hf
        cases hf
      · intro heq
        have := congrArg List.length heq
        rw [List.length_append, List.length_append, List.length_nil, hone] at this
        omega
    · rw [if_neg hdrop, List.append_cancel_right_eq]
      simp [hdrop]

/-- **Written bytes.** From a point at which nothing waits or is sent and `TOE` is low, and as long
as no reset comes and nobody clears the flags: `TOE` is low exactly when no written byte was
dropped, and then the levels of `MOSI` at the falling edges of `SCLK` are the bits of the written
bytes, up to those still to be sent. -/
theorem written_bytes_sent (ρ : Run) (a b : ℕ) (hab : a ≤ b) (h : ρ.NoClear a b)
    (ha : (ρ.spi a).tmt = true) (ht : (ρ.spi a).toe = false) :
    ((ρ.spi b).toe = false ↔ emitted ρ.accepted a b = emitted ρ.written a b) ∧
      ((ρ.spi b).toe = false →
        (stepsIn ρ.sclk.FallsAt a b).map ρ.mosi <+: (emitted ρ.written a b).flatMap msbFirst ∧
        ((ρ.spi b).tmt = true →
          (stepsIn ρ.sclk.FallsAt a b).map ρ.mosi = (emitted ρ.written a b).flatMap msbFirst)) := by
  have hexact := toe_eq_false_iff h hab ht
  refine ⟨hexact, fun hb => ?_⟩
  rw [← hexact.mp hb]
  exact ⟨mosi_of_idle hab h.1 ha, mosi_eq_of_tmt hab h.1 ha⟩

section Writing

/-- Without a clear of the flags, since no access is to the status register. -/
theorem writing_noClear (byte : BitVec 8) (miso : Bool) (cycles a b : ℕ) :
    (writing byte miso cycles).NoClear a b := by
  refine ⟨writing_noReset _ _ _ _ _, fun n _ _ => ?_⟩
  show ((writing byte miso cycles).spi n).statusWrStrobe _ = false
  rw [statusWrStrobe]
  exact Bool.and_false _

theorem writing_written (byte : BitVec 8) (miso : Bool) {cycles n : ℕ} (h : cycles < n) :
    (writing byte miso cycles).written n = [] := by
  show (if ((writing byte miso cycles).spi n).dataWrStrobe then [_] else []) = _
  rw [writing_dataWrStrobe byte miso h]
  rfl

/-- Of two bytes none is dropped, and both are on `MOSI`; of three the last is dropped. -/
theorem written_bytes_sent_writing :
    (stepsIn (writing 0xA5#8 true 4).sclk.FallsAt 0 7062).map (writing 0xA5#8 true 4).mosi =
        [0xA5#8, 0xA5#8].flatMap msbFirst ∧
      emitted (writing 0xA5#8 true 6).accepted 0 8 ≠ emitted (writing 0xA5#8 true 6).written 0 8 := by
  have hwritten : emitted (writing 0xA5#8 true 4).written 0 7062 = [0xA5#8, 0xA5#8] := by
    have hrest : emitted (writing 0xA5#8 true 4).written 5 7062 = [] :=
      emitted_eq_nil.mpr fun n hn _ => writing_written _ _ (by omega)
    rw [← emitted_append (b := 5) (by omega) (by omega), hrest]
    decide
  have hsent := written_bytes_sent (writing 0xA5#8 true 4) 0 7062 (by omega)
    (writing_noClear _ _ _ _ _) rfl rfl
  have hdropped := written_bytes_sent (writing 0xA5#8 true 6) 0 8 (by omega)
    (writing_noClear _ _ _ _ _) rfl rfl
  constructor
  · rw [← hwritten]
    exact (hsent.2 (hsent.1.mpr (writing_accepted.trans hwritten.symm))).2 writing_tmt
  · exact mt hdropped.1.mpr (by decide)

end Writing

/-! ## Bytes that are received -/

theorem dataRdStrobe_succ (he : ρ.event n = .clk i) :
    (ρ.spi (n + 1)).dataRdStrobe = ρ.readStarts n := by
  rw [spi_succ_of_clk he, readStarts, he]
  rfl

/-- The first cycle of a read takes the byte that the receive register holds. -/
theorem dataToCpu_of_readStarts (hr : ρ.readStarts n = true) :
    (ρ.spi (n + 1)).dataToCpu = (ρ.spi n).rxHoldingReg.setWidth 16 := by
  rw [readStarts] at hr
  cases he : ρ.event n with
  | reset => simp [he] at hr
  | clk i =>
    rw [he] at hr
    simp only [p1DataRdStrobe, Bool.and_eq_true, beq_iff_eq] at hr
    rw [spi_succ_of_clk he]
    show (ρ.spi n).p1DataToCpu i = _
    simp [p1DataToCpu, hr.2, rxData, status, control, endOfPacketValue, slaveEnable]

/-- The arrival of a byte ends its transfer. -/
theorem of_received (h : ρ.received n ≠ []) :
    ∃ i, ρ.event n = .clk i ∧ (ρ.spi n).transactionPrimed = true ∧ (ρ.spi (n + 1)).Idle := by
  cases he : ρ.event n with
  | reset => simp [received, he] at h
  | clk i =>
    have hm := ρ.matches_port n
    have hprimed : (ρ.spi n).transactionPrimed = true := by
      by_contra hp
      simp [received, he, hp] at h
    refine ⟨i, rfl, hprimed, ?_⟩
    rw [spi_succ_of_clk he]
    cases hp : (ρ.port n).transfer with
    | none =>
      rw [(hm.idle hp).transactionPrimed] at hprimed
      cases hprimed
    | some t =>
      rw [(hm.sends hp).transactionPrimed, decide_eq_true_iff] at hprimed
      exact (hm.sends hp).rest (by omega)

theorem not_primed_of_received (h : ρ.received n = []) (he : ρ.event n = .clk i) :
    (ρ.spi n).transactionPrimed = false := by
  by_contra hp
  simp [received, he, hp] at h

section Arrival

variable {k k' : ℕ} {byte : BitVec 8}

/-- What holds of the receive register until the next byte arrives: it keeps the byte, `RRDY` is
high until a read has begun and gone on to its second cycle, and `ROE` rests. -/
theorem after_arrival (hk : ρ.received k = [byte])
    (hbetween : ∀ n, k < n → n < k' → ρ.received n = []) (h : ρ.NoClear (k + 1) k') (hn : k < n)
    (hn' : n ≤ k') :
    (ρ.spi n).rxHoldingReg = byte ∧
      ((ρ.spi n).rrdy = true ↔ ∀ j, k ≤ j → j + 1 < n → ρ.readStarts j = false) ∧
      (ρ.spi n).roe = (ρ.spi (k + 1)).roe := by
  have hlt : k + 1 ≤ n := hn
  induction n, hlt using Nat.le_induction with
  | base =>
    obtain ⟨i, he, hprimed, -⟩ := of_received (show ρ.received k ≠ [] by simp [hk])
    refine ⟨rxHoldingReg_succ hk, ?_, rfl⟩
    have hready : (ρ.spi (k + 1)).rrdy = true := by
      rw [spi_succ_of_clk he]
      simp [posedgeClk, hprimed]
    simp only [hready, true_iff]
    omega
  | succ n hlt ih =>
    obtain ⟨hrx, hrrdy, hroe⟩ := ih hlt (by omega)
    obtain ⟨i, he, hc⟩ := h.exists_clk hlt (by omega)
    have hprimed := not_primed_of_received (hbetween n hlt (by omega)) he
    -- the read strobe of this step is the read that began one step before
    have hstrobe : (ρ.spi n).dataRdStrobe = ρ.readStarts (n - 1) := by
      obtain ⟨i', he'⟩ : ∃ i', ρ.event (n - 1) = .clk i' := by
        rcases (show k ≤ n - 1 by omega).eq_or_lt with heq | hlt'
        · obtain ⟨i', he', -⟩ := of_received (show ρ.received k ≠ [] by simp [hk])
          exact ⟨i', heq ▸ he'⟩
        · exact h.1.exists_clk hlt' (by omega)
      have hstrobe := dataRdStrobe_succ he'
      rwa [show n - 1 + 1 = n by omega] at hstrobe
    rw [spi_succ_of_clk he]
    refine ⟨?_, ?_, ?_⟩
    · simpa [posedgeClk, hprimed] using hrx
    · have hready : ((ρ.spi n).posedgeClk i).rrdy = ((ρ.spi n).rrdy && !ρ.readStarts (n - 1)) := by
        rw [← hstrobe]
        simp only [posedgeClk, hprimed, hc]
        cases (ρ.spi n).dataRdStrobe <;> simp
      rw [hready, Bool.and_eq_true, hrrdy, Bool.not_eq_true']
      constructor
      · rintro ⟨hall, hlast⟩ j hkj hjn
        rcases (show j + 1 ≤ n by omega).eq_or_lt with heq | hlt'
        · rwa [show j = n - 1 by omega]
        · exact hall j hkj hlt'
      · intro hall
        exact ⟨fun j hkj hjn => hall j hkj (by omega), hall (n - 1) (by omega) (by omega)⟩
    · rw [← hroe]
      simp [posedgeClk, hprimed, hc]

/-- **Received bytes.** Let a byte arrive at step `k` and the next one at step `k'`, with no reset and
no clear of the flags from then on. A read that begins after `k` returns the byte. `ROE` is high after
`k'` if it was high after `k`, or if no read has begun at the steps from `k` to `k' - 2`. So a byte
is lost without a flag in one case only: the read has begun at step `k` itself, in the clock in which
the byte arrives; then it returns the byte before it, and clears `RRDY` for the new one. -/
theorem received_byte_read (ρ : Run) (k k' : ℕ) (byte : BitVec 8) (hk : ρ.received k = [byte])
    (hk' : ρ.received k' ≠ []) (hlt : k < k')
    (hbetween : ∀ n, k < n → n < k' → ρ.received n = []) (h : ρ.NoClear (k + 1) (k' + 1)) :
    (∀ j, k < j → j < k' → ρ.readStarts j = true →
        (ρ.spi (j + 1)).dataToCpu = byte.setWidth 16) ∧
      ((ρ.spi (k' + 1)).roe = true ↔
        (ρ.spi (k + 1)).roe = true ∨ ∀ j, k ≤ j → j + 1 < k' → ρ.readStarts j = false) ∧
      (ρ.readStarts k = true →
        (ρ.spi (k + 1)).dataToCpu = (ρ.spi k).rxHoldingReg.setWidth 16 ∧
          (ρ.spi (k + 2)).rrdy = false) := by
  have hrest := h.of_le le_rfl k'.le_succ
  refine ⟨?_, ?_, ?_⟩
  · intro j hkj hjk' hr
    rw [dataToCpu_of_readStarts hr, (after_arrival hk hbetween hrest hkj hjk'.le).1]
  · obtain ⟨i, he, hprimed, -⟩ := of_received hk'
    obtain ⟨-, hrrdy, hroe⟩ := after_arrival hk hbetween hrest hlt le_rfl
    obtain ⟨i', he', hc⟩ := h.exists_clk (n := k') hlt k'.lt_succ_self
    have hset : (ρ.spi (k' + 1)).roe = ((ρ.spi k').rrdy || (ρ.spi k').roe) := by
      rw [spi_succ_of_clk he']
      simp only [posedgeClk, hprimed, hc]
      cases (ρ.spi k').rrdy <;> simp
    rw [hset, Bool.or_eq_true, hrrdy, hroe, or_comm]
  · intro hr
    refine ⟨dataToCpu_of_readStarts hr, ?_⟩
    obtain ⟨i, he, -, hidle⟩ := of_received (show ρ.received k ≠ [] by simp [hk])
    obtain ⟨i', he', -⟩ := h.exists_clk (n := k + 1) le_rfl (by omega)
    have hstrobe := dataRdStrobe_succ he
    rw [show k + 2 = k + 1 + 1 from rfl, spi_succ_of_clk he']
    simp [posedgeClk, hidle.transactionPrimed, hstrobe, hr]

end Arrival

section Writing

/-- Nobody reads: the second byte overwrites the first and is flagged. -/
theorem received_byte_read_writing : ((writing 0xA5#8 true 4).spi 7062).roe = true := by
  have hreset : ∀ a b, (writing 0xA5#8 true 4).NoReset a b := writing_noReset _ _ _
  refine (received_byte_read (writing 0xA5#8 true 4) 3531 7061 _
    (received_of_load writing_load (hreset _ _)) ?_ (by omega) ?_
    (writing_noClear _ _ _ _ _)).2.1.mpr (Or.inr fun j _ _ => ?_)
  · rw [received_of_load writing_load_next (hreset _ _)]
    exact List.cons_ne_nil _ _
  · exact fun n hn hn' =>
      received_eq_nil_of_load (b := 7061) writing_load_next (hreset _ _) hn hn' hn'
  · show ((writing 0xA5#8 true 4).spi j).p1DataRdStrobe _ = false
    rw [p1DataRdStrobe, p1RdStrobe]
    simp [writing]

end Writing

end Spi.Run

end ADS131A0X
