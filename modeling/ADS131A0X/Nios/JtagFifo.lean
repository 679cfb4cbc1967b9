import ADS131A0X.Nios.JtagUart

/-!
# What passes the ring buffers of the JTAG UART

The calls and the interrupt routine share the ring buffers without a lock: each index has one writer,
and is moved after the bytes it covers are in place or out of the way. So whatever the interleaving,
the device gets the bytes that the calls have accepted, and the calls deliver the bytes that the device
has given, in order, none lost and none twice.

## Main definitions

* `JtagUart.Write.Ok`, `JtagUart.Read.Ok`: what a call knows of its ring buffer
* `JtagUartSystem.TxInv`, `JtagUartSystem.RxInv`: the invariants of the ring buffers

## Main results

* `JtagUartSystem.Run.tx_fifo`, `JtagUartSystem.Run.rx_fifo`: the bytes that have passed
-/

namespace ADS131A0X

open Transition RingBuffer

namespace JtagUart

/-! ## Writing -/

namespace Write

variable {sp : JtagUart} {w : Write} {n k : ℕ}

/-- A call changes nothing but its ring buffer and its interrupt enable. -/
theorem exists_next (sp : JtagUart) (w : Write) : ∃ buf i,
    (w.next sp).1 = { sp with
      txBuf := buf
      txIn := i
      irqEnable := if w.place = .kick then sp.irqEnable ||| controlWeMsk else sp.irqEnable } := by
  unfold next
  cases hp : w.place with
  | space =>
    simp only [reduceCtorEq, if_false]
    split_ifs <;> exact ⟨_, _, rfl⟩
  | copy n k =>
    simp only [reduceCtorEq, if_false]
    split_ifs <;> exact ⟨_, _, rfl⟩
  | _ => exact ⟨_, _, rfl⟩

theorem room_spec (hi : sp.txIn < bufLen) (ho : sp.txOut < bufLen) :
    used bufLen sp.txIn sp.txOut + room sp < bufLen ∧ sp.txIn + room sp ≤ bufLen ∧
      (room sp = 0 ↔ used bufLen sp.txIn sp.txOut + 1 = bufLen) := by
  unfold used room
  split_ifs <;> omega

/-- The call copies `n` bytes into the free part of the ring buffer, and `k` of them are there. -/
structure Copying (sp : JtagUart) (w : Write) (n k : ℕ) : Prop where
  inIdx : w.inIdx = sp.txIn
  fits : used bufLen sp.txIn sp.txOut + n < bufLen
  straight : sp.txIn + n ≤ bufLen
  left : w.ptr + n ≤ w.data.length
  copied : items bufLen sp.txBuf sp.txIn k = (w.data.drop w.ptr).take k

/-- What the call knows of its ring buffer. -/
structure Ok (sp : JtagUart) (w : Write) : Prop where
  ptr_le : w.ptr ≤ w.data.length
  copy : ∀ n k, w.place = .copy n k → Copying sp w n k ∧ k ≤ n

/-- A byte is copied. -/
theorem Copying.succ (h : Copying sp w n k) (hi : sp.txIn < bufLen) (ho : sp.txOut < bufLen)
    (hk : k < n) {buf : ℕ → BitVec 8}
    (hbuf : buf = Function.update sp.txBuf (w.inIdx + k) (w.data.getD (w.ptr + k) 0#8)) :
    items bufLen buf sp.txIn (k + 1) = (w.data.drop w.ptr).take (k + 1) ∧
      contents bufLen buf sp.txIn sp.txOut = contents bufLen sp.txBuf sp.txIn sp.txOut := by
  obtain ⟨hin, hfits, hstraight, hleft, hcopied⟩ := h
  have hidx : w.inIdx + k = (sp.txIn + k) % bufLen := by
    rw [hin, Nat.mod_eq_of_lt (by omega)]
  have htake : (w.data.drop w.ptr).take (k + 1) =
      (w.data.drop w.ptr).take k ++ [w.data.getD (w.ptr + k) 0#8] := by
    rw [List.take_succ_eq_append_getElem (by rw [List.length_drop]; omega), List.getElem_drop,
      List.getD_eq_getElem _ _ (by omega)]
  rw [hbuf, hidx]
  exact ⟨by rw [items_update_self hi (by omega), hcopied, htake],
    contents_update hi ho (by omega)⟩

/-- The bytes that are copied become part of the ring buffer. -/
theorem Copying.advance (h : Copying sp w n n) (hi : sp.txIn < bufLen) (ho : sp.txOut < bufLen) :
    w.data.take (w.ptr + n) = w.data.take w.ptr ++ (w.data.drop w.ptr).take n ∧
      contents bufLen sp.txBuf ((w.inIdx + n) % bufLen) sp.txOut =
        contents bufLen sp.txBuf sp.txIn sp.txOut ++ (w.data.drop w.ptr).take n := by
  refine ⟨List.take_add, ?_⟩
  rw [h.inIdx, contents_advance_in hi ho h.fits, h.copied]

/-- A step of a call: the ring buffer gets what the call accepts. -/
theorem Ok.next (h : w.Ok sp) (hi : sp.txIn < bufLen) (ho : sp.txOut < bufLen) :
    (w.next sp).2.Ok (w.next sp).1 ∧ (w.next sp).1.txIn < bufLen ∧
      ∃ new, (w.next sp).2.data.take (w.next sp).2.ptr = w.data.take w.ptr ++ new ∧
        contents bufLen (w.next sp).1.txBuf (w.next sp).1.txIn sp.txOut =
          contents bufLen sp.txBuf sp.txIn sp.txOut ++ new := by
  obtain ⟨hptr, hcopy⟩ := h
  obtain ⟨hroom, hstraight, -⟩ := room_spec hi ho
  cases hp : w.place with
  | space =>
    simp only [Write.next, hp]
    split_ifs with hcount hzero
    · exact ⟨⟨hptr, nofun⟩, hi, [], by simp⟩
    · exact ⟨⟨hptr, nofun⟩, hi, [], by simp⟩
    · rw [count] at hcount
      refine ⟨⟨hptr, ?_⟩, hi, [], by simp⟩
      rintro n k ⟨⟩
      refine ⟨⟨rfl, ?_, ?_, ?_, rfl⟩, ?_⟩ <;> simp only [count] <;> omega
  | copy n k =>
    obtain ⟨hcopying, hk⟩ := hcopy n k hp
    simp only [Write.next, hp]
    split_ifs with hlt
    · obtain ⟨hitems, hcontents⟩ := hcopying.succ hi ho hlt rfl
      obtain ⟨hin, hfits, hstraight, hleft, -⟩ := hcopying
      refine ⟨⟨hptr, ?_⟩, hi, [], by simp, by rw [hcontents, List.append_nil]⟩
      rintro n' k' ⟨⟩
      exact ⟨⟨hin, hfits, hstraight, hleft, hitems⟩, hlt⟩
    · obtain rfl : k = n := by omega
      obtain ⟨htake, hcontents⟩ := hcopying.advance hi ho
      exact ⟨⟨hcopying.left, nofun⟩, Nat.mod_lt _ (by decide), _, htake, hcontents⟩
  | kick =>
    simp only [Write.next, hp]
    refine ⟨⟨hptr, ?_⟩, hi, [], by simp⟩
    split_ifs <;> exact nofun
  | wait =>
    simp only [Write.next, hp]
    split_ifs
    · exact ⟨⟨hptr, hcopy⟩, hi, [], by simp⟩
    · exact ⟨⟨hptr, nofun⟩, hi, [], by simp⟩
  | host =>
    simp only [Write.next, hp]
    refine ⟨⟨hptr, ?_⟩, hi, [], by simp⟩
    split_ifs <;> exact nofun
  | done =>
    simp only [Write.next, hp]
    exact ⟨⟨hptr, hcopy⟩, hi, [], by simp⟩

end Write

/-! ## Reading -/

namespace Read

variable {sp : JtagUart} {r : Read} {n k : ℕ}

/-- A call changes nothing but its index and its interrupt enable. -/
theorem exists_next (sp : JtagUart) (r : Read) : ∃ o,
    (r.next sp).1 = { sp with
      rxOut := o
      irqEnable := if r.place = .enable then sp.irqEnable ||| controlReMsk else sp.irqEnable } := by
  unfold next
  cases hp : r.place with
  | load =>
    simp only [reduceCtorEq, if_false]
    split_ifs <;> exact ⟨_, rfl⟩
  | copy n k =>
    simp only [reduceCtorEq, if_false]
    split_ifs <;> exact ⟨_, rfl⟩
  | _ => exact ⟨_, rfl⟩

theorem avail_spec (hi : sp.rxIn < bufLen) (ho : sp.rxOut < bufLen) :
    avail sp ≤ used bufLen sp.rxIn sp.rxOut ∧ sp.rxOut + avail sp ≤ bufLen ∧
      (avail sp = 0 ↔ sp.rxIn = sp.rxOut) := by
  unfold used avail
  split_ifs <;> omega

/-- The call copies the oldest `n` bytes of the ring buffer, and has `k` of them. -/
structure Copying (sp : JtagUart) (r : Read) (n k : ℕ) : Prop where
  outIdx : r.outIdx = sp.rxOut
  fits : n ≤ used bufLen sp.rxIn sp.rxOut
  straight : sp.rxOut + n ≤ bufLen
  left : n ≤ r.space
  copied : r.chunk = items bufLen sp.rxBuf sp.rxOut k

/-- What the call knows of its ring buffer. -/
def Ok (sp : JtagUart) (r : Read) : Prop :=
  ∀ n k, r.place = .copy n k → Copying sp r n k ∧ k ≤ n

theorem ok_leave (sp : JtagUart) (r : Read) : r.leave.Ok sp := by
  intro n k h
  dsimp only [leave] at h
  split_ifs at h

/-- A byte is copied. -/
theorem Copying.succ (h : Copying sp r n k) (hk : k < n) :
    r.chunk ++ [sp.rxBuf (r.outIdx + k)] = items bufLen sp.rxBuf sp.rxOut (k + 1) := by
  obtain ⟨hout, -, hstraight, -, hcopied⟩ := h
  rw [items_succ, hcopied, hout, Nat.mod_eq_of_lt (by omega)]

/-- The bytes that are copied leave the ring buffer. -/
theorem Copying.advance (h : Copying sp r n n) (hi : sp.rxIn < bufLen) (ho : sp.rxOut < bufLen) :
    contents bufLen sp.rxBuf sp.rxIn sp.rxOut =
      r.chunk ++ contents bufLen sp.rxBuf sp.rxIn ((r.outIdx + n) % bufLen) := by
  rw [h.copied, h.outIdx, ← contents_eq_append hi ho h.fits]

/-- A step of a call: what it gets leaves the ring buffer. -/
theorem Ok.next (h : r.Ok sp) (hi : sp.rxIn < bufLen) (ho : sp.rxOut < bufLen) :
    (r.next sp).2.Ok (r.next sp).1 ∧ (r.next sp).1.rxOut < bufLen ∧
      ∃ new, (r.next sp).2.buffer = r.buffer ++ new ∧
        contents bufLen sp.rxBuf sp.rxIn sp.rxOut =
          new ++ contents bufLen sp.rxBuf sp.rxIn (r.next sp).1.rxOut := by
  obtain ⟨havail, hstraight, -⟩ := avail_spec hi ho
  cases hp : r.place with
  | load =>
    simp only [Read.next, hp]
    split_ifs with hzero
    · exact ⟨ok_leave _ _, ho, [], by simp [leave], rfl⟩
    · refine ⟨?_, ho, [], by simp, rfl⟩
      rintro n k ⟨⟩
      refine ⟨⟨rfl, ?_, ?_, ?_, rfl⟩, Nat.zero_le _⟩ <;> dsimp only <;> omega
  | copy n k =>
    obtain ⟨hcopying, hk⟩ := h n k hp
    simp only [Read.next, hp]
    split_ifs with hlt
    · have hchunk := hcopying.succ hlt
      obtain ⟨hout, hfits, hstraight, hleft, -⟩ := hcopying
      refine ⟨?_, ho, [], by simp, rfl⟩
      rintro n' k' ⟨⟩
      exact ⟨⟨hout, hfits, hstraight, hleft, hchunk⟩, hlt⟩
    all_goals obtain rfl : k = n := by omega
    · exact ⟨nofun, Nat.mod_lt _ (by decide), r.chunk, rfl, hcopying.advance hi ho⟩
    · exact ⟨ok_leave _ _, Nat.mod_lt _ (by decide), r.chunk, rfl, hcopying.advance hi ho⟩
  | spin =>
    simp only [Read.next, hp]
    split_ifs
    · exact ⟨h, ho, [], by simp⟩
    · exact ⟨nofun, ho, [], by simp⟩
  | recheck =>
    simp only [Read.next, hp]
    refine ⟨?_, ho, [], by simp⟩
    split_ifs <;> exact nofun
  | enable =>
    simp only [Read.next, hp]
    exact ⟨nofun, ho, [], by simp⟩
  | done =>
    simp only [Read.next, hp]
    exact ⟨h, ho, [], by simp⟩

end Read

end JtagUart

open JtagUart

namespace JtagUartSystem

variable {s s' : JtagUartSystem}

/-! ## The bytes to send -/

/-- The invariant of the ring buffer of the bytes to send. -/
structure TxInv (s : JtagUartSystem) : Prop where
  inLt : s.sp.txIn < bufLen
  outLt : s.sp.txOut < bufLen
  fifo : s.accepted = s.sent ++ s.txRing
  call : ∀ w, s.call = some (.write w) → w.Ok s.sp

/-- A step that leaves the ring buffer and its calls alone. -/
theorem TxInv.of_eq (h : TxInv s) (hi : s'.sp.txIn = s.sp.txIn) (ho : s'.sp.txOut = s.sp.txOut)
    (hb : s'.sp.txBuf = s.sp.txBuf) (ha : s'.accepted = s.accepted) (hs : s'.sent = s.sent)
    (hc : ∀ w, s'.call = some (.write w) → s.call = some (.write w)) : TxInv s' := by
  refine ⟨hi ▸ h.inLt, ho ▸ h.outLt, ?_, fun w hw => ?_⟩
  · rw [ha, hs, txRing, hi, ho, hb]
    exact h.fifo
  · obtain ⟨hptr, hcopy⟩ := h.call w (hc w hw)
    refine ⟨hptr, fun n k hp => ?_⟩
    obtain ⟨⟨hin, hfits, hstraight, hleft, hcopied⟩, hk⟩ := hcopy n k hp
    exact ⟨⟨hi ▸ hin, hi ▸ ho ▸ hfits, hi ▸ hstraight, hleft, hi ▸ hb ▸ hcopied⟩, hk⟩

theorem TxInv.stepCall (h : TxInv s) : TxInv s.stepCall := by
  unfold JtagUartSystem.stepCall
  split
  · exact h
  · next w hw =>
    split
    · refine h.of_eq rfl rfl rfl ?_ rfl nofun
      simp [accepted, hw]
    · obtain ⟨hok, hin, new, htake, hring⟩ := (h.call w hw).next h.inLt h.outLt
      obtain ⟨buf, i, hsp⟩ := w.exists_next s.sp
      have hout : (w.next s.sp).1.txOut = s.sp.txOut := by rw [hsp]
      refine ⟨hin, hout ▸ h.outLt, ?_, ?_⟩
      · have hfifo := h.fifo
        simp only [accepted, txRing, hw, Option.elim, Call.accepted] at hfifo ⊢
        rw [htake, hout, hring, ← List.append_assoc, hfifo, List.append_assoc]
      · rintro w' ⟨⟩
        exact hok
  · next r hr =>
    split
    · refine h.of_eq rfl rfl rfl ?_ rfl nofun
      simp [accepted, hr]
    · obtain ⟨o, hsp⟩ := r.exists_next s.sp
      refine h.of_eq ?_ ?_ ?_ ?_ rfl nofun
      · rw [hsp]
      · rw [hsp]
      · rw [hsp]
      · simp [accepted, hr, Call.accepted]

/-- The interrupt routine sends a byte. -/
theorem TxInv.send (h : TxInv s) (hne : s.sp.txOut ≠ s.sp.txIn) (irq : Irq) :
    TxInv { s with
      sp := { s.sp with txOut := (s.sp.txOut + 1) % bufLen }
      irq := irq
      sent := s.sent ++ [s.sp.txBuf s.sp.txOut] } := by
  have hpos : 1 ≤ used bufLen s.sp.txIn s.sp.txOut := by
    have := (used_eq_zero_iff (i := s.sp.txIn) h.outLt).not.mpr hne.symm
    omega
  refine ⟨h.inLt, Nat.mod_lt _ (by decide), ?_, fun w hw => ?_⟩
  · have hfifo := h.fifo
    rw [txRing, contents_pop h.inLt h.outLt hne.symm] at hfifo
    rw [txRing, List.append_assoc]
    exact hfifo
  · obtain ⟨hptr, hcopy⟩ := h.call w hw
    refine ⟨hptr, fun n k hp => ?_⟩
    obtain ⟨⟨hin, hfits, hstraight, hleft, hcopied⟩, hk⟩ := hcopy n k hp
    refine ⟨⟨hin, ?_, hstraight, hleft, hcopied⟩, hk⟩
    rw [used_advance_out h.inLt h.outLt hpos]
    omega

theorem TxInv.stepIrq (h : TxInv s) (value : BitVec 32) : TxInv (s.stepIrq value) := by
  unfold JtagUartSystem.stepIrq
  split
  · exact h
  · split_ifs <;> exact h.of_eq rfl rfl rfl rfl rfl fun _ => id
  · split_ifs <;> exact h.of_eq rfl rfl rfl rfl rfl fun _ => id
  · split_ifs <;> exact h.of_eq rfl rfl rfl rfl rfl fun _ => id
  · split_ifs with hc
    · exact h.send hc.2 _
    · exact h.of_eq rfl rfl rfl rfl rfl fun _ => id
  · split_ifs <;> exact h.of_eq rfl rfl rfl rfl rfl fun _ => id

theorem TxInv.step (h : TxInv s) (e : Event) : TxInv (s.step e) := by
  cases e with
  | irq value => exact h.stepIrq value
  | call =>
    simp only [JtagUartSystem.step]
    split_ifs
    · exact h.stepCall
    · exact h
  | write data nonblock =>
    simp only [JtagUartSystem.step]
    split_ifs with hc
    · refine ⟨h.inLt, h.outLt, ?_, ?_⟩
      · have hfifo := h.fifo
        simp only [accepted, hc.2] at hfifo
        exact hfifo
      · rintro w ⟨⟩
        exact ⟨Nat.zero_le _, nofun⟩
    · exact h
  | read space nonblock =>
    simp only [JtagUartSystem.step]
    split_ifs with hc
    · refine h.of_eq rfl rfl rfl ?_ rfl nofun
      simp [accepted, hc.2, Call.accepted]
    · exact h
  | interrupt =>
    simp only [JtagUartSystem.step]
    split_ifs
    · exact h.of_eq rfl rfl rfl rfl rfl fun _ => id
    · exact h
  | alarm value =>
    simp only [JtagUartSystem.step, stepAlarm]
    split_ifs <;> first | exact h | exact h.of_eq rfl rfl rfl rfl rfl fun _ => id

/-! ## The received bytes -/

/-- The invariant of the ring buffer of the received bytes. -/
structure RxInv (s : JtagUartSystem) : Prop where
  inLt : s.sp.rxIn < bufLen
  outLt : s.sp.rxOut < bufLen
  fifo : s.received = s.delivered ++ s.rxRing
  call : ∀ r, s.call = some (.read r) → r.Ok s.sp

/-- A step that leaves the ring buffer and its calls alone. -/
theorem RxInv.of_eq (h : RxInv s) (hi : s'.sp.rxIn = s.sp.rxIn) (ho : s'.sp.rxOut = s.sp.rxOut)
    (hb : s'.sp.rxBuf = s.sp.rxBuf) (hd : s'.delivered = s.delivered)
    (hr : s'.received = s.received)
    (hc : ∀ r, s'.call = some (.read r) → s.call = some (.read r)) : RxInv s' := by
  refine ⟨hi ▸ h.inLt, ho ▸ h.outLt, ?_, fun r hr n k hp => ?_⟩
  · rw [hd, hr, rxRing, hi, ho, hb]
    exact h.fifo
  · obtain ⟨⟨hout, hfits, hstraight, hleft, hcopied⟩, hk⟩ := h.call r (hc r hr) n k hp
    exact ⟨⟨ho ▸ hout, hi ▸ ho ▸ hfits, ho ▸ hstraight, hleft, ho ▸ hb ▸ hcopied⟩, hk⟩

theorem RxInv.stepCall (h : RxInv s) : RxInv s.stepCall := by
  unfold JtagUartSystem.stepCall
  split
  · exact h
  · next w hw =>
    split
    · refine h.of_eq rfl rfl rfl ?_ rfl nofun
      simp [delivered, hw]
    · obtain ⟨buf, i, hsp⟩ := w.exists_next s.sp
      refine h.of_eq ?_ ?_ ?_ ?_ rfl nofun
      · rw [hsp]
      · rw [hsp]
      · rw [hsp]
      · simp [delivered, hw, Call.delivered]
  · next r hr =>
    split
    · refine h.of_eq rfl rfl rfl ?_ rfl nofun
      simp [delivered, hr]
    · obtain ⟨hok, hout, new, hbuffer, hring⟩ := (h.call r hr).next h.inLt h.outLt
      obtain ⟨o, hsp⟩ := r.exists_next s.sp
      have hin : (r.next s.sp).1.rxIn = s.sp.rxIn := by rw [hsp]
      have hbuf : (r.next s.sp).1.rxBuf = s.sp.rxBuf := by rw [hsp]
      refine ⟨hin ▸ h.inLt, hout, ?_, ?_⟩
      · have hfifo := h.fifo
        simp only [delivered, rxRing, hr, Option.elim, Call.delivered] at hfifo ⊢
        rw [hbuffer, hin, hbuf, hfifo, hring]
        simp only [List.append_assoc]
      · rintro r' ⟨⟩
        exact hok

/-- The interrupt routine stores a byte. -/
theorem RxInv.store (h : RxInv s) (hfull : (s.sp.rxIn + 1) % bufLen ≠ s.sp.rxOut) (irq : Irq)
    (byte : BitVec 8) :
    RxInv { s with
      sp := { s.sp with
        rxBuf := Function.update s.sp.rxBuf s.sp.rxIn byte
        rxIn := (s.sp.rxIn + 1) % bufLen }
      irq := irq
      received := s.received ++ [byte] } := by
  have hlt : used bufLen s.sp.rxIn s.sp.rxOut + 1 < bufLen := by
    have := (full_iff h.inLt h.outLt).not.mp hfull
    have := used_lt h.inLt h.outLt
    omega
  refine ⟨Nat.mod_lt _ (by decide), h.outLt, ?_, fun r hr n k hp => ?_⟩
  · have hfifo := h.fifo
    rw [rxRing] at hfifo ⊢
    rw [contents_push h.inLt h.outLt hlt, ← List.append_assoc, hfifo]
    rfl
  · obtain ⟨⟨hout, hfits, hstraight, hleft, hcopied⟩, hk⟩ := h.call r hr n k hp
    refine ⟨⟨hout, ?_, hstraight, hleft, ?_⟩, hk⟩
    · rw [used_advance_in h.inLt h.outLt hlt]
      omega
    · rw [hcopied, items_push h.inLt h.outLt (by omega)]

theorem RxInv.stepIrq (h : RxInv s) (value : BitVec 32) : RxInv (s.stepIrq value) := by
  unfold JtagUartSystem.stepIrq
  split
  · exact h
  · split_ifs <;> exact h.of_eq rfl rfl rfl rfl rfl fun _ => id
  · split_ifs with hfull
    · exact h.of_eq rfl rfl rfl rfl rfl fun _ => id
    · exact h.of_eq rfl rfl rfl rfl rfl fun _ => id
    · exact h.store hfull _ _
  · split_ifs <;> exact h.of_eq rfl rfl rfl rfl rfl fun _ => id
  · split_ifs <;> exact h.of_eq rfl rfl rfl rfl rfl fun _ => id
  · split_ifs <;> exact h.of_eq rfl rfl rfl rfl rfl fun _ => id

theorem RxInv.step (h : RxInv s) (e : Event) : RxInv (s.step e) := by
  cases e with
  | irq value => exact h.stepIrq value
  | call =>
    simp only [JtagUartSystem.step]
    split_ifs
    · exact h.stepCall
    · exact h
  | write data nonblock =>
    simp only [JtagUartSystem.step]
    split_ifs with hc
    · refine h.of_eq rfl rfl rfl ?_ rfl nofun
      simp [delivered, hc.2, Call.delivered]
    · exact h
  | read space nonblock =>
    simp only [JtagUartSystem.step]
    split_ifs with hc
    · refine ⟨h.inLt, h.outLt, ?_, ?_⟩
      · have hfifo := h.fifo
        simp only [delivered, hc.2] at hfifo
        exact hfifo
      · rintro r ⟨⟩ n k hp
        dsimp only [Read.call] at hp
        split_ifs at hp
    · exact h
  | interrupt =>
    simp only [JtagUartSystem.step]
    split_ifs
    · exact h.of_eq rfl rfl rfl rfl rfl fun _ => id
    · exact h
  | alarm value =>
    simp only [JtagUartSystem.step, stepAlarm]
    split_ifs <;> first | exact h | exact h.of_eq rfl rfl rfl rfl rfl fun _ => id

/-! ## Runs -/

theorem Run.txInv (ρ : Run) (n : ℕ) : TxInv (ρ.system n) :=
  Machine.run_invariant (P := TxInv)
    ⟨show 0 < bufLen by decide, show 0 < bufLen by decide, rfl, fun _ h => by cases h⟩ (fun _ e h => h.step e) ρ.event n

theorem Run.rxInv (ρ : Run) (n : ℕ) : RxInv (ρ.system n) :=
  Machine.run_invariant (P := RxInv)
    ⟨show 0 < bufLen by decide, show 0 < bufLen by decide, rfl, fun _ h => by cases h⟩ (fun _ e h => h.step e) ρ.event n

/-- **The bytes to send**, in every run: with any calls, any interruptions, also in the middle of a
`memcpy`, and anything that the device returns. The bytes that the calls have accepted are those that
were sent, and then those in the ring buffer, in order; and no access leaves the buffer of the driver or
of a caller. -/
theorem Run.tx_fifo (ρ : Run) (n : ℕ) :
    (ρ.system n).accepted = (ρ.system n).sent ++ (ρ.system n).txRing ∧
      (ρ.system n).txRing.length < bufLen ∧ (ρ.system n).sp.txOut < bufLen ∧
      ∀ w m k, (ρ.system n).call = some (.write w) → w.place = .copy m k → k < m →
        w.inIdx + k < bufLen ∧ w.ptr + k < w.data.length := by
  have h := ρ.txInv n
  refine ⟨h.fifo, ?_, h.outLt, fun w m k hw hp hk => ?_⟩
  · rw [txRing, contents, length_items]
    exact used_lt h.inLt h.outLt
  · obtain ⟨⟨hin, -, hstraight, hleft, -⟩, -⟩ := (h.call w hw).copy m k hp
    omega

/-- **The received bytes**, in every run. The bytes that the device has given are those that the calls
have delivered, and then those in the ring buffer, in order; and no access leaves the buffer of the
driver or of a caller. -/
theorem Run.rx_fifo (ρ : Run) (n : ℕ) :
    (ρ.system n).received = (ρ.system n).delivered ++ (ρ.system n).rxRing ∧
      (ρ.system n).rxRing.length < bufLen ∧ (ρ.system n).sp.rxIn < bufLen ∧
      ∀ r m k, (ρ.system n).call = some (.read r) → r.place = .copy m k → k < m →
        r.outIdx + k < bufLen ∧ k < r.space := by
  have h := ρ.rxInv n
  refine ⟨h.fifo, ?_, h.inLt, fun r m k hr hp hk => ?_⟩
  · rw [rxRing, contents, length_items]
    exact used_lt h.inLt h.outLt
  · obtain ⟨⟨hout, -, hstraight, hleft, -⟩, -⟩ := h.call r hr m k hp
    omega

/-! ## The space of the device -/

/-- How many bytes the interrupt routine can send before it reads the control register again. -/
def budget (irq : Irq) : ℕ :=
  match irq with
  | .receive control _ | .received control _ =>
    if control &&& controlWiMsk ≠ 0#32 then wspace control else 0
  | .transmit space => space
  | _ => 0

theorem budget_afterReceive (control : BitVec 32) :
    budget (Irq.afterReceive control) =
      if control &&& controlWiMsk ≠ 0#32 then wspace control else 0 := by
  unfold Irq.afterReceive
  split_ifs <;> rfl

theorem stepCall_sent_irq (s : JtagUartSystem) :
    s.stepCall.sent = s.sent ∧ s.stepCall.irq = s.irq := by
  unfold stepCall
  split
  · exact ⟨rfl, rfl⟩
  · split_ifs <;> exact ⟨rfl, rfl⟩
  · split_ifs <;> exact ⟨rfl, rfl⟩

theorem budget_stepIrq (h : s.irq ≠ .control) (value : BitVec 32) :
    (s.stepIrq value).sent.length + budget (s.stepIrq value).irq ≤
      s.sent.length + budget s.irq := by
  cases hirq : s.irq with
  | idle => simp [stepIrq, hirq]
  | control => exact absurd hirq h
  | receive control data =>
    simp only [stepIrq, hirq]
    split_ifs <;> exact le_rfl
  | received control data =>
    simp only [stepIrq, hirq]
    split_ifs <;> simp only [budget_afterReceive] <;> exact le_rfl
  | transmit space =>
    simp only [stepIrq, hirq]
    split_ifs with hc
    · simp only [budget, List.length_append, List.length_singleton]
      omega
    · exact Nat.le_add_right _ _
  | transmitted space =>
    simp only [stepIrq, hirq]
    split_ifs <;> exact le_rfl

theorem budget_step (h : s.irq ≠ .control) (e : Event) :
    (s.step e).sent.length + budget (s.step e).irq ≤ s.sent.length + budget s.irq := by
  cases e with
  | irq value => exact budget_stepIrq h value
  | call =>
    simp only [step]
    split_ifs
    · rw [s.stepCall_sent_irq.1, s.stepCall_sent_irq.2]
    · exact le_rfl
  | interrupt =>
    simp only [step]
    split_ifs with hidle
    · rw [hidle]
      exact le_rfl
    · exact le_rfl
  | write data nonblock =>
    simp only [step]
    split_ifs <;> exact le_rfl
  | read space nonblock =>
    simp only [step]
    split_ifs <;> exact le_rfl
  | alarm value =>
    simp only [step, stepAlarm]
    split_ifs <;> exact le_rfl

theorem budget_control (h : s.irq = .control) (value : BitVec 32) :
    (s.stepIrq value).sent = s.sent ∧ budget (s.stepIrq value).irq ≤ wspace value := by
  simp only [stepIrq, h]
  split_ifs
  · exact ⟨rfl, Nat.zero_le _⟩
  · refine ⟨rfl, ?_⟩
    simp only [budget]
    split_ifs
    · exact le_rfl
    · exact Nat.zero_le _
  · refine ⟨rfl, ?_⟩
    rw [budget_afterReceive]
    split_ifs
    · exact le_rfl
    · exact Nat.zero_le _

/-- **The space of the device**, in every run: from a read of the control register to the next one, the
interrupt routine sends at most as many bytes as the field `WSPACE` says. -/
theorem Run.sent_within_wspace (ρ : Run) (a b : ℕ) (value : BitVec 32)
    (ha : (ρ.system a).irq = .control) (he : ρ.event a = .irq value) (hab : a < b)
    (h : ∀ k, a < k → k < b → (ρ.system k).irq ≠ .control) :
    (ρ.system b).sent.length ≤ (ρ.system a).sent.length + wspace value := by
  have hbudget : (ρ.system b).sent.length + budget (ρ.system b).irq ≤
      (ρ.system a).sent.length + wspace value := by
    induction b, hab using Nat.le_induction with
    | base =>
      obtain ⟨hsent, hle⟩ := budget_control ha value
      rw [system_succ, he, step, hsent]
      omega
    | succ b hab ih =>
      rw [system_succ]
      exact (budget_step (h b hab b.lt_succ_self) _).trans (ih fun k hk hk' => h k hk (by omega))
  omega

/-- A run in which a byte is printed and sent. -/
def Run.printing : Run where
  timeout := intMax
  event := fun n =>
    if n = 0 then .write [0x48#8] false
    else if n ≤ 6 then .call
    else if n = 7 then .interrupt
    else if n = 8 then .irq 0x10200#32
    else .irq 0#32

theorem Run.sent_within_wspace_printing : (printing.system 10).sent.length ≤ 1 :=
  sent_within_wspace printing 8 10 0x10200#32 (by decide) rfl (by omega) fun k hk hk' => by
    obtain rfl : k = 9 := by omega
    decide

end JtagUartSystem

end ADS131A0X
