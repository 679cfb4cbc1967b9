import ADS131A0X.Nios.JtagFifo

/-!
# Waiting for the JTAG UART

A call that cannot go on waits until the interrupt routine has moved an index, so it depends on an
interrupt that the driver itself turns off and on. The interrupt for sending is on whenever bytes wait,
unless the call that has put them there is about to turn it on. The interrupt for receiving is on
whenever the ring buffer has space, with one exception: the interrupt routine turns it off when the
device gives no byte and yet announces one.

## Main definitions

* `JtagUart.Write.Kicks`: the call is going to turn the interrupt on
* `JtagUart.NoneAvailable`: a value of the data register that gives no byte and announces one
* `JtagUartSystem.Misses`, `JtagUartSystem.TurnsOn`: the interrupt routine reads such a value, and a call
  turns the interrupt for receiving on
* `JtagUartSystem.TxWake`, `JtagUartSystem.RxWake`: the invariants of the interrupts

## Main results

* `JtagUartSystem.Run.no_lost_wakeup`: a call that waits has its interrupt on
* `JtagUartSystem.Run.blocking_calls_complete`: what a blocking call has done when it returns
-/

namespace ADS131A0X

open Transition RingBuffer

namespace JtagUart

/-- The call is going to turn the interrupt for sending on. -/
def Write.Kicks (w : Write) : Prop :=
  match w.place with
  | .space | .copy _ _ | .kick => True
  | _ => False

/-- What a call that waits for space knows. -/
structure Write.Waits (sp : JtagUart) (w : Write) : Prop where
  full : w.place = .kick ∨ w.place = .wait → w.count ≠ 0 → (sp.txIn + 1) % bufLen = w.outIdx
  left : w.place = .wait ∨ w.place = .host → w.count ≠ 0

/-- The data register gives no byte, and yet announces one. -/
def NoneAvailable (value : BitVec 32) : Prop :=
  value &&& dataRvalidMsk = 0#32 ∧ value &&& dataRavailMsk ≠ 0#32

/-- What a call that waits for bytes knows. -/
structure Read.Waits (sp : JtagUart) (r : Read) : Prop where
  space_pos : r.place = .load ∨ r.place = .spin ∨ r.place = .recheck → 0 < r.space
  copy_pos : ∀ n k, r.place = .copy n k → 0 < n
  empty : r.place = .spin ∨ r.place = .recheck → r.buffer = [] ∧ r.inIdx = sp.rxOut

namespace Write

variable {sp sp' : JtagUart} {w : Write}

theorem Waits.of_eq (h : w.Waits sp) (hi : sp'.txIn = sp.txIn) : w.Waits sp' :=
  ⟨hi ▸ h.full, h.left⟩

theorem Waits.next (h : w.Waits sp) (hi : sp.txIn < bufLen) (ho : sp.txOut < bufLen) :
    (w.next sp).2.Waits (w.next sp).1 := by
  obtain ⟨hfull, hleft⟩ := h
  obtain ⟨-, -, hroom⟩ := room_spec hi ho
  cases hp : w.place with
  | space =>
    simp only [Write.next, hp]
    split_ifs with hcount hzero
    · exact ⟨fun _ h => absurd hcount h, by simp⟩
    · exact ⟨fun _ _ => (full_iff hi ho).mpr (hroom.mp hzero), by simp⟩
    · exact ⟨by simp, by simp⟩
  | copy n k =>
    simp only [Write.next, hp]
    split_ifs <;> exact ⟨by simp, by simp⟩
  | kick =>
    simp only [Write.next, hp]
    split_ifs with hc
    · exact ⟨by simp, by simp⟩
    · rw [not_or] at hc
      exact ⟨fun _ => hfull (Or.inl hp), fun _ => hc.1⟩
  | wait =>
    simp only [Write.next, hp]
    split_ifs
    · exact ⟨hfull, hleft⟩
    · exact ⟨by simp, fun _ => hleft (Or.inl hp)⟩
  | host =>
    simp only [Write.next, hp]
    split_ifs <;> exact ⟨by simp, by simp⟩
  | done =>
    simp only [Write.next, hp]
    exact ⟨hfull, hleft⟩

/-- The interrupt for sending after a step of a call. -/
theorem kicks_next (hp : w.place ≠ .done) :
    (w.next sp).2.Kicks ∨
      ((w.next sp).1.irqEnable.getLsbD 1 = true ∨ ¬ w.Kicks ∧ (w.next sp).1 = sp) := by
  cases hp : w.place with
  | space =>
    simp only [Write.next, hp]
    split_ifs <;> exact Or.inl trivial
  | copy n k =>
    simp only [Write.next, hp]
    split_ifs <;> exact Or.inl trivial
  | kick =>
    simp only [Write.next, hp]
    exact Or.inr (Or.inl (by simp [controlWeMsk]))
  | wait =>
    simp only [Write.next, hp]
    exact Or.inr (Or.inr ⟨by simp [Kicks, hp], trivial⟩)
  | host =>
    simp only [Write.next, hp]
    exact Or.inr (Or.inr ⟨by simp [Kicks, hp], trivial⟩)
  | done => contradiction

end Write

namespace Read

variable {sp sp' : JtagUart} {r : Read}

theorem Waits.of_eq (h : r.Waits sp) (ho : sp'.rxOut = sp.rxOut) : r.Waits sp' :=
  ⟨h.space_pos, h.copy_pos, ho ▸ h.empty⟩

theorem waits_leave (sp : JtagUart) (r : Read) (hspace : r.buffer = [] → 0 < r.space)
    (hin : r.buffer = [] → r.inIdx = sp.rxOut) : r.leave.Waits sp := by
  unfold leave
  split_ifs with hne hnon
  · exact ⟨by simp, by simp, by simp⟩
  · exact ⟨by simp, by simp, by simp⟩
  · rw [not_not] at hne
    exact ⟨fun _ => hspace hne, by simp, fun _ => ⟨hne, hin hne⟩⟩

/-- What a call has got in a `memcpy` is not empty. -/
theorem Ok.chunk_ne_nil {n k : ℕ} (h : r.Ok sp) (hw : r.Waits sp) (hp : r.place = .copy n k)
    (hk : ¬ k < n) : r.chunk ≠ [] := by
  obtain ⟨hcopying, hle⟩ := h n k hp
  have hlen : r.chunk.length = k := by rw [hcopying.copied, length_items]
  have hpos := hw.copy_pos n k hp
  intro hnil
  rw [hnil, List.length_nil] at hlen
  omega

theorem Waits.next (h : r.Waits sp) (hok : r.Ok sp) (hi : sp.rxIn < bufLen)
    (ho : sp.rxOut < bufLen) : (r.next sp).2.Waits (r.next sp).1 := by
  obtain ⟨-, -, havail⟩ := avail_spec hi ho
  cases hp : r.place with
  | load =>
    have hpos := h.space_pos (Or.inl hp)
    simp only [Read.next, hp]
    split_ifs with hzero
    · exact waits_leave _ _ (fun _ => hpos) fun _ => havail.mp hzero
    · refine ⟨by simp, ?_, by simp⟩
      rintro n k ⟨⟩
      omega
  | copy n k =>
    simp only [Read.next, hp]
    split_ifs with hk hspace
    · refine ⟨by simp, ?_, by simp⟩
      rintro n' k' ⟨⟩
      exact h.copy_pos n k hp
    · exact ⟨fun _ => hspace, by simp, by simp⟩
    · have hne : r.buffer ++ r.chunk ≠ [] :=
        List.append_ne_nil_of_right_ne_nil _ (hok.chunk_ne_nil h hp hk)
      exact waits_leave _ _ (fun hnil => absurd hnil hne) fun hnil => absurd hnil hne
  | spin =>
    simp only [Read.next, hp]
    split_ifs
    · exact h
    · exact ⟨fun _ => h.space_pos (by simp [hp]), by simp, fun _ => h.empty (by simp [hp])⟩
  | recheck =>
    simp only [Read.next, hp]
    split_ifs
    · exact ⟨by simp, by simp, by simp⟩
    · exact ⟨fun _ => h.space_pos (by simp [hp]), by simp, by simp⟩
  | enable =>
    simp only [Read.next, hp]
    exact ⟨by simp, by simp, by simp⟩
  | done =>
    simp only [Read.next, hp]
    exact h

/-- The interrupt for receiving after a step of a call. -/
theorem Waits.enables_next (h : r.Waits sp) (hok : r.Ok sp) (hdone : r.place ≠ .done) :
    (r.next sp).1.irqEnable.getLsbD 0 = true ∨
      ((r.next sp).2.buffer ≠ [] ∧ (r.next sp).2.place ≠ .done) ∨
      (r.buffer = [] ∧ (r.next sp).1 = sp) := by
  cases hp : r.place with
  | load =>
    by_cases hne : r.buffer = []
    · simp only [Read.next, hp]
      split_ifs <;> exact Or.inr (Or.inr ⟨hne, rfl⟩)
    · simp only [Read.next, hp]
      split_ifs
      · exact Or.inr (Or.inl ⟨hne, by simp [leave, hne]⟩)
      · exact Or.inr (Or.inl ⟨hne, by simp⟩)
  | copy n k =>
    simp only [Read.next, hp]
    split_ifs with hk hspace
    · by_cases hne : r.buffer = []
      · exact Or.inr (Or.inr ⟨hne, rfl⟩)
      · exact Or.inr (Or.inl ⟨hne, by simp⟩)
    all_goals
      have hne : r.buffer ++ r.chunk ≠ [] :=
        List.append_ne_nil_of_right_ne_nil _ (hok.chunk_ne_nil h hp hk)
    · exact Or.inr (Or.inl ⟨hne, by simp⟩)
    · exact Or.inr (Or.inl ⟨hne, by simp only [leave, if_pos hne]; simp⟩)
  | spin =>
    simp only [Read.next, hp]
    exact Or.inr (Or.inr ⟨(h.empty (by simp [hp])).1, trivial⟩)
  | recheck =>
    simp only [Read.next, hp]
    exact Or.inr (Or.inr ⟨(h.empty (by simp [hp])).1, trivial⟩)
  | enable =>
    simp only [Read.next, hp]
    exact Or.inl (by simp [controlReMsk])
  | done => contradiction

end Read

theorem Irq.afterReceive_ne_transmitted (control : BitVec 32) (space : ℕ) :
    Irq.afterReceive control ≠ .transmitted space := by
  unfold Irq.afterReceive
  split <;> simp

theorem Irq.afterReceive_ne_received (control c d : BitVec 32) :
    Irq.afterReceive control ≠ .received c d := by
  unfold Irq.afterReceive
  split <;> simp

end JtagUart

open JtagUart

namespace JtagUartSystem

variable {s s' : JtagUartSystem}

/-! ## Sending -/

/-- The invariant of the interrupt for sending. -/
structure TxWake (s : JtagUartSystem) : Prop where
  enabled : s.sp.txIn ≠ s.sp.txOut →
    s.sp.irqEnable.getLsbD 1 = true ∨ ∃ w, s.call = some (.write w) ∧ w.Kicks
  transmitted : ∀ space, s.irq = .transmitted space → 0 < space → s.sp.txIn = s.sp.txOut
  write : ∀ w, s.call = some (.write w) → w.Waits s.sp

/-- A step that leaves sending alone. -/
theorem TxWake.of_eq (h : TxWake s) (hi : s'.sp.txIn = s.sp.txIn) (ho : s'.sp.txOut = s.sp.txOut)
    (he : s'.sp.irqEnable.getLsbD 1 = s.sp.irqEnable.getLsbD 1) (hc : s'.call = s.call)
    (hirq : ∀ space, s'.irq ≠ .transmitted space) : TxWake s' := by
  refine ⟨fun hne => ?_, fun space h' => absurd h' (hirq space), fun w hw => ?_⟩
  · rw [he, hc]
    exact h.enabled (by rwa [hi, ho] at hne)
  · exact (h.write w (hc ▸ hw)).of_eq hi

/-- A call that has no interrupt to turn on. -/
theorem TxWake.enabled_of_not_kicks (h : TxWake s) (hne : s.sp.txIn ≠ s.sp.txOut)
    (hk : ∀ w, s.call = some (.write w) → ¬ w.Kicks) : s.sp.irqEnable.getLsbD 1 = true :=
  (h.enabled hne).resolve_right fun ⟨w, hw, hw'⟩ => hk w hw hw'

theorem TxWake.stepCall (h : TxWake s) (hinv : TxInv s) (hidle : s.irq = .idle) :
    TxWake s.stepCall := by
  have hirq : ∀ space, s.irq ≠ .transmitted space := by
    intro space h'
    rw [hidle] at h'
    cases h'
  unfold JtagUartSystem.stepCall
  split
  · exact h
  · next w hw =>
    split
    · next hdone =>
      refine ⟨fun hne => Or.inl (h.enabled_of_not_kicks hne fun w' hw' => ?_), fun space h' => ?_,
        by simp⟩
      · rw [hw] at hw'
        cases hw'
        rw [Write.Kicks, hdone]
        exact id
      · exact absurd h' (hirq space)
    · next hdone =>
      refine ⟨fun hne => ?_, fun space h' => absurd h' (hirq space), ?_⟩
      · rcases w.kicks_next hdone with hk | he | ⟨hk, hsame⟩
        · exact Or.inr ⟨_, rfl, hk⟩
        · exact Or.inl he
        · dsimp only at hne ⊢
          rw [hsame] at hne ⊢
          refine Or.inl (h.enabled_of_not_kicks hne fun w' hw' => ?_)
          rw [hw] at hw'
          cases hw'
          exact hk
      · rintro w' ⟨⟩
        exact (h.write w hw).next hinv.inLt hinv.outLt
  · next r hr =>
    have hk : ∀ w, s.call = some (.write w) → ¬ w.Kicks := by
      intro w hw
      rw [hr] at hw
      cases hw
    split
    · exact ⟨fun hne => Or.inl (h.enabled_of_not_kicks hne hk),
        fun space h' => absurd h' (hirq space), by simp⟩
    · obtain ⟨o, hsp⟩ := r.exists_next s.sp
      refine ⟨fun hne => Or.inl ?_, fun space h' => absurd h' (hirq space), by simp⟩
      dsimp only at hne ⊢
      rw [hsp] at hne ⊢
      have henabled := h.enabled_of_not_kicks hne hk
      dsimp only
      split_ifs
      · rw [BitVec.getLsbD_or, henabled, Bool.true_or]
      · exact henabled

theorem TxWake.stepIrq (h : TxWake s) (value : BitVec 32) : TxWake (s.stepIrq value) := by
  unfold JtagUartSystem.stepIrq
  split
  · exact h
  · split_ifs
    · exact h.of_eq rfl rfl rfl rfl (by simp)
    · exact h.of_eq rfl rfl rfl rfl (by simp)
    · exact h.of_eq rfl rfl rfl rfl (Irq.afterReceive_ne_transmitted _)
  · split_ifs <;> exact h.of_eq rfl rfl rfl rfl (by simp)
  · split_ifs
    · exact h.of_eq rfl rfl (by simp [controlReMsk]) rfl (Irq.afterReceive_ne_transmitted _)
    · exact h.of_eq rfl rfl rfl rfl (Irq.afterReceive_ne_transmitted _)
  · split_ifs with hc
    · exact ⟨fun _ => h.enabled hc.2.symm, by simp, fun w hw => (h.write w hw).of_eq rfl⟩
    · refine ⟨h.enabled, ?_, h.write⟩
      rintro space ⟨⟩ hpos
      by_contra hne
      exact hc ⟨hpos, fun heq => hne heq.symm⟩
  · next space hirq =>
    split_ifs with hpos
    · exact ⟨fun hne => absurd (h.transmitted space hirq hpos) hne, by simp,
        fun w hw => (h.write w hw).of_eq rfl⟩
    · exact h.of_eq rfl rfl rfl rfl (by simp)

theorem TxWake.step (h : TxWake s) (hinv : TxInv s) (e : Event) : TxWake (s.step e) := by
  cases e with
  | irq value => exact h.stepIrq value
  | call =>
    simp only [JtagUartSystem.step]
    split_ifs with hidle
    · exact h.stepCall hinv hidle
    · exact h
  | write data nonblock =>
    simp only [JtagUartSystem.step]
    split_ifs with hc
    · refine ⟨fun _ => Or.inr ⟨_, rfl, trivial⟩, h.transmitted, ?_⟩
      rintro w ⟨⟩
      exact ⟨by simp [Write.call], by simp [Write.call]⟩
    · exact h
  | read space nonblock =>
    simp only [JtagUartSystem.step]
    split_ifs with hc
    · refine ⟨fun hne => Or.inl (h.enabled_of_not_kicks hne fun w hw => ?_), h.transmitted, by simp⟩
      rw [hc.2] at hw
      cases hw
    · exact h
  | interrupt =>
    simp only [JtagUartSystem.step]
    split_ifs
    · exact h.of_eq rfl rfl rfl rfl (by simp)
    · exact h
  | alarm value =>
    simp only [JtagUartSystem.step, stepAlarm]
    split_ifs with hidle
    · exact ⟨h.enabled, h.transmitted, fun w hw => (h.write w hw).of_eq rfl⟩
    · exact ⟨h.enabled, h.transmitted, fun w hw => (h.write w hw).of_eq rfl⟩
    · exact h
    · exact h

/-! ## Receiving -/

/-- The ring buffer of the received bytes is full. -/
def RxFull (s : JtagUartSystem) : Prop := (s.sp.rxIn + 1) % bufLen = s.sp.rxOut

/-- The call has got bytes, and is going to turn the interrupt for receiving on. -/
def Enables (s : JtagUartSystem) : Prop :=
  ∃ r, s.call = some (.read r) ∧ r.buffer ≠ [] ∧ r.place ≠ .done

/-- In this step the interrupt routine reads the data register, and the device announces a byte that it
does not give. -/
def Misses (s : JtagUartSystem) : Event → Prop
  | .irq value => (∃ control data, s.irq = .receive control data) ∧ ¬ s.RxFull ∧ NoneAvailable value
  | _ => False

/-- In this step a call turns the interrupt for receiving on. -/
def TurnsOn (s : JtagUartSystem) (e : Event) : Prop :=
  e = .call ∧ s.irq = .idle ∧ ∃ r, s.call = some (.read r) ∧ r.place = .enable

/-- The invariant of the interrupt for receiving, where `missed` says that the device has announced a
byte that it did not give. -/
structure RxWake (s : JtagUartSystem) (missed : Prop) : Prop where
  enabled : s.sp.irqEnable.getLsbD 0 = false → s.RxFull ∨ missed ∨ s.Enables
  received : ∀ control data, s.irq = .received control data →
    data &&& dataRavailMsk ≠ 0#32 → s.RxFull ∨ missed
  read : ∀ r, s.call = some (.read r) → r.Waits s.sp

theorem RxWake.mono {missed missed' : Prop} (h : RxWake s missed) (hm : missed → missed') :
    RxWake s missed' where
  enabled he := (h.enabled he).imp_right (Or.imp_left hm)
  received c d hirq hd := (h.received c d hirq hd).imp_right hm
  read := h.read

variable {missed : Prop}

/-- A step that leaves receiving alone. -/
theorem RxWake.of_eq (h : RxWake s missed) (hi : s'.sp.rxIn = s.sp.rxIn)
    (ho : s'.sp.rxOut = s.sp.rxOut)
    (he : s'.sp.irqEnable.getLsbD 0 = s.sp.irqEnable.getLsbD 0) (hc : s'.call = s.call)
    (hirq : ∀ control data, s'.irq ≠ .received control data) : RxWake s' missed := by
  refine ⟨fun h' => ?_, fun c d h' => absurd h' (hirq c d), fun r hr => ?_⟩
  · rw [he] at h'
    rw [RxFull, Enables, hi, ho, hc]
    exact h.enabled h'
  · exact (h.read r (hc ▸ hr)).of_eq ho

/-- A call that has no interrupt to turn on. -/
theorem RxWake.enabled_of_not_enables (h : RxWake s missed)
    (hno : ∀ r, s.call = some (.read r) → r.buffer = [] ∨ r.place = .done)
    (he : s.sp.irqEnable.getLsbD 0 = false) : s.RxFull ∨ missed := by
  refine (h.enabled he).imp_right fun h' => h'.resolve_right ?_
  rintro ⟨r, hr, hne, hplace⟩
  exact (hno r hr).elim hne hplace

theorem RxWake.stepCall (h : RxWake s missed) (hinv : RxInv s) (hidle : s.irq = .idle) :
    RxWake s.stepCall missed := by
  have hirq : ∀ control data, s.irq ≠ .received control data := by
    intro c d h'
    rw [hidle] at h'
    cases h'
  unfold JtagUartSystem.stepCall
  split
  · exact h
  · next w hw =>
    have hno : ∀ r, s.call = some (.read r) → r.buffer = [] ∨ r.place = .done := by
      intro r hr
      rw [hw] at hr
      cases hr
    split
    · exact ⟨fun he => (h.enabled_of_not_enables hno he).imp_right Or.inl,
        fun c d h' => absurd h' (hirq c d), by simp⟩
    · obtain ⟨buf, i, hsp⟩ := w.exists_next s.sp
      refine ⟨fun h' => ?_, fun c d h' => absurd h' (hirq c d), by simp⟩
      have hbit : s.sp.irqEnable.getLsbD 0 = false := by
        dsimp only at h'
        rw [hsp] at h'
        dsimp only at h'
        split_ifs at h'
        · simpa [controlWeMsk] using h'
        · exact h'
      rw [RxFull, hsp]
      exact (h.enabled_of_not_enables hno hbit).imp_right Or.inl
  · next r hr =>
    have hwaits := h.read r hr
    have hok := hinv.call r hr
    split
    · next hdone =>
      refine ⟨fun he => (h.enabled_of_not_enables (fun r' hr' => ?_) he).imp_right Or.inl,
        fun c d h' => absurd h' (hirq c d), by simp⟩
      rw [hr] at hr'
      cases hr'
      exact Or.inr hdone
    · next hdone =>
      refine ⟨fun h' => ?_, fun c d h' => absurd h' (hirq c d), ?_⟩
      · rcases hwaits.enables_next hok hdone with he | ⟨hne, hplace⟩ | ⟨hnil, hsame⟩
        · dsimp only at h'
          rw [he] at h'
          cases h'
        · exact Or.inr (Or.inr ⟨_, rfl, hne, hplace⟩)
        · dsimp only at h'
          rw [hsame] at h'
          rw [RxFull, hsame]
          refine (h.enabled_of_not_enables (fun r' hr' => ?_) h').imp_right Or.inl
          rw [hr] at hr'
          cases hr'
          exact Or.inl hnil
      · rintro r' ⟨⟩
        exact hwaits.next hok hinv.inLt hinv.outLt

theorem RxWake.stepIrq (h : RxWake s missed) (value : BitVec 32) :
    RxWake (s.stepIrq value) (missed ∨ s.Misses (.irq value)) := by
  have hmono : RxWake s (missed ∨ s.Misses (.irq value)) := h.mono Or.inl
  unfold JtagUartSystem.stepIrq
  split
  · exact hmono
  · split_ifs
    · exact hmono.of_eq rfl rfl rfl rfl (by simp)
    · exact hmono.of_eq rfl rfl rfl rfl (by simp)
    · exact hmono.of_eq rfl rfl rfl rfl (Irq.afterReceive_ne_received _)
  · next control data hirq =>
    split_ifs with hfull hvalid
    · exact ⟨hmono.enabled, fun _ _ _ _ => Or.inl hfull, hmono.read⟩
    · refine ⟨hmono.enabled, ?_, hmono.read⟩
      rintro c d ⟨⟩ havail
      exact Or.inr (Or.inr ⟨⟨control, data, hirq⟩, hfull, hvalid, havail⟩)
    -- with space in the ring buffer the interrupt can only be off for the other reasons
    · refine ⟨fun he => Or.inr ?_, by simp, fun r hr => (hmono.read r hr).of_eq rfl⟩
      exact (hmono.enabled he).resolve_left hfull
  · next control data hirq =>
    split_ifs with havail
    · refine ⟨fun _ => ?_, fun c d h' => absurd h' (Irq.afterReceive_ne_received _ c d),
        fun r hr => (hmono.read r hr).of_eq rfl⟩
      exact (hmono.received control data hirq havail).imp_right Or.inl
    · exact hmono.of_eq rfl rfl rfl rfl (Irq.afterReceive_ne_received _)
  · split_ifs <;> exact hmono.of_eq rfl rfl rfl rfl (by simp)
  · split_ifs
    · exact hmono.of_eq rfl rfl (by simp [controlWeMsk]) rfl (by simp)
    · exact hmono.of_eq rfl rfl rfl rfl (by simp)

/-- Once a call has turned the interrupt on, it does not matter what the device has missed before. -/
theorem RxWake.of_turnsOn (h : RxWake s missed) (hinv : RxInv s) {e : Event} (he : s.TurnsOn e) :
    RxWake (s.step e) False := by
  obtain ⟨rfl, hidle, r, hr, hp⟩ := he
  have hread := (h.stepCall hinv hidle).read
  have hstep : s.step .call = s.stepCall := if_pos hidle
  have hcall : s.stepCall = { s with
      sp := (r.next s.sp).1
      call := some (.read (r.next s.sp).2)
      control := (r.next s.sp).1.irqEnable } := by
    rw [JtagUartSystem.stepCall, hr]
    simp [hp]
  have hon : s.stepCall.sp.irqEnable.getLsbD 0 = true := by
    rw [hcall]
    simp [Read.next, hp, controlReMsk]
  have hirq : s.stepCall.irq = .idle := by
    rw [hcall]
    exact hidle
  rw [hstep]
  refine ⟨fun hoff => ?_, fun c d h' => ?_, hread⟩
  · rw [hon] at hoff
    cases hoff
  · rw [hirq] at h'
    cases h'

theorem RxWake.step_or_misses (h : RxWake s missed) (hinv : RxInv s) (e : Event) :
    RxWake (s.step e) (missed ∨ s.Misses e) := by
  cases e with
  | irq value => exact h.stepIrq value
  | call =>
    simp only [JtagUartSystem.step]
    split_ifs with hidle
    · exact (h.stepCall hinv hidle).mono Or.inl
    · exact h.mono Or.inl
  | write data nonblock =>
    suffices hs : RxWake _ missed from hs.mono Or.inl
    simp only [JtagUartSystem.step]
    split_ifs with hc
    · refine ⟨fun he => (h.enabled_of_not_enables (fun r hr => ?_) he).imp_right Or.inl,
        h.received, by simp⟩
      rw [hc.2] at hr
      cases hr
    · exact h
  | read space nonblock =>
    suffices hs : RxWake _ missed from hs.mono Or.inl
    simp only [JtagUartSystem.step]
    split_ifs with hc
    · refine ⟨fun he => (h.enabled_of_not_enables (fun r hr => ?_) he).imp_right Or.inl,
        h.received, ?_⟩
      · rw [hc.2] at hr
        cases hr
      rintro r ⟨⟩
      unfold Read.call
      split_ifs with hspace
      · exact ⟨fun _ => hspace, by simp, by simp⟩
      · exact ⟨by simp, by simp, by simp⟩
    · exact h
  | interrupt =>
    simp only [JtagUartSystem.step]
    split_ifs
    · exact (h.mono Or.inl).of_eq rfl rfl rfl rfl (by simp)
    · exact h.mono Or.inl
  | alarm value =>
    suffices hs : RxWake _ missed from hs.mono Or.inl
    simp only [JtagUartSystem.step, stepAlarm]
    split_ifs with hidle
    · exact ⟨h.enabled, h.received, fun r hr => (h.read r hr).of_eq rfl⟩
    · exact ⟨h.enabled, h.received, fun r hr => (h.read r hr).of_eq rfl⟩
    · exact h
    · exact h

theorem RxWake.step (h : RxWake s missed) (hinv : RxInv s) (e : Event) :
    RxWake (s.step e) (missed ∧ ¬ s.TurnsOn e ∨ s.Misses e) := by
  by_cases he : s.TurnsOn e
  · exact (h.of_turnsOn hinv he).mono False.elim
  · exact (h.step_or_misses hinv e).mono (Or.imp_left fun hm => ⟨hm, he⟩)

/-! ## The device -/

/-- The device has the interrupts enabled that the driver takes for enabled. -/
def Device (s : JtagUartSystem) : Prop :=
  ∀ b < 2, s.control.getLsbD b = s.sp.irqEnable.getLsbD b

theorem Device.step (h : Device s) (e : Event) : Device (s.step e) := by
  cases e with
  | irq value =>
    simp only [JtagUartSystem.step, stepIrq]
    split <;> (try split_ifs) <;> first | exact h | exact fun _ _ => rfl
  | call =>
    simp only [JtagUartSystem.step]
    split_ifs
    · unfold stepCall
      split
      · exact h
      · next w _ =>
        obtain ⟨buf, i, hsp⟩ := w.exists_next s.sp
        split_ifs with hdone hkick
        · exact h
        · exact fun _ _ => rfl
        · rw [if_neg hkick] at hsp
          rw [Device, hsp]
          exact h
      · next r _ =>
        obtain ⟨o, hsp⟩ := r.exists_next s.sp
        split_ifs with hdone henable
        · exact h
        · exact fun _ _ => rfl
        · rw [if_neg henable] at hsp
          rw [Device, hsp]
          exact h
    · exact h
  | write data nonblock =>
    simp only [JtagUartSystem.step]
    split_ifs <;> exact h
  | read space nonblock =>
    simp only [JtagUartSystem.step]
    split_ifs <;> exact h
  | interrupt =>
    simp only [JtagUartSystem.step]
    split_ifs <;> exact h
  | alarm value =>
    simp only [JtagUartSystem.step, stepAlarm]
    split_ifs
    · intro b hb
      dsimp only
      obtain rfl | rfl : b = 0 ∨ b = 1 := by omega
      · simp [controlAcMsk]
      · simp [controlAcMsk]
    all_goals exact h

/-! ## Runs -/

/-- Before step `n` the interrupt routine has read the data register, the device has announced a byte
that it did not give, and no call has turned the interrupt for receiving on since. -/
def Run.Missed (ρ : Run) (n : ℕ) : Prop :=
  ∃ m < n, (ρ.system m).Misses (ρ.event m) ∧
    ∀ k, m < k → k < n → ¬ (ρ.system k).TurnsOn (ρ.event k)

theorem Run.wake (ρ : Run) (n : ℕ) :
    TxWake (ρ.system n) ∧ RxWake (ρ.system n) (ρ.Missed n) ∧ Device (ρ.system n) := by
  induction n with
  | zero =>
    refine ⟨⟨fun h => absurd rfl h, fun _ h => ?_, fun _ h => ?_⟩,
      ⟨fun h => ?_, fun _ _ h => ?_, fun _ h => ?_⟩, fun _ _ => rfl⟩
    · cases h
    · cases h
    · have hbit : controlReMsk.getLsbD 0 = true := by decide
      rw [show controlReMsk.getLsbD 0 = false from h] at hbit
      cases hbit
    · cases h
    · cases h
  | succ n ih =>
    rw [system_succ]
    refine ⟨ih.1.step (ρ.txInv n) _, (ih.2.1.step (ρ.rxInv n) _).mono ?_, ih.2.2.step _⟩
    rintro (⟨⟨m, hm, h, hoff⟩, hnow⟩ | h)
    · refine ⟨m, by omega, h, fun k hk hkn => ?_⟩
      rcases Nat.lt_succ_iff_lt_or_eq.mp hkn with hlt | rfl
      · exact hoff k hk hlt
      · exact hnow
    · exact ⟨n, n.lt_succ_self, h, fun k hk hkn => by omega⟩

/-- **No lost wakeup**, in every run. While bytes wait to be sent, the device has the interrupt for
sending enabled, or the call under way is going to enable it. So it is on when a call waits for space,
and the ring buffer is full then. When a call waits for bytes, the ring buffer is empty and the device
has the interrupt for receiving enabled, unless the interrupt routine has read its data register, found
a byte announced and none given, and no call has turned the interrupt on since. -/
theorem Run.no_lost_wakeup (ρ : Run) (n : ℕ) :
    ((ρ.system n).txRing ≠ [] → (ρ.system n).control.getLsbD 1 = true ∨
        ∃ w, (ρ.system n).call = some (.write w) ∧ w.Kicks) ∧
      (∀ w, (ρ.system n).call = some (.write w) → w.place = .wait →
        w.outIdx = (ρ.system n).sp.txOut →
        (ρ.system n).txRing.length + 1 = bufLen ∧ (ρ.system n).control.getLsbD 1 = true) ∧
      (∀ r, (ρ.system n).call = some (.read r) → r.place = .spin →
        r.inIdx = (ρ.system n).sp.rxIn →
        (ρ.system n).rxRing = [] ∧ ((ρ.system n).control.getLsbD 0 = true ∨ ρ.Missed n)) := by
  obtain ⟨htx, hrx, hdevice⟩ := ρ.wake n
  have htxi := ρ.txInv n
  have hrxi := ρ.rxInv n
  refine ⟨fun hne => ?_, fun w hw hp hout => ?_, fun r hr hp hin => ?_⟩
  · rw [txRing, ne_eq, contents_eq_nil_iff htxi.outLt] at hne
    rw [hdevice 1 (by omega)]
    exact htx.enabled hne
  · have hfull := (htx.write w hw).full (Or.inr hp) ((htx.write w hw).left (Or.inl hp))
    rw [hout, full_iff htxi.inLt htxi.outLt] at hfull
    refine ⟨by rw [txRing, contents, length_items, hfull], ?_⟩
    rw [hdevice 1 (by omega)]
    refine htx.enabled_of_not_kicks (fun heq => ?_) fun w' hw' => ?_
    · rw [(used_eq_zero_iff htxi.outLt).mpr heq] at hfull
      exact absurd hfull (by decide)
    · rw [hw] at hw'
      cases hw'
      simp [Write.Kicks, hp]
  · obtain ⟨hnil, hidx⟩ := (hrx.read r hr).empty (Or.inl hp)
    have hempty : (ρ.system n).sp.rxIn = (ρ.system n).sp.rxOut := hin.symm.trans hidx
    refine ⟨(contents_eq_nil_iff hrxi.outLt).mpr hempty, ?_⟩
    rw [hdevice 0 (by omega)]
    by_contra hno
    rw [not_or, Bool.not_eq_true] at hno
    have hfull := (hrx.enabled_of_not_enables (fun r' hr' => ?_) hno.1).resolve_right hno.2
    · rw [RxFull, full_iff hrxi.inLt hrxi.outLt, (used_eq_zero_iff hrxi.outLt).mpr hempty] at hfull
      exact absurd hfull (by decide)
    · rw [hr] at hr'
      cases hr'
      exact Or.inl hnil

/-- A run in which the device announces a byte that it does not give, and then a call reads. -/
def Run.silent : Run where
  timeout := intMax
  event := fun n =>
    if n = 0 then .interrupt
    else if n = 1 then .irq 0x100#32
    else if n ≤ 3 then .irq 0x10000#32
    else if n = 4 then .irq 0#32
    else if n = 5 then .read 1 false
    else .call

/-- The exception: the call waits, and the interrupt is off. -/
example : (Run.silent.system 7).call = some (.read ⟨.spin, 1, false, [], [], 0, 0⟩) ∧
    (Run.silent.system 7).control.getLsbD 0 = false := by decide

end JtagUartSystem

/-! ## Calls that block -/

namespace JtagUart

/-- The call has done what a call that blocks has to do. -/
def Call.Complete : Call → Prop
  | .write w => w.nonblock = true ∨ w.ptr = w.data.length
  | .read r => r.nonblock = true ∨ r.buffer ≠ [] ∨ r.space = 0

/-- What a call to write knows while the host is there. -/
def Write.Attended (w : Write) : Prop := w.place = .done → (Call.write w).Complete

/-- What a call to read knows while the host is there. -/
structure Read.Attended (sp : JtagUart) (r : Read) : Prop where
  done : r.place = .done → (Call.read r).Complete
  enable : r.place = .enable → r.buffer ≠ []
  recheck : r.place = .recheck → sp.rxIn ≠ sp.rxOut

theorem Write.Attended.of_place {w : Write} (h : w.place ≠ .done) : w.Attended :=
  fun hd => absurd hd h

theorem Write.Attended.next {sp : JtagUart} {w : Write} (h : w.Attended) (hok : w.Ok sp)
    (hhost : sp.hostInactive = 0) : (w.next sp).2.Attended := by
  cases hp : w.place with
  | space =>
    simp only [Write.next, hp]
    split_ifs <;> exact .of_place (by simp)
  | copy n k =>
    simp only [Write.next, hp]
    split_ifs <;> exact .of_place (by simp)
  | kick =>
    simp only [Write.next, hp]
    split_ifs with hc
    · have hptr := hok.ptr_le
      exact fun _ => hc.symm.imp_right fun hcount => by rw [count] at hcount; dsimp only; omega
    · exact .of_place (by simp)
  | wait =>
    simp only [Write.next, hp]
    split_ifs
    · exact h
    · exact .of_place (by simp)
  | host =>
    simp only [Write.next, hp, if_pos hhost]
    exact .of_place (by simp)
  | done =>
    simp only [Write.next, hp]
    exact h

theorem Read.attended_leave (sp : JtagUart) (r : Read) : r.leave.Attended sp := by
  unfold Read.leave
  split_ifs with hne hnon
  · exact ⟨by simp, fun _ => hne, by simp⟩
  · exact ⟨fun _ => Or.inl hnon, by simp, by simp⟩
  · exact ⟨by simp, by simp, by simp⟩

theorem Read.Attended.next {sp : JtagUart} {r : Read} (h : r.Attended sp) (hw : r.Waits sp)
    (ht : 0 < sp.timeout) (hhost : sp.hostInactive = 0) :
    (r.next sp).2.Attended (r.next sp).1 := by
  cases hp : r.place with
  | load =>
    simp only [Read.next, hp]
    split_ifs
    · exact attended_leave _ _
    · exact ⟨by simp, by simp, by simp⟩
  | copy n k =>
    simp only [Read.next, hp]
    split_ifs
    · exact ⟨by simp, by simp, by simp⟩
    · exact ⟨by simp, by simp, by simp⟩
    · exact attended_leave _ _
  | spin =>
    simp only [Read.next, hp]
    split_ifs with hc
    · exact h
    -- the host is there, so a byte has arrived
    · refine ⟨by simp, by simp, fun _ heq => hc ⟨?_, by omega⟩⟩
      rw [(hw.empty (Or.inl hp)).2, heq]
  | recheck =>
    have hne := h.recheck hp
    rw [← (hw.empty (Or.inr hp)).2] at hne
    simp only [Read.next, hp, if_neg hne.symm]
    exact ⟨by simp, by simp, by simp⟩
  | enable =>
    simp only [Read.next, hp]
    exact ⟨fun _ => Or.inr (Or.inl (h.enable hp)), by simp, by simp⟩
  | done =>
    simp only [Read.next, hp]
    exact h

end JtagUart

namespace JtagUartSystem

variable {s s' : JtagUartSystem}

/-- The invariant of the calls while the host is there. -/
structure Attended (s : JtagUartSystem) : Prop where
  timeout : 0 < s.sp.timeout
  hostInactive : s.sp.hostInactive = 0
  write : ∀ w, s.call = some (.write w) → w.Attended
  read : ∀ r, s.call = some (.read r) → r.Attended s.sp
  returned : ∀ c ∈ s.returned, c.Complete

theorem Attended.stepCall (h : Attended s) (hinv : TxInv s)
    (hwake : ∀ r, s.call = some (.read r) → r.Waits s.sp) : Attended s.stepCall := by
  unfold JtagUartSystem.stepCall
  split
  · exact h
  · next w hw =>
    split
    · next hdone =>
      refine ⟨h.timeout, h.hostInactive, by simp, by simp, fun c hc => ?_⟩
      rcases List.mem_append.mp hc with hc | hc
      · exact h.returned c hc
      · rw [List.mem_singleton.mp hc]
        exact h.write w hw hdone
    · obtain ⟨buf, i, hsp⟩ := w.exists_next s.sp
      refine ⟨by rw [hsp]; exact h.timeout, by rw [hsp]; exact h.hostInactive, ?_, by simp,
        h.returned⟩
      rintro w' ⟨⟩
      exact (h.write w hw).next (hinv.call w hw) h.hostInactive
  · next r hr =>
    split
    · next hdone =>
      refine ⟨h.timeout, h.hostInactive, by simp, by simp, fun c hc => ?_⟩
      rcases List.mem_append.mp hc with hc | hc
      · exact h.returned c hc
      · rw [List.mem_singleton.mp hc]
        exact (h.read r hr).done hdone
    · obtain ⟨o, hsp⟩ := r.exists_next s.sp
      refine ⟨by rw [hsp]; exact h.timeout, by rw [hsp]; exact h.hostInactive, by simp, ?_,
        h.returned⟩
      rintro r' ⟨⟩
      exact (h.read r hr).next (hwake r hr) h.timeout h.hostInactive

theorem Attended.stepIrq (h : Attended s) (value : BitVec 32) : Attended (s.stepIrq value) := by
  unfold JtagUartSystem.stepIrq
  split
  · exact h
  · split_ifs <;> exact ⟨h.timeout, h.hostInactive, h.write, h.read, h.returned⟩
  · split_ifs with hfull
    · exact ⟨h.timeout, h.hostInactive, h.write, h.read, h.returned⟩
    · exact ⟨h.timeout, h.hostInactive, h.write, h.read, h.returned⟩
    · refine ⟨h.timeout, h.hostInactive, h.write, fun r hr => ?_, h.returned⟩
      exact ⟨(h.read r hr).done, (h.read r hr).enable, fun _ => hfull⟩
  all_goals
    split_ifs <;> refine ⟨h.timeout, h.hostInactive, h.write, fun r hr => ?_, h.returned⟩ <;>
      exact ⟨(h.read r hr).done, (h.read r hr).enable, (h.read r hr).recheck⟩

theorem Attended.step (h : Attended s) (hinv : TxInv s)
    (hwake : ∀ r, s.call = some (.read r) → r.Waits s.sp) (e : Event)
    (he : ∀ value, e = .alarm value → value &&& controlAcMsk ≠ 0#32) : Attended (s.step e) := by
  cases e with
  | irq value => exact h.stepIrq value
  | call =>
    simp only [JtagUartSystem.step]
    split_ifs
    · exact h.stepCall hinv hwake
    · exact h
  | write data nonblock =>
    simp only [JtagUartSystem.step]
    split_ifs
    · refine ⟨h.timeout, h.hostInactive, ?_, by simp, h.returned⟩
      rintro w ⟨⟩
      exact .of_place (by simp [Write.call])
    · exact h
  | read space nonblock =>
    simp only [JtagUartSystem.step]
    split_ifs
    · refine ⟨h.timeout, h.hostInactive, by simp, ?_, h.returned⟩
      rintro r ⟨⟩
      unfold Read.call
      split_ifs with hspace
      · exact ⟨by simp, by simp, by simp⟩
      · exact ⟨fun _ => Or.inr (Or.inr (Nat.eq_zero_of_not_pos hspace)), by simp, by simp⟩
    · exact h
  | interrupt =>
    simp only [JtagUartSystem.step]
    split_ifs
    · exact ⟨h.timeout, h.hostInactive, h.write, h.read, h.returned⟩
    · exact h
  | alarm value =>
    simp only [JtagUartSystem.step, stepAlarm, if_pos (he value rfl)]
    split_ifs
    · refine ⟨h.timeout, rfl, h.write, fun r hr => ?_, h.returned⟩
      exact ⟨(h.read r hr).done, (h.read r hr).enable, (h.read r hr).recheck⟩
    · exact h

theorem Run.attended (ρ : Run) (ht : 0 < ρ.timeout)
    (hhost : ∀ n value, ρ.event n = .alarm value → value &&& controlAcMsk ≠ 0#32) (n : ℕ) :
    Attended (ρ.system n) := by
  induction n with
  | zero =>
    refine ⟨ht, rfl, fun _ h => ?_, fun _ h => ?_, fun _ h => ?_⟩
    · cases h
    · cases h
    · cases h
  | succ n ih =>
    rw [system_succ]
    exact ih.step (ρ.txInv n) (ρ.wake n).2.1.read _ (hhost n)

/-- **What a blocking call has done when it returns**, in every run in which the host is there whenever
the alarm looks for it. A call to write has put all its bytes into the ring buffer and returns their
number, or reports an error if there were none. A call to read returns what it has got, at least one
byte, or reports an error if it had no space. -/
theorem Run.blocking_calls_complete (ρ : Run) (ht : 0 < ρ.timeout)
    (hhost : ∀ n value, ρ.event n = .alarm value → value &&& controlAcMsk ≠ 0#32) (n : ℕ) :
    (∀ w, .write w ∈ (ρ.system n).returned → w.nonblock = false →
      (Call.write w).accepted = w.data ∧
        w.result = if w.data = [] then .error .eio else .ok w.data.length) ∧
      ∀ r, .read r ∈ (ρ.system n).returned → r.nonblock = false →
        (r.buffer ≠ [] ∧ r.result = .ok r.buffer.length) ∨
          (r.buffer = [] ∧ r.space = 0 ∧ r.result = .error .eio) := by
  have h := (ρ.attended ht hhost n).returned
  refine ⟨fun w hw hblock => ?_, fun r hr hblock => ?_⟩
  · have hptr : w.ptr = w.data.length :=
      (h _ hw).resolve_left (by rw [hblock]; exact Bool.false_ne_true)
    refine ⟨List.take_of_length_le hptr.ge, ?_⟩
    rw [Write.result, hblock, hptr]
    by_cases hne : w.data = [] <;> simp [hne]
  · rw [Read.result, hblock]
    by_cases hne : r.buffer = []
    · have hspace : r.space = 0 := by
        rcases h _ hr with hb | hb | hb
        · rw [hblock] at hb
          cases hb
        · exact absurd hne hb
        · exact hb
      exact Or.inr ⟨hne, hspace, by simp [hne]⟩
    · exact Or.inl ⟨hne, by simp [hne]⟩

theorem Run.blocking_calls_complete_printing :
    .write ⟨.done, [0x48#8], false, 1, 0, 0⟩ ∈ (printing.system 7).returned ∧
      Write.result ⟨.done, [0x48#8], false, 1, 0, 0⟩ = .ok 1 := by
  have hmem : .write ⟨.done, [0x48#8], false, 1, 0, 0⟩ ∈ (printing.system 7).returned := by decide
  refine ⟨hmem, ((blocking_calls_complete printing (by decide) (fun n value h => ?_) 7).1 _ hmem rfl).2⟩
  simp only [printing] at h
  split_ifs at h

end JtagUartSystem

end ADS131A0X
