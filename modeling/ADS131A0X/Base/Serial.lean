import ADS131A0X.Base.Waveform
import Mathlib.Tactic.Ring

/-!
# Serial links

A link passes items on through stages. A stage holds some items back; at every step it takes in
new ones behind those it holds and gives out the first. Nothing is lost, doubled or reordered, and
the same is true of stages in a row. A shift register is the stage that turns a word into bits and
bits into a word at the same time.

## Main definitions

* `emitted f a b`: what `f` gives out at the steps from `a` to `b`
* `Stage input held output a b`: a stage between the steps `a` and `b`
* `shifted x bits`: a shift register that held `x`, after the bits were shifted in

## Main results

* `Stage.conserves`: what a stage has given out and what it holds is what it has taken in
* `Stage.comp`, `Stage.flatMap`: stages in a row, and a stage of words as a stage of bits
* `msbFirst_shifted`: a shift register is a window on its bits
-/

namespace Waveform

variable {α β : Type*} {a b c : ℕ}

/-! ## Emissions -/

/-- The items that `f` gives out at the steps `n` with `a ≤ n < b`, in order. -/
def emitted (f : ℕ → List α) (a b : ℕ) : List α := (List.Ico a b).flatMap f

section Emitted

variable {f g : ℕ → List α}

@[simp] theorem emitted_self : emitted f a a = [] := by
  simp [emitted]

theorem emitted_succ (hab : a ≤ b) : emitted f a (b + 1) = emitted f a b ++ f b := by
  rw [emitted, List.Ico.succ_top hab, List.flatMap_append]
  simp [emitted]

theorem emitted_append (hab : a ≤ b) (hbc : b ≤ c) :
    emitted f a b ++ emitted f b c = emitted f a c := by
  rw [emitted, emitted, emitted, ← List.flatMap_append, List.Ico.append_consecutive hab hbc]

theorem emitted_congr (h : ∀ n, a ≤ n → n < b → f n = g n) : emitted f a b = emitted g a b := by
  apply List.flatMap_congr
  intro n hn
  obtain ⟨ha, hb⟩ := List.Ico.mem.mp hn
  exact h n ha hb

theorem emitted_eq_nil : emitted f a b = [] ↔ ∀ n, a ≤ n → n < b → f n = [] := by
  simp [emitted, List.flatMap_eq_nil_iff]

theorem flatMap_emitted (g : α → List β) :
    (emitted f a b).flatMap g = emitted (fun n => (f n).flatMap g) a b :=
  List.flatMap_assoc

/-- One item at every step of a list of steps. -/
theorem map_stepsIn_eq_emitted {p : ℕ → Prop} [DecidablePred p] (g : ℕ → α) :
    (stepsIn p a b).map g = emitted (fun n => if p n then [g n] else []) a b := by
  rw [stepsIn, emitted]
  induction List.Ico a b with
  | nil => rfl
  | cons n l ih =>
    by_cases hp : p n
    · simp [hp, ih]
    · simp [hp, ih]

end Emitted

/-! ## Stages -/

/-- Between the steps `a` and `b`, a stage takes in `input`, gives out `output` and holds `held`:
at every step the new items come behind the held ones, and the first items leave. -/
def Stage (input held output : ℕ → List α) (a b : ℕ) : Prop :=
  ∀ n, a ≤ n → n < b → held n ++ input n = output n ++ held (n + 1)

namespace Stage

variable {input mid held held' output : ℕ → List α}

/-- **Conservation.** What was held and taken in has been given out or is held, in this order. -/
theorem conserves (h : Stage input held output a b) (hab : a ≤ b) :
    held a ++ emitted input a b = emitted output a b ++ held b := by
  induction b, hab using Nat.le_induction with
  | base => simp
  | succ b hab ih =>
    have ih := ih fun n ha hb => h n ha (by omega)
    rw [emitted_succ hab, emitted_succ hab, ← List.append_assoc, ih, List.append_assoc,
      h b hab b.lt_succ_self, List.append_assoc]

/-- A stage that starts empty gives out the first of the items that it takes in. -/
theorem prefix_of_empty (h : Stage input held output a b) (hab : a ≤ b) (ha : held a = []) :
    emitted output a b <+: emitted input a b := by
  have hc := h.conserves hab
  rw [ha, List.nil_append] at hc
  exact ⟨held b, hc.symm⟩

/-- A stage that starts and ends empty has passed on everything. -/
theorem emitted_eq_of_empty (h : Stage input held output a b) (hab : a ≤ b) (ha : held a = [])
    (hb : held b = []) : emitted output a b = emitted input a b := by
  have hc := h.conserves hab
  rw [ha, hb, List.nil_append, List.append_nil] at hc
  exact hc.symm

/-- Two stages in a row are a stage. -/
theorem comp (h : Stage input held mid a b) (h' : Stage mid held' output a b) :
    Stage input (fun n => held' n ++ held n) output a b := by
  intro n ha hb
  rw [List.append_assoc, h n ha hb, ← List.append_assoc, h' n ha hb, List.append_assoc]

/-- A stage of words is a stage of their bits. -/
theorem flatMap (h : Stage input held output a b) (g : α → List β) :
    Stage (fun n => (input n).flatMap g) (fun n => (held n).flatMap g)
      (fun n => (output n).flatMap g) a b := by
  intro n ha hb
  rw [← List.flatMap_append, h n ha hb, List.flatMap_append]

theorem of_le {a' b' : ℕ} (h : Stage input held output a b) (ha : a ≤ a') (hb : b' ≤ b) :
    Stage input held output a' b' :=
  fun n hn hn' => h n (ha.trans hn) (hn'.trans_le hb)

end Stage

/-! ## Shift registers -/

section ShiftRegister

variable {w : ℕ}

@[simp] theorem length_msbFirst (x : BitVec w) : (msbFirst x).length = w := by
  simp [msbFirst]

theorem getElem_msbFirst (x : BitVec w) {k : ℕ} (hk : k < (msbFirst x).length) :
    (msbFirst x)[k] = x.getMsbD k := by
  simp [msbFirst]

theorem length_flatMap_msbFirst (l : List (BitVec w)) :
    (l.flatMap msbFirst).length = l.length * w := by
  induction l with
  | nil => simp
  | cons x l ih =>
    rw [List.flatMap_cons, List.length_append, ih, length_msbFirst, List.length_cons]
    ring

theorem flatMap_msbFirst_drop (l : List (BitVec w)) (k : ℕ) :
    (l.drop k).flatMap msbFirst = (l.flatMap msbFirst).drop (k * w) := by
  induction l generalizing k with
  | nil => simp
  | cons x l ih =>
    cases k with
    | zero => simp
    | succ k =>
      rw [List.drop_succ_cons, ih, List.flatMap_cons, Nat.succ_mul, Nat.add_comm,
        ← List.drop_drop, List.drop_left' (length_msbFirst x)]

/-- One shift drops the first bit and appends the new one. -/
theorem msbFirst_shiftConcat (x : BitVec w) (level : Bool) :
    msbFirst (x.shiftConcat level) = (msbFirst x ++ [level]).drop 1 := by
  apply List.ext_getElem
  · simp
  · intro k hk hk'
    have hw : k < w := by simpa using hk
    rw [getElem_msbFirst, List.getElem_drop, BitVec.getMsbD_eq_getLsbD,
      BitVec.getLsbD_shiftConcat]
    -- the last bit is the new one
    by_cases hlast : k + 1 = w
    · rw [List.getElem_append_right (by simp; omega)]
      have h0 : w - 1 - k = 0 := by omega
      have hpos : 0 < w := by omega
      simp [hw, h0, hpos]
    · rw [List.getElem_append_left (by simp; omega), getElem_msbFirst, BitVec.getMsbD_eq_getLsbD]
      have hne : ¬ w - 1 - k = 0 := by omega
      have hlt : 1 + k < w := by omega
      have hsub : w - 1 - k - 1 = w - 1 - (1 + k) := by omega
      simp [hw, hne, hlt, hsub]
      omega

/-- The shift register that held `x`, after the bits were shifted in. -/
def shifted (x : BitVec w) (bits : List Bool) : BitVec w := bits.foldl BitVec.shiftConcat x

@[simp] theorem shifted_nil (x : BitVec w) : shifted x [] = x := rfl

theorem shifted_concat (x : BitVec w) (bits : List Bool) (level : Bool) :
    shifted x (bits ++ [level]) = (shifted x bits).shiftConcat level := by
  rw [shifted, List.foldl_append]
  rfl

/-- **A shift register is a window on its bits**: those of the word that it held first, followed by
those that were shifted in. -/
theorem msbFirst_shifted (x : BitVec w) (bits : List Bool) :
    msbFirst (shifted x bits) = (msbFirst x ++ bits).drop bits.length := by
  induction bits using List.reverseRecOn with
  | nil => simp
  | append_singleton bits level ih =>
    have hdrop : (msbFirst x ++ bits ++ [level]).drop bits.length =
        (msbFirst x ++ bits).drop bits.length ++ [level] :=
      List.drop_append_of_le_length (by simp)
    rw [shifted_concat, msbFirst_shiftConcat, ih, List.length_append, List.length_singleton,
      ← List.append_assoc, ← List.drop_drop, hdrop]

/-- After as many shifts as it is wide, it holds the bits that were shifted in. -/
theorem msbFirst_shifted_of_length (x : BitVec w) {bits : List Bool} (h : bits.length = w) :
    msbFirst (shifted x bits) = bits := by
  rw [msbFirst_shifted, List.drop_append_of_le_length (by simp [h]),
    List.drop_eq_nil_of_le (by simp [h]), List.nil_append]

/-- Until then its first bit is the next one of the word that it held. -/
theorem msb_shifted (x : BitVec w) {bits : List Bool} (h : bits.length < w) :
    (shifted x bits).msb = x.getMsbD bits.length := by
  have h0 : 0 < (msbFirst (shifted x bits)).length := by
    rw [length_msbFirst]
    omega
  have hmsb : (shifted x bits).msb = (msbFirst (shifted x bits))[0] := by
    rw [getElem_msbFirst, BitVec.msb]
  rw [hmsb]
  simp only [msbFirst_shifted]
  rw [List.getElem_drop, List.getElem_append_left (by simpa using h), getElem_msbFirst]
  rfl

end ShiftRegister

end Waveform
