import Mathlib.Data.List.Intervals
import Mathlib.Data.List.Sort
import Mathlib.Data.Nat.Count

/-!
# Waveforms

A waveform gives the level of a wire at every step of a run. Its edges are steps: step `n`
leads from level `n` to level `n + 1`. The steps of a stretch at which something happens form a
list, in order; counting, sampling and timing edges are all statements about such lists.

## Main definitions

* `Signal`: the levels of a wire along a run
* `Signal.RisesAt`, `Signal.FallsAt`, `Signal.ChangesAt`: the edges of a wire
* `Signal.LowSince`, `Signal.LowPulse`: the wire is low from a falling edge on, and until it rises
* `stepsIn p a b`: the steps of the stretch from `a` to `b` at which `p` holds
* `Signal.Stretches`: a wire is another one on a stretched time base
* `msbFirst`: the bits of a word on a wire

## Main results

* `Signal.LowSince.induction`: what holds after the falling edge and is kept while the wire is low
* `Signal.toNat_add_rises`: rising and falling edges balance up to the end levels
* `map_stepsIn`: edges on a fast time base are the edges on the slow time base it stretches
* `Signal.Stretches.map_rises`, `Signal.Stretches.map_falls`: the same for the edges of wires
-/

namespace Waveform

/-- The levels of a wire along a run. -/
abbrev Signal := ℕ → Bool

namespace Signal

/-- The wire goes from low to high at step `n`. -/
def RisesAt (s : Signal) (n : ℕ) : Prop := s n = false ∧ s (n + 1) = true

/-- The wire goes from high to low at step `n`. -/
def FallsAt (s : Signal) (n : ℕ) : Prop := s n = true ∧ s (n + 1) = false

/-- The wire does not keep its level at step `n`. -/
def ChangesAt (s : Signal) (n : ℕ) : Prop := s (n + 1) ≠ s n

instance (s : Signal) (n : ℕ) : Decidable (s.RisesAt n) := inferInstanceAs (Decidable (_ ∧ _))

instance (s : Signal) (n : ℕ) : Decidable (s.FallsAt n) := inferInstanceAs (Decidable (_ ∧ _))

instance (s : Signal) (n : ℕ) : Decidable (s.ChangesAt n) := inferInstanceAs (Decidable (¬ _))

theorem changesAt_iff {s : Signal} {n : ℕ} : s.ChangesAt n ↔ s.RisesAt n ∨ s.FallsAt n := by
  unfold ChangesAt RisesAt FallsAt
  cases s n <;> cases s (n + 1) <;> simp

theorem RisesAt.not_fallsAt {s : Signal} {n : ℕ} (h : s.RisesAt n) : ¬ s.FallsAt n := by
  rintro ⟨hh, -⟩
  simp [h.1] at hh

theorem not_risesAt_of_eq {s : Signal} {n : ℕ} (h : s (n + 1) = s n) : ¬ s.RisesAt n := by
  rintro ⟨hl, hh⟩
  simp [hl, hh] at h

theorem not_fallsAt_of_eq {s : Signal} {n : ℕ} (h : s (n + 1) = s n) : ¬ s.FallsAt n := by
  rintro ⟨hl, hh⟩
  simp [hl, hh] at h

/-! ### Low pulses -/

/-- The wire falls at step `i` and is low from then on up to `n`. -/
structure LowSince (s : Signal) (i n : ℕ) : Prop where
  falls : s.FallsAt i
  lt : i < n
  low : ∀ k, i < k → k ≤ n → s k = false

/-- A low pulse of the wire, from its falling edge at step `i` to its rising edge at step `j`. -/
structure LowPulse (s : Signal) (i j : ℕ) : Prop extends LowSince s i j where
  high : s (j + 1) = true

theorem LowSince.of_le {s : Signal} {i k n : ℕ} (h : s.LowSince i n) (hik : i < k) (hk : k ≤ n) :
    s.LowSince i k :=
  ⟨h.falls, hik, fun l hil hl => h.low l hil (hl.trans hk)⟩

theorem LowPulse.risesAt {s : Signal} {i j : ℕ} (h : s.LowPulse i j) : s.RisesAt j :=
  ⟨h.low j h.lt le_rfl, h.high⟩

/-- What holds right after the falling edge, and is kept while the wire stays low. -/
theorem LowSince.induction {s : Signal} {i n : ℕ} {P : ℕ → Prop} (h : s.LowSince i n)
    (first : P (i + 1))
    (next : ∀ k, s.LowSince i k → s (k + 1) = false → P k → P (k + 1)) : P n := by
  have hlt : i + 1 ≤ n := h.lt
  induction n, hlt using Nat.le_induction with
  | base => exact first
  | succ k hk ih =>
    have hk' : s.LowSince i k := h.of_le hk k.le_succ
    exact next k hk' (h.low (k + 1) (by omega) le_rfl) (ih hk')

end Signal

/-! ## The steps of a stretch -/

/-- The steps `n` with `a ≤ n < b` at which `p` holds, in order. -/
def stepsIn (p : ℕ → Prop) [DecidablePred p] (a b : ℕ) : List ℕ :=
  (List.Ico a b).filter p

section Steps

variable {p q : ℕ → Prop} [DecidablePred p] [DecidablePred q] {a b c n : ℕ}

@[simp] theorem mem_stepsIn : n ∈ stepsIn p a b ↔ (a ≤ n ∧ n < b) ∧ p n := by
  simp [stepsIn]

@[simp] theorem stepsIn_self : stepsIn p a a = [] := by
  simp [stepsIn]

theorem stepsIn_congr (h : ∀ n, a ≤ n → n < b → (p n ↔ q n)) : stepsIn p a b = stepsIn q a b := by
  apply List.filter_congr
  intro n hn
  obtain ⟨ha, hb⟩ := List.Ico.mem.mp hn
  simp [h n ha hb]

theorem stepsIn_succ (hab : a ≤ b) :
    stepsIn p a (b + 1) = stepsIn p a b ++ if p b then [b] else [] := by
  rw [stepsIn, List.Ico.succ_top hab, List.filter_append]
  by_cases hp : p b <;> simp [stepsIn, hp]

theorem stepsIn_succ_of_not (hab : a ≤ b) (hp : ¬ p b) :
    stepsIn p a (b + 1) = stepsIn p a b := by
  simp [stepsIn_succ hab, hp]

theorem stepsIn_of_not_first (hab : a < b) (hp : ¬ p a) : stepsIn p a b = stepsIn p (a + 1) b := by
  rw [stepsIn, List.Ico.eq_cons hab, List.filter_cons_of_neg (by simpa using hp), stepsIn]

theorem stepsIn_append (hab : a ≤ b) (hbc : b ≤ c) :
    stepsIn p a b ++ stepsIn p b c = stepsIn p a c := by
  rw [stepsIn, stepsIn, stepsIn, ← List.filter_append, List.Ico.append_consecutive hab hbc]

theorem prefix_stepsIn (hab : a ≤ b) (hbc : b ≤ c) : stepsIn p a b <+: stepsIn p a c := by
  rw [← stepsIn_append hab hbc]
  exact List.prefix_append _ _

/-- The number of steps at which `p` holds is a difference of counts from the start. -/
theorem length_stepsIn (hab : a ≤ b) :
    (stepsIn p a b).length + Nat.count p a = Nat.count p b := by
  induction b, hab using Nat.le_induction with
  | base => simp
  | succ b hab ih =>
    rw [stepsIn_succ hab, Nat.count_succ, List.length_append]
    by_cases hp : p b <;> simp [hp] <;> omega

theorem length_stepsIn_zero : (stepsIn p 0 b).length = Nat.count p b := by
  have hlen := length_stepsIn (p := p) b.zero_le
  rwa [Nat.count_zero, Nat.add_zero] at hlen

/-- The steps at which `p` holds are counted one by one. -/
theorem exists_step_of_count (hab : a ≤ b) {x : ℕ} (hx : Nat.count p a ≤ x)
    (hx' : x < Nat.count p b) : ∃ n, a ≤ n ∧ n < b ∧ p n ∧ Nat.count p n = x := by
  induction b, hab using Nat.le_induction with
  | base => exact absurd hx' (by omega)
  | succ b hab ih =>
    by_cases hb : x < Nat.count p b
    · obtain ⟨n, han, hnb, hn⟩ := ih hb
      exact ⟨n, han, by omega, hn⟩
    -- the count passes `x` at the last step, if at all
    · rw [Nat.count_succ] at hx'
      by_cases hp : p b
      · rw [if_pos hp] at hx'
        exact ⟨b, hab, b.lt_succ_self, hp, by omega⟩
      · rw [if_neg hp] at hx'
        exact absurd hx' hb

/-- The steps of a stretch, given by a formula. -/
theorem stepsIn_eq_map_range {f : ℕ → ℕ} {k : ℕ} (hf : StrictMono f)
    (hrange : ∀ j < k, a ≤ f j ∧ f j < b) (h : ∀ n, a ≤ n → n < b → (p n ↔ ∃ j < k, f j = n)) :
    stepsIn p a b = (List.range k).map f := by
  have hleft : (stepsIn p a b).Pairwise (· < ·) := (List.Ico.pairwise_lt a b).filter _
  have hright : ((List.range k).map f).Pairwise (· < ·) :=
    List.pairwise_map.mpr (List.pairwise_lt_range.imp fun hlt => hf hlt)
  refine hleft.eq_of_mem_iff hright fun n => ?_
  rw [mem_stepsIn, List.mem_map]
  constructor
  · rintro ⟨⟨ha, hb⟩, hp⟩
    obtain ⟨j, hj, rfl⟩ := (h n ha hb).mp hp
    exact ⟨j, List.mem_range.mpr hj, rfl⟩
  · rintro ⟨j, hj, rfl⟩
    have hj := List.mem_range.mp hj
    obtain ⟨ha, hb⟩ := hrange j hj
    exact ⟨⟨ha, hb⟩, (h _ ha hb).mpr ⟨j, hj, rfl⟩⟩

theorem stepsIn_eq_nil : stepsIn p a b = [] ↔ ∀ n, a ≤ n → n < b → ¬ p n := by
  simp [List.eq_nil_iff_forall_not_mem]

/-- **A stretched time base keeps the edges.** When `pos` advances by one at some steps and rests
at the others, and `p` happens exactly at the advancing steps at whose position `q` happens, the
positions of the `p`-steps are the `q`-steps. -/
theorem map_stepsIn {pos : ℕ → ℕ} (hab : a ≤ b)
    (h : ∀ n, a ≤ n → n < b →
      (pos (n + 1) = pos n ∧ ¬ p n) ∨ (pos (n + 1) = pos n + 1 ∧ (p n ↔ q (pos n)))) :
    (stepsIn p a b).map pos = stepsIn q (pos a) (pos b) := by
  suffices hs : pos a ≤ pos b ∧ (stepsIn p a b).map pos = stepsIn q (pos a) (pos b) from hs.2
  induction b, hab using Nat.le_induction with
  | base => simp
  | succ b hab ih =>
    obtain ⟨hle, ih⟩ := ih fun n ha hb => h n ha (by omega)
    rcases h b hab (by omega) with ⟨hpos, hp⟩ | ⟨hpos, hpq⟩
    -- the position rests: neither list grows
    · rw [stepsIn_succ_of_not hab hp, hpos]
      exact ⟨hle, ih⟩
    -- the position advances: both lists grow, or none
    · rw [stepsIn_succ hab, hpos, stepsIn_succ hle, List.map_append, ih]
      by_cases hp : p b
      · simp [hp, hpq.mp hp]; omega
      · simp [hp, mt hpq.mpr hp]; omega

end Steps

/-- The bits of a word in the order of a wire that carries the most significant bit first. -/
def msbFirst {w : ℕ} (x : BitVec w) : List Bool := (List.range w).map x.getMsbD

namespace Signal

variable {a b : ℕ}

/-- From `a` to `b`, the wire `s` is the wire `s'` on a stretched time base: at each step the
position rests and so does `s`, or it advances and `s` makes the step that `s'` makes there. -/
def Stretches (s s' : Signal) (pos : ℕ → ℕ) (a b : ℕ) : Prop :=
  ∀ n, a ≤ n → n < b →
    (pos (n + 1) = pos n ∧ s (n + 1) = s n) ∨
      (pos (n + 1) = pos n + 1 ∧ s n = s' (pos n) ∧ s (n + 1) = s' (pos n + 1))

theorem Stretches.map_rises {s s' : Signal} {pos : ℕ → ℕ} (h : s.Stretches s' pos a b)
    (hab : a ≤ b) :
    (stepsIn s.RisesAt a b).map pos = stepsIn s'.RisesAt (pos a) (pos b) := by
  apply map_stepsIn hab
  intro n ha hb
  rcases h n ha hb with ⟨hpos, hs⟩ | ⟨hpos, hs, hs'⟩
  · exact Or.inl ⟨hpos, not_risesAt_of_eq hs⟩
  · refine Or.inr ⟨hpos, ?_⟩
    rw [RisesAt, RisesAt, hs, hs']

theorem Stretches.map_falls {s s' : Signal} {pos : ℕ → ℕ} (h : s.Stretches s' pos a b)
    (hab : a ≤ b) :
    (stepsIn s.FallsAt a b).map pos = stepsIn s'.FallsAt (pos a) (pos b) := by
  apply map_stepsIn hab
  intro n ha hb
  rcases h n ha hb with ⟨hpos, hs⟩ | ⟨hpos, hs, hs'⟩
  · exact Or.inl ⟨hpos, not_fallsAt_of_eq hs⟩
  · refine Or.inr ⟨hpos, ?_⟩
    rw [FallsAt, FallsAt, hs, hs']

/-- Rising and falling edges balance up to the levels at the ends of the stretch. -/
theorem toNat_add_rises (s : Signal) (hab : a ≤ b) :
    (s a).toNat + (stepsIn s.RisesAt a b).length =
      (s b).toNat + (stepsIn s.FallsAt a b).length := by
  induction b, hab using Nat.le_induction with
  | base => simp
  | succ b hab ih =>
    rw [stepsIn_succ hab, stepsIn_succ hab]
    -- the step rises, falls, or keeps the level
    by_cases hr : s.RisesAt b
    · simp [hr, hr.not_fallsAt, hr.1, hr.2] at ih ⊢
      omega
    by_cases hf : s.FallsAt b
    · simp [hr, hf, hf.1, hf.2] at ih ⊢
      omega
    have he : s (b + 1) = s b := by
      by_contra hne
      exact (changesAt_iff.mp hne).elim hr hf
    simp only [hr, hf, if_false, List.append_nil, he]
    exact ih

end Signal

end Waveform
