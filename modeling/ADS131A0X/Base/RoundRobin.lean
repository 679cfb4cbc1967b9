import Mathlib.Data.Nat.Find
import Mathlib.Data.BitVec

/-!
# Round robin on bit vectors

The requests of `n` parties are bits of a vector, and one party has the highest priority. The one to
serve is the first that requests, from that party on and around the end. A machine finds it with one
addition: in `x &&& (~~~x + 2 ^ p)` the carry that starts at bit `p` runs through the zeros of `x` and
stops at the first bit that is set.

## Main definitions

* `RoundRobin.dist`: how many parties come before a party, counted from the one with the priority
* `RoundRobin.IsFirst`: the party to serve

## Main results

* `RoundRobin.getLsbD_and_not_add_twoPow`: the addition finds the first set bit from a place on
* `RoundRobin.isFirst_iff`: on the doubled vector it finds the party to serve
* `RoundRobin.IsFirst.dist_succ`: with the priority after the party that was served, the others wait less
-/

namespace RoundRobin

variable {w n p i j g : ℕ}

/-! ## The first set bit from a place on -/

theorem atLeastTwo_eq_true_iff (a b c : Bool) :
    a.atLeastTwo b c = true ↔
      (a = true ∧ b = true) ∨ (a = true ∧ c = true) ∨ (b = true ∧ c = true) := by
  cases a <;> cases b <;> cases c <;> simp

/-- The carry runs from bit `p` through the zeros of `x`. -/
theorem carry_not_add_twoPow (x : BitVec w) (hp : p < w) (hi : i ≤ w) :
    BitVec.carry i (~~~x) (BitVec.twoPow w p) false = true ↔
      p < i ∧ ∀ j, p ≤ j → j < i → x.getLsbD j = false := by
  induction i with
  | zero => simp
  | succ i ih =>
    rw [BitVec.carry_succ, atLeastTwo_eq_true_iff, BitVec.getLsbD_not, BitVec.getLsbD_twoPow,
      ih (by omega), decide_eq_true (show i < w by omega), Bool.true_and]
    constructor
    · rintro (⟨hx, hpi⟩ | ⟨hx, h⟩ | ⟨hpi, h⟩)
      · obtain ⟨-, rfl⟩ : p < w ∧ p = i := by simpa using hpi
        refine ⟨by omega, fun j h1 h2 => ?_⟩
        obtain rfl : j = p := by omega
        simpa using hx
      · refine ⟨by omega, fun j h1 h2 => ?_⟩
        rcases Nat.lt_succ_iff_lt_or_eq.mp h2 with h2 | rfl
        · exact h.2 j h1 h2
        · simpa using hx
      · obtain ⟨-, rfl⟩ : p < w ∧ p = i := by simpa using hpi
        omega
    · rintro ⟨hlt, h⟩
      have hx : x.getLsbD i = false := h i (by omega) (by omega)
      rcases Nat.lt_succ_iff_lt_or_eq.mp hlt with hlt | rfl
      · exact Or.inr (Or.inl ⟨by simp [hx], hlt, fun j h1 h2 => h j h1 (by omega)⟩)
      · exact Or.inl ⟨by simp [hx], by simp [hp]⟩

/-- **The addition finds the first set bit** from bit `p` on. -/
theorem getLsbD_and_not_add_twoPow (x : BitVec w) (hp : p < w) :
    (x &&& (~~~x + BitVec.twoPow w p)).getLsbD i = true ↔
      i < w ∧ p ≤ i ∧ x.getLsbD i = true ∧ ∀ j, p ≤ j → j < i → x.getLsbD j = false := by
  by_cases hi : i < w
  · have hcarry := carry_not_add_twoPow x hp hi.le
    rw [BitVec.getLsbD_and, BitVec.getLsbD_add hi, BitVec.getLsbD_not, BitVec.getLsbD_twoPow,
      decide_eq_true hi, decide_eq_true hp]
    cases hx : x.getLsbD i
    · simp
    · rcases lt_trichotomy p i with hlt | rfl | hlt
      · simp [hcarry, hi, hlt, hlt.le, hlt.ne]
      · have hnone : BitVec.carry p (~~~x) (BitVec.twoPow w p) false = false := by
          rw [← Bool.not_eq_true, hcarry]
          omega
        simp only [hnone, Bool.true_and, Bool.not_true, decide_true, Bool.bne_false, Bool.false_bne,
          hi, le_refl, true_and, true_iff]
        intro j h1 h2
        omega
      · have hnone : BitVec.carry i (~~~x) (BitVec.twoPow w p) false = false := by
          rw [← Bool.not_eq_true, hcarry]
          omega
        simp [hnone, hlt.ne', hlt.not_ge]
  · rw [BitVec.getLsbD_of_ge _ _ (by omega)]
    simp [hi]

/-! ## The party to serve -/

/-- How many parties come before party `i`, counted from party `p` on. -/
def dist (n p i : ℕ) : ℕ := if p ≤ i then i - p else i + n - p

theorem dist_lt (hp : p < n) (hi : i < n) : dist n p i < n := by
  unfold dist
  split <;> omega

theorem dist_injective (hp : p < n) (hi : i < n) (hj : j < n) (h : dist n p i = dist n p j) :
    i = j := by
  unfold dist at h
  split at h <;> split at h <;> omega

/-- Party `i` is the first that requests, from party `p` on. -/
structure IsFirst (n : ℕ) (request : ℕ → Prop) (p i : ℕ) : Prop where
  lt : i < n
  requests : request i
  le : ∀ j < n, request j → dist n p i ≤ dist n p j

variable {request : ℕ → Prop}

theorem exists_isFirst (h : ∃ i < n, request i) : ∃ i, IsFirst n request p i := by
  have hex : ∃ d, ∃ i < n, request i ∧ dist n p i = d := by
    obtain ⟨i, hi, hr⟩ := h
    exact ⟨_, i, hi, hr, rfl⟩
  classical
  obtain ⟨i, hi, hr, hd⟩ := Nat.find_spec hex
  exact ⟨i, hi, hr, fun j hj hrj => hd ▸ Nat.find_min' hex ⟨j, hj, hrj, rfl⟩⟩

theorem IsFirst.unique (hp : p < n) (hi : IsFirst n request p i) (hj : IsFirst n request p j) :
    i = j :=
  dist_injective hp hi.lt hj.lt (le_antisymm (hi.le j hj.lt hj.requests) (hj.le i hi.lt hi.requests))

/-- With the priority at the party that was served, the others wait no longer. -/
theorem IsFirst.dist_self (hp : p < n) (hg : IsFirst n request p g) (hi : i < n) (hr : request i) :
    dist n g i ≤ dist n p i := by
  have hle := hg.le i hi hr
  have hlt := hg.lt
  unfold dist at *
  split at hle <;> split at hle <;> split <;> omega

/-- **With the priority after the party that was served, the others wait less.** -/
theorem IsFirst.dist_succ (hp : p < n) (hg : IsFirst n request p g) (hi : i < n) (hr : request i)
    (hne : i ≠ g) : dist n ((g + 1) % n) i < dist n p i := by
  have hle := hg.le i hi hr
  have hlt := hg.lt
  have hmod : (g + 1) % n = if g + 1 < n then g + 1 else 0 := by
    split
    · next h => exact Nat.mod_eq_of_lt h
    · rw [show g + 1 = n by omega, Nat.mod_self]
  rw [hmod]
  unfold dist at *
  split at hle <;> split at hle <;> split <;> split <;> omega

/-! ## The doubled vector -/

theorem getLsbD_append_self (r : BitVec n) (hi : i < n) :
    (r ++ r).getLsbD i = r.getLsbD i ∧ (r ++ r).getLsbD (i + n) = r.getLsbD i := by
  rw [BitVec.getLsbD_append, BitVec.getLsbD_append, if_pos hi, if_neg (by omega),
    Nat.add_sub_cancel]
  exact ⟨rfl, rfl⟩

/-- **On the doubled vector the addition finds the party to serve**, in the lower half if it does not
come before the one with the priority, and in the upper half otherwise. -/
theorem isFirst_iff (r : BitVec n) (hp : p < n) (hi : i < n) :
    (((r ++ r) &&& (~~~(r ++ r) + BitVec.twoPow (n + n) p)).getLsbD i = true ∨
      ((r ++ r) &&& (~~~(r ++ r) + BitVec.twoPow (n + n) p)).getLsbD (i + n) = true) ↔
      IsFirst n (fun j => r.getLsbD j = true) p i := by
  rw [getLsbD_and_not_add_twoPow _ (by omega), getLsbD_and_not_add_twoPow _ (by omega),
    (getLsbD_append_self r hi).1, (getLsbD_append_self r hi).2]
  constructor
  · rintro (⟨-, hpi, hr, hnone⟩ | ⟨-, -, hr, hnone⟩)
    · refine ⟨hi, hr, fun j hj hrj => ?_⟩
      by_contra hlt
      unfold dist at hlt
      rw [if_pos hpi] at hlt
      split at hlt
      · have hj' := hnone j ‹_› (by omega)
        rw [(getLsbD_append_self r hj).1, hrj] at hj'
        cases hj'
      · omega
    · have hip : i < p := by
        by_contra hpi
        have hi' := hnone i (by omega) (by omega)
        rw [(getLsbD_append_self r hi).1, hr] at hi'
        cases hi'
      refine ⟨hi, hr, fun j hj hrj => ?_⟩
      by_contra hlt
      unfold dist at hlt
      rw [if_neg (by omega)] at hlt
      split at hlt
      · have hj' := hnone j ‹_› (by omega)
        rw [(getLsbD_append_self r hj).1, hrj] at hj'
        cases hj'
      · have hj' := hnone (j + n) (by omega) (by omega)
        rw [(getLsbD_append_self r hj).2, hrj] at hj'
        cases hj'
  · intro h
    -- a bit before the one found would be a request of a party that comes first
    have hnone : ∀ j < n, dist n p j < dist n p i → r.getLsbD j = false := by
      intro j hj hlt
      by_contra hrj
      have hle := h.le j hj (by simpa using hrj)
      omega
    by_cases hpi : p ≤ i
    · refine Or.inl ⟨by omega, hpi, h.requests, fun j h1 h2 => ?_⟩
      rw [(getLsbD_append_self r (by omega : j < n)).1]
      exact hnone j (by omega) (by unfold dist; rw [if_pos hpi, if_pos h1]; omega)
    · refine Or.inr ⟨by omega, by omega, h.requests, fun j h1 h2 => ?_⟩
      by_cases hj : j < n
      · rw [(getLsbD_append_self r hj).1]
        exact hnone j hj (by unfold dist; rw [if_neg hpi, if_pos h1]; omega)
      · obtain ⟨k, rfl⟩ : ∃ k, j = k + n := ⟨j - n, by omega⟩
        rw [(getLsbD_append_self r (by omega : k < n)).2]
        exact hnone k (by omega) (by unfold dist; rw [if_neg hpi, if_neg (by omega)]; omega)

end RoundRobin
