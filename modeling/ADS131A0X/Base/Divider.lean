import Mathlib.Data.Nat.Count
import Mathlib.Data.Nat.ModEq
import Mathlib.Tactic.Ring

/-!
# Toggling dividers

A divider of period `m` counts ticks from `0` to `m - 1`, and toggles its output level each time
the count wraps. Its count and level after `t` ticks are `t % m` and the parity of `t / m`. This
module gives the two functions and the edges of the level, for every period.

## Main definitions

* `dividerLevel m t`: the output level of a divider of period `m` after `t` ticks
* `reloadCount load c t`: a counter that counts down and starts again

## Main results

* `div_mod_succ_of_wrap`, `div_mod_succ_of_lt`: one tick of the count and the quotient
* `dividerLevel_changes_iff`, `eq_add_of_next_multiple`: the level toggles every `m` ticks
* `dividerLevel_rises_iff`: the level rises every `2 * m` ticks, first at tick `m`
* `count_dividerLevel_rises`: the number of rising edges in the first `t` ticks
* `reloadCount_succ`, `reloadCount_eq_zero_iff`: a tick of the counter, and the ticks at which it is 0
-/

namespace Divider

variable {m t : ℕ}

theorem div_mod_succ_of_wrap (h : t % m + 1 = m) :
    (t + 1) / m = t / m + 1 ∧ (t + 1) % m = 0 := by
  have hm : 0 < m := by omega
  have ht : t + 1 = m * (t / m + 1) := by
    have := Nat.div_add_mod t m
    rw [Nat.mul_succ]
    omega
  rw [ht]
  exact ⟨Nat.mul_div_cancel_left _ hm, Nat.mul_mod_right _ _⟩

theorem div_mod_succ_of_lt (h : t % m + 1 < m) :
    (t + 1) / m = t / m ∧ (t + 1) % m = t % m + 1 := by
  have ht : t + 1 = (t % m + 1) + m * (t / m) := by
    have := Nat.div_add_mod t m
    omega
  constructor
  · rw [ht, Nat.add_mul_div_left _ _ (by omega), Nat.div_eq_of_lt h, Nat.zero_add]
  · rw [ht, Nat.add_mul_mod_self_left, Nat.mod_eq_of_lt h]

theorem decide_odd_succ (x : ℕ) : decide ((x + 1) % 2 = 1) = !decide (x % 2 = 1) := by
  rcases Nat.mod_two_eq_zero_or_one x with h | h <;> simp [Nat.add_mod, h]

theorem toNat_decide_odd (x : ℕ) : (decide (x % 2 = 1)).toNat = x % 2 := by
  rcases Nat.mod_two_eq_zero_or_one x with h | h <;> simp [h]

/-- The output level of a divider of period `m` after `t` ticks. -/
def dividerLevel (m t : ℕ) : Bool := decide (t / m % 2 = 1)

theorem dividerLevel_succ_of_wrap (h : t % m + 1 = m) :
    dividerLevel m (t + 1) = !dividerLevel m t := by
  rw [dividerLevel, (div_mod_succ_of_wrap h).1, decide_odd_succ, dividerLevel]

theorem dividerLevel_succ_of_lt (h : t % m + 1 < m) :
    dividerLevel m (t + 1) = dividerLevel m t := by
  simp only [dividerLevel, (div_mod_succ_of_lt h).1]

/-- The level toggles at every multiple of the period. -/
theorem dividerLevel_changes_iff (hm : 0 < m) :
    dividerLevel m (t + 1) ≠ dividerLevel m t ↔ (t + 1) % m = 0 := by
  have hlt := Nat.mod_lt t hm
  by_cases hw : t % m + 1 = m
  · simp [dividerLevel_succ_of_wrap hw, (div_mod_succ_of_wrap hw).2]
  · have hlt' : t % m + 1 < m := by omega
    simp [dividerLevel_succ_of_lt hlt', (div_mod_succ_of_lt hlt').2]

/-- The next multiple of the period after a multiple comes one period later. -/
theorem eq_add_of_next_multiple {i j : ℕ} (hi : i % m = 0) (hj : j % m = 0) (hij : i < j)
    (hnone : ∀ k, i < k → k < j → k % m ≠ 0) : j = i + m := by
  rcases lt_trichotomy j (i + m) with hlt | heq | hgt
  -- the distance would be a multiple of the period below the period
  · have hsub : (j - i) % m = 0 := Nat.sub_mod_eq_zero_of_mod_eq (hj.trans hi.symm)
    rw [Nat.mod_eq_of_lt (by omega)] at hsub
    omega
  · exact heq
  -- the multiple one period later would come in between
  · rcases Nat.eq_zero_or_pos m with rfl | hm
    · simp only [Nat.mod_zero] at hi hj
      omega
    · exact absurd (by rw [Nat.add_mod_right, hi]) (hnone (i + m) (by omega) hgt)

/-- The level rises at every odd multiple of the period. -/
theorem dividerLevel_rises_iff (hm : 0 < m) :
    dividerLevel m t = false ∧ dividerLevel m (t + 1) = true ↔ (t + 1) % (m * 2) = m := by
  have hlt := Nat.mod_lt t hm
  rw [Nat.mod_mul]
  by_cases hw : t % m + 1 = m
  -- the count wraps: the level toggles, and the parity of the quotient tells which way
  · rw [dividerLevel_succ_of_wrap hw, (div_mod_succ_of_wrap hw).1, (div_mod_succ_of_wrap hw).2]
    rcases Nat.mod_two_eq_zero_or_one (t / m) with h | h <;>
      simp [dividerLevel, Nat.add_mod, h, hm.ne]
  -- the count does not wrap: the level rests
  · have hlt' : t % m + 1 < m := by omega
    have hne : ¬ (t % m + 1 + m * ((t + 1) / m % 2) = m) := by
      rcases Nat.mod_two_eq_zero_or_one ((t + 1) / m) with h | h <;> rw [h] <;> omega
    rw [dividerLevel_succ_of_lt hlt', (div_mod_succ_of_lt hlt').2]
    cases dividerLevel m t <;> simp [hne]

theorem add_mod_two_mul_eq_zero_iff (hm : 0 < m) (x : ℕ) :
    (x + m) % (m * 2) = 0 ↔ x % (m * 2) = m := by
  have hlt := Nat.mod_lt x (show 0 < m * 2 by omega)
  rw [Nat.add_mod, Nat.mod_eq_of_lt (show m < m * 2 by omega)]
  by_cases h : x % (m * 2) < m
  · rw [Nat.mod_eq_of_lt (show x % (m * 2) + m < m * 2 by omega)]
    omega
  · rw [Nat.mod_eq_sub_mod (show m * 2 ≤ x % (m * 2) + m by omega), Nat.mod_eq_of_lt (by omega)]
    omega

/-- The number of rising edges of the level within the first `t` ticks. -/
theorem count_dividerLevel_rises (hm : 0 < m) (t : ℕ) :
    Nat.count (fun k => (k + 1) % (m * 2) = m) t = (t + m) / (m * 2) := by
  induction t with
  | zero => simp [Nat.div_eq_of_lt (show m < m * 2 by omega)]
  | succ t ih =>
    have hlt := Nat.mod_lt (t + m) (show 0 < m * 2 by omega)
    have hrise := add_mod_two_mul_eq_zero_iff hm (t + 1)
    rw [show t + 1 + m = t + m + 1 by omega] at hrise ⊢
    rw [Nat.count_succ, ih]
    -- the quotient grows exactly when the next tick is a rising edge
    by_cases hw : (t + m) % (m * 2) + 1 = m * 2
    · obtain ⟨hd, hr⟩ := div_mod_succ_of_wrap hw
      rw [hd, if_pos (hrise.mp hr)]
    · obtain ⟨hd, hr⟩ := div_mod_succ_of_lt (show (t + m) % (m * 2) + 1 < m * 2 by omega)
      rw [hd, if_neg (fun h => by have := hrise.mpr h; omega), Nat.add_zero]

/-! ## Counters that start again -/

/-- A counter that counts down to 0 and starts again at `load`, `t` ticks after it held `c`. -/
def reloadCount (load c t : ℕ) : ℕ := if t ≤ c then c - t else load - (t - c - 1) % (load + 1)

section Reload

variable {load c : ℕ}

theorem reloadCount_of_le (h : t ≤ c) : reloadCount load c t = c - t := if_pos h

theorem reloadCount_of_lt (h : c < t) :
    reloadCount load c t = load - (t - c - 1) % (load + 1) := if_neg (by omega)

theorem reloadCount_succ : reloadCount load c (t + 1) =
    if reloadCount load c t = 0 then load else reloadCount load c t - 1 := by
  rcases lt_trichotomy t c with h | rfl | h
  · rw [reloadCount_of_le h, reloadCount_of_le h.le, if_neg (by omega)]
    omega
  · rw [reloadCount_of_lt (by omega), reloadCount_of_le le_rfl, if_pos (by omega),
      show t + 1 - t - 1 = 0 by omega, Nat.zero_mod]
    rfl
  · have hlt := Nat.mod_lt (t - c - 1) (show 0 < load + 1 by omega)
    rw [reloadCount_of_lt (by omega), reloadCount_of_lt h,
      show t + 1 - c - 1 = (t - c - 1) + 1 by omega]
    by_cases hwrap : (t - c - 1) % (load + 1) + 1 = load + 1
    · rw [(div_mod_succ_of_wrap hwrap).2, if_pos (by omega)]
      rfl
    · rw [(div_mod_succ_of_lt (by omega)).2, if_neg (by omega)]
      omega

/-- It is 0 every `load + 1` ticks. -/
theorem reloadCount_eq_zero_iff :
    reloadCount load c t = 0 ↔ ∃ j, t = c + j * (load + 1) := by
  have hdiv := Nat.div_add_mod (t - c - 1) (load + 1)
  have hlt := Nat.mod_lt (t - c - 1) (show 0 < load + 1 by omega)
  constructor
  · intro h
    rcases le_or_gt t c with hle | hgt
    · rw [reloadCount_of_le hle] at h
      exact ⟨0, by omega⟩
    · rw [reloadCount_of_lt hgt] at h
      refine ⟨(t - c - 1) / (load + 1) + 1, ?_⟩
      rw [Nat.succ_mul, Nat.mul_comm]
      omega
  · rintro ⟨j, rfl⟩
    cases j with
    | zero => rw [Nat.zero_mul, Nat.add_zero, reloadCount_of_le le_rfl, Nat.sub_self]
    | succ j =>
      have hsub : c + (j + 1) * (load + 1) - c - 1 = load + (load + 1) * j := by
        rw [Nat.succ_mul, Nat.mul_comm j]
        omega
      rw [reloadCount_of_lt (by rw [Nat.succ_mul]; omega), hsub, Nat.add_mul_mod_self_left,
        Nat.mod_eq_of_lt (by omega), Nat.sub_self]

end Reload

end Divider
