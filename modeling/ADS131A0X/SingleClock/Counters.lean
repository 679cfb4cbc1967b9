import ADS131A0X.SingleClock.Lockstep

/-!
# Counters that no reset clears

Two counters of the state machine are written in one state only: `adc_reset_count` in `WAIT_RESET`
and `delay_counter_transition_logic` in `TRANSACTION_END`. A clear of the state leaves them alone,
so each holds the number of slow edges spent in its state since power-up, modulo its period.

## Main definitions

* `Run.edgesIn`: the number of slow edges in a state along a stretch of the run

## Main results

* `Run.counter_eq_edgesIn`: what such a counter holds
* `Run.adcResetCount_eq_edgesIn`, `Run.delayCounter_eq_edgesIn`: the two counters
-/

namespace ADS131A0X

open Waveform SingleClock

namespace Run

variable {ρ : Run} {state : BitVec 5} {a b c : ℕ}

/-- The number of slow edges in a state at the steps from `a` to `b`. -/
def edgesIn (ρ : Run) (state : BitVec 5) (a b : ℕ) : ℕ :=
  (stepsIn (fun k => ρ.SlowEdgeAt k ∧ ρ.state k = state) a b).length

theorem edgesIn_append (ρ : Run) (state : BitVec 5) (hab : a ≤ b) (hbc : b ≤ c) :
    ρ.edgesIn state a b + ρ.edgesIn state b c = ρ.edgesIn state a c := by
  rw [edgesIn, edgesIn, edgesIn, ← List.length_append, stepsIn_append hab hbc]

theorem edgesIn_of_slowEdgeAt (hab : a ≤ b) (hs : ρ.SlowEdgeAt b) (hb : ρ.state b = state) :
    ρ.edgesIn state a (b + 1) = ρ.edgesIn state a b + 1 := by
  rw [edgesIn, stepsIn_succ hab, if_pos ⟨hs, hb⟩, List.length_append]
  rfl

theorem edgesIn_of_not (hab : a ≤ b) (h : ¬ (ρ.SlowEdgeAt b ∧ ρ.state b = state)) :
    ρ.edgesIn state a (b + 1) = ρ.edgesIn state a b := by
  rw [edgesIn, stepsIn_succ_of_not hab h, edgesIn]

/-- The slow edges in a state are among all slow edges. -/
theorem edgesIn_add_slowEdges_le (ρ : Run) (state : BitVec 5) (hab : a ≤ b) :
    ρ.edgesIn state a b + ρ.slowEdges a ≤ ρ.slowEdges b := by
  have hlen : (stepsIn ρ.SlowEdgeAt a b).length + ρ.slowEdges a = ρ.slowEdges b :=
    length_stepsIn hab
  have hle : ρ.edgesIn state a b ≤ (stepsIn ρ.SlowEdgeAt a b).length := by
    apply List.Sublist.length_le
    apply List.monotone_filter_right
    intro k hk
    simp only [decide_eq_true_eq] at hk ⊢
    exact hk.1
  omega

/-- **A counter that is incremented modulo `m` in one state** and kept in every other one holds the
number of slow edges in its state since power-up, modulo `m`. -/
theorem counter_eq_edgesIn {p : Phase} {counter : SingleClock → ℕ} {m : ℕ}
    (init : counter {} = 0)
    (edge : ∀ s r, s.Valid → counter (s.slowEdge r) =
      if s.phase = p then (counter s + 1) % m else counter s)
    (phase : ∀ s q, counter { s with phase := q } = counter s) (ρ : Run) (n : ℕ) :
    counter (ρ.regs n) = ρ.edgesIn p.encode 0 n % m := by
  induction n with
  | zero => exact init.trans (Nat.zero_mod m).symm
  | succ n ih =>
    have hstate := ρ.state_eq_encode_iff n (p := p)
    by_cases hs : ρ.SlowEdgeAt n
    -- the counter and the count grow together, in the one state only
    · rw [regs_of_slowEdgeAt hs, edge _ _ (ρ.regs_valid n), ih]
      by_cases hp : (ρ.regs n).phase = p
      · rw [if_pos hp, edgesIn_of_slowEdgeAt n.zero_le hs (hstate.mpr hp), Nat.mod_add_mod]
      · rw [if_neg hp, edgesIn_of_not n.zero_le fun h => hp (hstate.mp h.2)]
    · rw [regs_of_not_slowEdgeAt hs, phase, edgesIn_of_not n.zero_le fun h => hs h.1]
      exact ih

theorem adcResetCount_eq_edgesIn (ρ : Run) (n : ℕ) :
    (ρ.regs n).adcResetCount = ρ.edgesIn SpiMaster.waitReset 0 n % 256 :=
  counter_eq_edgesIn (p := .waitReset) rfl (fun s r _ => slowEdge_adcResetCount r s)
    (fun _ _ => rfl) ρ n

theorem delayCounter_eq_edgesIn (ρ : Run) (n : ℕ) :
    (ρ.regs n).delayCounter = ρ.edgesIn SpiMaster.transactionEnd 0 n % 250001 := by
  refine counter_eq_edgesIn (p := .transactionEnd) rfl ?_ (fun _ _ => rfl) ρ n
  intro s r hv
  have hle := hv.delayCounter_le
  rw [slowEdge_delayCounter]
  refine if_congr Iff.rfl ?_ rfl
  -- the test for 250000 is the reduction modulo 250001
  split_ifs with h
  · rw [h]
  · rw [Nat.mod_eq_of_lt (by omega)]

end Run

end ADS131A0X
