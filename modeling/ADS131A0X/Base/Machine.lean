import Mathlib.Data.Nat.Nth
import Mathlib.Logic.Function.Iterate
import Mathlib.Order.Monotone.Basic

/-!
# Machines driven by a stream of inputs

A machine is an initial state and a step on inputs; a stream of inputs drives it through a run.
An invariant is proved on one step and holds along every run, and so is a simulation between two
machines with the same inputs. A ranking proves that repeating a step reaches a goal.

## Main definitions

* `Machine`, `Machine.run`: a machine and its run on a stream of inputs
* `Machine.Simulation`: a relation between two machines that every input preserves
* `Ranking`, `Ranking.stepsUntil`: a rank that drops until the goal, and the number of steps taken
* `ActiveRanking`: a rank along a run that may rest, but drops at the active steps

## Main results

* `Machine.run_invariant`, `Machine.Simulation.run`: from one step to whole runs
* `Machine.run_sampled`, `iterate_sampled`: a component of a larger run, on its own clock
* `Ranking.goal_stepsUntil`, `Ranking.not_goal_of_lt`: the goal is met first after `stepsUntil`
* `Ranking.stepsUntil_eq_rank`: when the rank is the number of steps
* `exists_last_step`: a stage that only grows leaves each value at one step
* `ActiveRanking.goal_of_count`: enough active steps meet the goal
-/

namespace Transition

variable {ι σ τ : Type*}

/-- A state machine with inputs in `ι`. -/
structure Machine (ι σ : Type*) where
  init : σ
  step : σ → ι → σ

namespace Machine

/-- The state after the first `n` inputs of the stream. -/
def run (m : Machine ι σ) (input : ℕ → ι) : ℕ → σ
  | 0 => m.init
  | n + 1 => m.step (m.run input n) (input n)

theorem run_succ (m : Machine ι σ) (input : ℕ → ι) (n : ℕ) :
    m.run input (n + 1) = m.step (m.run input n) (input n) := rfl

/-- What holds initially and is kept by every step holds along every run. -/
theorem run_invariant {m : Machine ι σ} {P : σ → Prop} (init : P m.init)
    (step : ∀ s i, P s → P (m.step s i)) (input : ℕ → ι) (n : ℕ) : P (m.run input n) := by
  induction n with
  | zero => exact init
  | succ n ih => exact step _ _ ih

/-- A relation between the states of two machines that holds initially and is kept by every
input fed to both. -/
structure Simulation (m : Machine ι σ) (m' : Machine ι τ) where
  rel : σ → τ → Prop
  init : rel m.init m'.init
  step : ∀ s t i, rel s t → rel (m.step s i) (m'.step t i)

/-- Simulated runs stay related. -/
theorem Simulation.run {m : Machine ι σ} {m' : Machine ι τ} (R : Simulation m m')
    (input : ℕ → ι) (n : ℕ) : R.rel (m.run input n) (m'.run input n) := by
  induction n with
  | zero => exact R.init
  | succ n ih => exact R.step _ _ _ ih

end Machine

/-! ## Components on a clock of their own -/

section Sampled

variable {p : ℕ → Prop} [DecidablePred p]

/-- **A component of a larger run.** When the component makes a step of its own machine at the steps
at which its clock `p` ticks, and rests at the others, it is the machine run on the inputs that it
samples, for as many steps as its clock has ticked. -/
theorem Machine.run_sampled {m : Machine ι σ} (component : ℕ → σ) (input : ℕ → ι)
    (init : component 0 = m.init)
    (tick : ∀ n, p n → component (n + 1) = m.step (component n) (input n))
    (rest : ∀ n, ¬ p n → component (n + 1) = component n) (n : ℕ) :
    component n = m.run (fun t => input (Nat.nth p t)) (Nat.count p n) := by
  induction n with
  | zero => rw [init, Nat.count_zero, Machine.run]
  | succ n ih =>
    by_cases hp : p n
    -- the clock ticks: this step is the one with the number of ticks so far
    · rw [tick n hp, ih, Nat.count_succ, if_pos hp, Machine.run_succ, Nat.nth_count hp]
    · rw [rest n hp, ih, Nat.count_succ, if_neg hp, Nat.add_zero]

/-- The same for a component without inputs. -/
theorem iterate_sampled {next : σ → σ} (component : ℕ → σ)
    (tick : ∀ n, p n → component (n + 1) = next (component n))
    (rest : ∀ n, ¬ p n → component (n + 1) = component n) (n : ℕ) :
    component n = next^[Nat.count p n] (component 0) := by
  induction n with
  | zero => rw [Nat.count_zero, Function.iterate_zero_apply]
  | succ n ih =>
    by_cases hp : p n
    · rw [tick n hp, ih, Nat.count_succ, if_pos hp, Function.iterate_succ_apply']
    · rw [rest n hp, ih, Nat.count_succ, if_neg hp, Nat.add_zero]

end Sampled

/-! ## Reaching a goal by a rank -/

/-- A rank that drops at every step taken short of the goal. -/
structure Ranking (next : σ → σ) (goal : σ → Prop) where
  rank : σ → ℕ
  drops : ∀ s, ¬ goal s → rank (next s) < rank s

namespace Ranking

variable {next : σ → σ} {goal : σ → Prop} [DecidablePred goal]

/-- The number of steps from `s` to the first state that meets the goal. -/
def stepsUntil (R : Ranking next goal) (s : σ) : ℕ :=
  if goal s then 0 else R.stepsUntil (next s) + 1
termination_by R.rank s
decreasing_by exact R.drops s ‹_›

variable (R : Ranking next goal)

theorem stepsUntil_of_goal {s : σ} (h : goal s) : R.stepsUntil s = 0 := by
  rw [stepsUntil, if_pos h]

theorem stepsUntil_of_not_goal {s : σ} (h : ¬ goal s) :
    R.stepsUntil s = R.stepsUntil (next s) + 1 := by
  rw [stepsUntil, if_neg h]

/-- The goal is met after `stepsUntil` steps. -/
theorem goal_stepsUntil (s : σ) : goal (next^[R.stepsUntil s] s) := by
  by_cases h : goal s
  · rw [R.stepsUntil_of_goal h]
    exact h
  · rw [R.stepsUntil_of_not_goal h, Function.iterate_succ_apply]
    exact goal_stepsUntil (next s)
termination_by R.rank s
decreasing_by exact R.drops s h

/-- The goal is not met before. -/
theorem not_goal_of_lt (s : σ) {k : ℕ} (hk : k < R.stepsUntil s) : ¬ goal (next^[k] s) := by
  induction k generalizing s with
  | zero =>
    intro h
    have h0 := R.stepsUntil_of_goal h
    simp only [Function.iterate_zero, id_eq] at h0
    omega
  | succ k ih =>
    have hs : ¬ goal s := by
      intro h
      rw [R.stepsUntil_of_goal h] at hk
      omega
    rw [Function.iterate_succ_apply]
    refine ih (next s) ?_
    rw [R.stepsUntil_of_not_goal hs] at hk
    omega

/-- A rank that drops by one and ends at 0 is the number of steps to the goal. -/
theorem stepsUntil_eq_rank (hnext : ∀ s, ¬ goal s → R.rank (next s) + 1 = R.rank s)
    (hgoal : ∀ s, goal s → R.rank s = 0) (s : σ) : R.stepsUntil s = R.rank s := by
  by_cases h : goal s
  · rw [R.stepsUntil_of_goal h, hgoal s h]
  · rw [R.stepsUntil_of_not_goal h, stepsUntil_eq_rank hnext hgoal (next s)]
    exact hnext s h
termination_by R.rank s
decreasing_by exact R.drops s h

end Ranking

/-! ## Stages of a run -/

/-- A stage that only grows leaves each value at one step. -/
theorem exists_last_step {stage : ℕ → ℕ} (hmono : Monotone stage) {v n : ℕ} (h0 : stage 0 ≤ v)
    (hn : v < stage n) : ∃ m < n, ∀ k, v < stage k ↔ m < k := by
  have hex : ∃ k, v < stage k := ⟨n, hn⟩
  have hpos : Nat.find hex ≠ 0 := by
    intro hzero
    have hfind := Nat.find_spec hex
    rw [hzero] at hfind
    omega
  have hle : Nat.find hex ≤ n := Nat.find_min' hex hn
  refine ⟨Nat.find hex - 1, by omega, fun k => ⟨fun hk => ?_, fun hk => ?_⟩⟩
  · have hle := Nat.find_min' hex hk
    omega
  · have hfind := Nat.find_spec hex
    exact hfind.trans_le (hmono (by omega))

/-! ## Reaching a goal by a rank, with idle steps -/

/-- A rank that up to step `b` never grows and drops at every active step short of the goal, which
lasts. -/
structure ActiveRanking (rank : ℕ → ℕ) (active goal : ℕ → Prop) (b : ℕ) : Prop where
  goal_of_zero : ∀ n, rank n = 0 → goal n
  goal_succ : ∀ n < b, goal n → goal (n + 1)
  rests : ∀ n < b, ¬ goal n → rank (n + 1) ≤ rank n
  drops : ∀ n < b, ¬ goal n → active n → rank (n + 1) < rank n

namespace ActiveRanking

variable {rank : ℕ → ℕ} {active goal : ℕ → Prop} [DecidablePred active] {b n : ℕ}

theorem goal_or_le (h : ActiveRanking rank active goal b) (hb : n ≤ b) :
    goal n ∨ rank n + Nat.count active n ≤ rank 0 := by
  induction n with
  | zero => exact Or.inr (by rw [Nat.count_zero, Nat.add_zero])
  | succ n ih =>
    by_cases hg : goal n
    · exact Or.inl (h.goal_succ n hb hg)
    · have hle := (ih (by omega)).resolve_left hg
      have hrest := h.rests n hb hg
      right
      rw [Nat.count_succ]
      split
      · next ha =>
        have hdrop := h.drops n hb hg ha
        omega
      · omega

/-- The goal is met once there were as many active steps as the rank was high. -/
theorem goal_of_count (h : ActiveRanking rank active goal b) (hb : n ≤ b)
    (hn : rank 0 ≤ Nat.count active n) : goal n := by
  rcases h.goal_or_le hb with hg | hle
  · exact hg
  · exact h.goal_of_zero n (by omega)

end ActiveRanking

end Transition
