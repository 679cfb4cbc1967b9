import ADS131A0X.Base.Machine
import ADS131A0X.Base.RoundRobin

/-!
# The arbitrator of the interconnect

`altera_merlin_arbitrator` grants one of several requests. It keeps the priority as a vector with one
bit and finds the request to grant by an addition, for which `altera_merlin_arb_adder` has a circuit of
its own if the vectors are short. After a grant the priority moves on to the next requester, so that
nobody waits for more than one grant of each of the others.

## Main definitions

* `MerlinArbAdder.sum`: the adder
* `MerlinArbitrator`, `MerlinArbitrator.grant`, `MerlinArbitrator.posedgeClk`: the register, the grant,
  one edge of `clk`

## Main results

* `MerlinArbAdder.sum_eq`: both circuits add
* `MerlinArbitrator.grant_eq`: the grant is the first request from the one with the priority on
* `MerlinArbitrator.Run.fair`: one grant at a time, and everyone's turn comes

## Implementation notes

The number of requesters is arbitrary. A requester is granted in the clock in which the priority moves
on, which `increment_top_priority` says.
-/

namespace ADS131A0X

open Transition RoundRobin

/-! ## The adder -/

namespace MerlinArbAdder

variable {w : ℕ} (a b : BitVec w)

/-- The sum of the full adder; the fold carries the wires `cout`. -/
def fullAdder : BitVec w :=
  (BitVec.iunfoldr (fun (i : Fin w) cout =>
    ((a.getLsbD i && b.getLsbD i) || (cout && (a.getLsbD i ^^ b.getLsbD i)),
      (a.getLsbD i ^^ b.getLsbD i) ^^ cout)) false).2

/-- The output `sum`. -/
def sum : BitVec w := if w ≤ 8 then fullAdder a b else a + b

theorem sum_eq : sum a b = a + b := by
  unfold sum
  split
  · rw [BitVec.add_eq_adc, BitVec.adc, fullAdder]
    congr 2
    funext i cout
    unfold BitVec.adcb
    cases a.getLsbD i <;> cases b.getLsbD i <;> cases cout <;> rfl
  · rfl

end MerlinArbAdder

/-! ## The arbitrator -/

/-- The parameter `SCHEME`. -/
inductive ArbScheme
  | roundRobin
  | fixedPriority
  | noArb
  deriving DecidableEq, Repr

/-- The register of `altera_merlin_arbitrator` with `n` requesters. -/
structure MerlinArbitrator (n : ℕ) where
  topPriorityReg : BitVec n := 1#n
  deriving DecidableEq, Repr

namespace MerlinArbitrator

variable {n : ℕ}

/-- The levels at the inputs at an edge of `clk`. -/
structure Inputs (n : ℕ) where
  request : BitVec n
  incrementTopPriority : Bool
  saveTopPriority : Bool
  deriving DecidableEq, Repr

variable (scheme : ArbScheme) (pipeline : Bool) (m : MerlinArbitrator n)

def topPriority : BitVec n :=
  if scheme = .roundRobin ∧ 1 < n then m.topPriorityReg else 1#n

def grant (request : BitVec n) : BitVec n :=
  if scheme = .noArb then request
  else
    let result := MerlinArbAdder.sum (~~~request ++ ~~~request) (0#n ++ m.topPriority scheme)
    let grantDoubleVector := (request ++ request) &&& result
    grantDoubleVector.extractLsb' 0 n ||| grantDoubleVector.extractLsb' n n

/-- One edge of `clk`, with `reset` low. -/
def posedgeClk (i : Inputs n) : MerlinArbitrator n where
  topPriorityReg :=
    if i.incrementTopPriority then
      if i.request ≠ 0#n then (m.grant scheme i.request).rotateLeft 1
      else if pipeline then m.topPriorityReg
      else m.topPriorityReg.rotateLeft 1
    else if !pipeline && i.saveTopPriority then m.grant scheme i.request
    else m.topPriorityReg

/-! ## One grant -/

variable {p g i : ℕ}

theorem append_twoPow (p : ℕ) (hp : p < n) :
    0#n ++ BitVec.twoPow n p = BitVec.twoPow (n + n) p := by
  refine BitVec.eq_of_getLsbD_eq fun i hi => ?_
  rw [BitVec.getLsbD_append, BitVec.getLsbD_twoPow, BitVec.getLsbD_twoPow]
  split
  · simp [hp, show p < n + n by omega]
  · simp [show p ≠ i by omega]

theorem not_append_not (r : BitVec n) : ~~~r ++ ~~~r = ~~~(r ++ r) := by
  refine BitVec.eq_of_getLsbD_eq fun i hi => ?_
  simp only [BitVec.getLsbD_append, BitVec.getLsbD_not, hi, decide_true, Bool.true_and]
  split
  · simp [*]
  · simp [show i - n < n by omega]

theorem getLsbD_grant (hs : scheme = .roundRobin) (hn : 1 < n) (hp : p < n)
    (htop : m.topPriorityReg = BitVec.twoPow n p) (request : BitVec n) (hi : i < n) :
    (m.grant scheme request).getLsbD i = true ↔
      IsFirst n (fun j => request.getLsbD j = true) p i := by
  rw [grant, if_neg (by simp [hs]), topPriority, if_pos ⟨hs, hn⟩, htop, append_twoPow p hp,
    not_append_not, MerlinArbAdder.sum_eq, ← isFirst_iff request hp hi]
  simp only [BitVec.getLsbD_or, BitVec.getLsbD_extractLsb', hi, decide_true, Bool.true_and,
    Nat.zero_add, Bool.or_eq_true]
  rw [Nat.add_comm n i]

/-- **The grant**: the first request from the one with the priority on, and nothing if there is none. -/
theorem grant_eq (hs : scheme = .roundRobin) (hn : 1 < n) (hp : p < n)
    (htop : m.topPriorityReg = BitVec.twoPow n p) (request : BitVec n) (hr : request ≠ 0#n) :
    ∃ g, m.grant scheme request = BitVec.twoPow n g ∧
      IsFirst n (fun j => request.getLsbD j = true) p g := by
  have hex : ∃ j < n, request.getLsbD j = true := by
    by_contra hnone
    refine hr (BitVec.eq_of_getLsbD_eq fun j hj => ?_)
    rw [BitVec.getLsbD_zero, ← Bool.not_eq_true]
    exact fun h => hnone ⟨j, hj, h⟩
  obtain ⟨g, hg⟩ := exists_isFirst hex
  refine ⟨g, BitVec.eq_of_getLsbD_eq fun i hi => ?_, hg⟩
  rw [Bool.eq_iff_iff, getLsbD_grant scheme m hs hn hp htop request hi, BitVec.getLsbD_twoPow]
  constructor
  · intro h
    obtain rfl : g = i := hg.unique hp h
    simp [hi]
  · intro h
    obtain ⟨-, rfl⟩ : g < n ∧ g = i := by simpa using h
    exact hg

theorem grant_zero : m.grant scheme 0#n = 0#n := by
  unfold grant
  split
  · rfl
  · simp

theorem rotateLeft_twoPow (hn : 1 < n) (hg : g < n) :
    (BitVec.twoPow n g).rotateLeft 1 = BitVec.twoPow n ((g + 1) % n) := by
  refine BitVec.eq_of_getLsbD_eq fun i hi => ?_
  have hlt : (g + 1) % n < n := Nat.mod_lt _ (by omega)
  have hmod : (g + 1) % n = if g + 1 < n then g + 1 else 0 := by
    split
    · next h => exact Nat.mod_eq_of_lt h
    · rw [show g + 1 = n by omega, Nat.mod_self]
  rw [BitVec.getLsbD_rotateLeft, Nat.mod_eq_of_lt hn, BitVec.getLsbD_twoPow, BitVec.getLsbD_twoPow,
    BitVec.getLsbD_twoPow, decide_eq_true hg, decide_eq_true hlt, decide_eq_true hi]
  simp only [Bool.true_and, Bool.cond_decide]
  split <;> refine decide_eq_decide.mpr ?_ <;> rw [hmod] <;> split <;> omega

/-! ## Runs -/

/-- What the environment can do: raise `clk` with `reset` low, or have `reset` high. -/
inductive Event (n : ℕ)
  | clk (i : Inputs n)
  | reset
  deriving DecidableEq, Repr

/-- The reaction to an event. -/
def step : Event n → MerlinArbitrator n
  | .clk i => m.posedgeClk scheme pipeline i
  | .reset => {}

/-- The arbitrator after a reset. -/
def machine (n : ℕ) : Machine (Event n) (MerlinArbitrator n) where
  init := {}
  step := step scheme pipeline

/-- A run of a round robin: the events that follow a reset. -/
structure Run (n : ℕ) where
  pipeline : Bool
  event : ℕ → Event n

namespace Run

variable (ρ : Run n) (k : ℕ)

/-- The arbitrator after the first `k` events of the run. -/
def arb : ℕ → MerlinArbitrator n := (machine .roundRobin ρ.pipeline n).run ρ.event

theorem arb_succ : ρ.arb (k + 1) = (ρ.arb k).step .roundRobin ρ.pipeline (ρ.event k) :=
  Machine.run_succ _ _ k

/-- The requests at step `k`. -/
def request : BitVec n :=
  match ρ.event k with
  | .clk i => i.request
  | .reset => 0#n

/-- The output `grant` at step `k`. -/
def grant : BitVec n := (ρ.arb k).grant .roundRobin (ρ.request k)

/-- At step `k` the priority moves on. -/
def increments : Prop :=
  match ρ.event k with
  | .clk i => i.incrementTopPriority = true
  | .reset => False

instance : DecidablePred ρ.increments := fun k => by
  unfold increments
  split <;> infer_instance

/-- At step `k` the priority is saved only with a request; the multiplexers save it with an item. -/
def SavesGrant : Prop :=
  match ρ.event k with
  | .clk i => ρ.pipeline = false → i.saveTopPriority = true → i.request ≠ 0#n
  | .reset => True

variable {ρ k}

/-- What one event does to the priority: whoever requests and is not granted comes no later, and
earlier if the priority moves on. -/
theorem top_succ (hn : 1 < n) (hp : p < n) (htop : (ρ.arb k).topPriorityReg = BitVec.twoPow n p)
    (hsave : ρ.SavesGrant k) : ∃ p' < n, (ρ.arb (k + 1)).topPriorityReg = BitVec.twoPow n p' ∧
      ∀ i < n, (ρ.request k).getLsbD i = true →
        (ρ.increments k → (ρ.grant k).getLsbD i = false → dist n p' i < dist n p i) ∧
          (¬ ρ.increments k → dist n p' i ≤ dist n p i) := by
  rw [arb_succ]
  unfold SavesGrant at hsave
  unfold grant request increments
  cases he : ρ.event k with
  | reset =>
    refine ⟨0, by omega, ?_, fun i _ hr => ?_⟩
    · show 1#n = BitVec.twoPow n 0
      rw [BitVec.twoPow_zero]
    · rw [BitVec.getLsbD_zero] at hr
      cases hr
  | clk i =>
    rw [he] at hsave
    simp only [step, posedgeClk]
    have hnone : ∀ j, i.request = 0#n → i.request.getLsbD j = true → False := by
      intro j h0 hrj
      rw [h0, BitVec.getLsbD_zero] at hrj
      cases hrj
    split_ifs with hinc hr hpipe hgrant
    · obtain ⟨g, hg, hfirst⟩ := grant_eq .roundRobin (ρ.arb k) rfl hn hp htop i.request hr
      rw [hg, rotateLeft_twoPow hn hfirst.lt]
      refine ⟨_, Nat.mod_lt _ (by omega), rfl, fun j hj hrj => ⟨fun _ hjg => ?_, fun h => ?_⟩⟩
      · refine hfirst.dist_succ hp hj hrj ?_
        rintro rfl
        simp [hj] at hjg
      · exact absurd hinc h
    · exact ⟨p, hp, htop, fun j _ hrj => (hnone j (not_not.mp hr) hrj).elim⟩
    · rw [htop, rotateLeft_twoPow hn hp]
      exact ⟨_, Nat.mod_lt _ (by omega), rfl, fun j _ hrj => (hnone j (not_not.mp hr) hrj).elim⟩
    · rw [Bool.and_eq_true, Bool.not_eq_true'] at hgrant
      obtain ⟨g, hg, hfirst⟩ := grant_eq .roundRobin (ρ.arb k) rfl hn hp htop i.request
        (hsave hgrant.1 hgrant.2)
      exact ⟨g, hfirst.lt, hg, fun j hj hrj => ⟨fun h => absurd h hinc,
        fun _ => hfirst.dist_self hp hj hrj⟩⟩
    · exact ⟨p, hp, htop, fun j _ _ => ⟨fun h => absurd h hinc, fun _ => le_rfl⟩⟩

theorem exists_top (hn : 1 < n) (hsave : ∀ j < k, ρ.SavesGrant j) :
    ∃ p < n, (ρ.arb k).topPriorityReg = BitVec.twoPow n p := by
  induction k with
  | zero => exact ⟨0, by omega, by rw [BitVec.twoPow_zero]; rfl⟩
  | succ k ih =>
    obtain ⟨p, hp, htop⟩ := ih fun j hj => hsave j (by omega)
    obtain ⟨p', hp', htop', -⟩ := top_succ hn hp htop (hsave k (by omega))
    exact ⟨p', hp', htop'⟩

/-- A requester is granted when the priority moves on, or the priority comes closer to it. -/
theorem granted_or_closer {a i : ℕ} (hn : 1 < n) (hi : i < n) {p d : ℕ} (hp : p < n)
    (htop : (ρ.arb a).topPriorityReg = BitVec.twoPow n p) (hsave : ∀ k < a + d, ρ.SavesGrant k)
    (hreq : ∀ k, a ≤ k → k < a + d → (ρ.request k).getLsbD i = true) :
    (∃ k, a ≤ k ∧ k < a + d ∧ ρ.increments k ∧ (ρ.grant k).getLsbD i = true) ∨
      ∃ q < n, (ρ.arb (a + d)).topPriorityReg = BitVec.twoPow n q ∧
        dist n q i + Nat.count (fun k => ρ.increments (a + k)) d ≤ dist n p i := by
  induction d with
  | zero => exact Or.inr ⟨p, hp, htop, by rw [Nat.count_zero, Nat.add_zero]⟩
  | succ d ih =>
    rcases ih (fun k hk => hsave k (by omega)) fun k h1 h2 => hreq k h1 (by omega) with
      ⟨k, h1, h2, hinc, hg⟩ | ⟨q, hq, htop, hle⟩
    · exact Or.inl ⟨k, h1, by omega, hinc, hg⟩
    · obtain ⟨q', hq', htop', hdist⟩ := top_succ hn hq htop (hsave (a + d) (by omega))
      obtain ⟨hmoves, hrests⟩ := hdist i hi (hreq (a + d) (by omega) (by omega))
      rw [Nat.count_succ]
      by_cases hinc : ρ.increments (a + d)
      · rw [if_pos hinc]
        cases hg : (ρ.grant (a + d)).getLsbD i
        · have hlt := hmoves hinc hg
          exact Or.inr ⟨q', hq', htop', by omega⟩
        · exact Or.inl ⟨a + d, by omega, by omega, hinc, hg⟩
      · rw [if_neg hinc]
        have hle' := hrests hinc
        exact Or.inr ⟨q', hq', htop', by omega⟩

/-- **Round robin** among more than one, as long as the priority is saved only with a request: at every
step nobody is granted without a request, and exactly one is granted if someone requests; and whoever
requests from step `a` to step `b` is granted at one of the first `n` steps at which the priority moves
on. -/
theorem fair (ρ : Run n) (hn : 1 < n) (b : ℕ) (hsave : ∀ k < b, ρ.SavesGrant k) :
    (∀ k < b, if ρ.request k = 0#n then ρ.grant k = 0#n
      else ∃ g, (ρ.request k).getLsbD g = true ∧ ρ.grant k = BitVec.twoPow n g) ∧
      ∀ a i, i < n → a ≤ b → (∀ k, a ≤ k → k < b → (ρ.request k).getLsbD i = true) →
        n ≤ Nat.count (fun k => ρ.increments (a + k)) (b - a) →
        ∃ k, a ≤ k ∧ k < b ∧ ρ.increments k ∧ (ρ.grant k).getLsbD i = true := by
  constructor
  · intro k hk
    split
    · next h0 =>
      rw [grant, h0, grant_zero]
    · next h0 =>
      obtain ⟨p, hp, htop⟩ := exists_top (k := k) hn fun j hj => hsave j (by omega)
      obtain ⟨g, hg, hfirst⟩ := grant_eq .roundRobin (ρ.arb k) rfl hn hp htop _ h0
      exact ⟨g, hfirst.requests, hg⟩
  · intro a i hi hab hreq hcount
    obtain ⟨p, hp, htop⟩ := exists_top (k := a) hn fun j hj => hsave j (by omega)
    have hb : a + (b - a) = b := Nat.add_sub_cancel' hab
    rcases granted_or_closer (d := b - a) hn hi hp htop (fun k hk => hsave k (by omega))
      (fun k h1 h2 => hreq k h1 (by omega)) with ⟨k, h1, h2, h⟩ | ⟨q, hq, -, hle⟩
    · exact ⟨k, h1, by omega, h⟩
    · have hlt := dist_lt hp hi
      omega

/-- Two requesters that never stop, with the priority moving on at every other step, and saved at all of
them. -/
def contended (pipeline : Bool) : Run 2 where
  pipeline
  event k := .clk { request := 3#2, incrementTopPriority := k % 2 = 0, saveTopPriority := true }

theorem request_contended (b : Bool) (k : ℕ) : (contended b).request k = 3#2 := rfl

theorem fair_contended :
    (∃ k, 2 ≤ k ∧ k < 5 ∧ (contended false).increments k ∧
        ((contended false).grant k).getLsbD 0 = true) ∧
      ∃ k, 2 ≤ k ∧ k < 5 ∧ (contended true).increments k ∧
        ((contended true).grant k).getLsbD 1 = true := by
  have hsave : ∀ b k, (contended b).SavesGrant k := fun _ _ _ _ => (by decide : 3#2 ≠ 0#2)
  constructor
  · exact ((contended false).fair (by decide) 5 fun k _ => hsave false k).2 2 0 (by decide) (by decide)
      (fun k _ _ => by rw [request_contended]; decide) (by decide)
  · exact ((contended true).fair (by decide) 5 fun k _ => hsave true k).2 2 1 (by decide) (by decide)
      (fun k _ _ => by rw [request_contended]; decide) (by decide)

end Run

end MerlinArbitrator

end ADS131A0X
