import ADS131A0X.Base.Machine
import ADS131A0X.Base.Serial

/-!
# The response FIFO of the interconnect

`altera_avalon_sc_fifo` without memory blocks is a shift register with a bit for each slot. On a read
all slots shift, and every slot that is going to be empty takes the input, so that the bits alone say
which slots count. With `EMPTY_LATENCY` 0 the input shows at the output in the same clock if the FIFO is
empty; a FIFO with one slot takes an input in the clock in which it is read.

## Main definitions

* `ScFifo`, `ScFifo.posedgeClk`: the registers, one edge of `clk`
* `ScFifo.contents`: the items in the slots that count

## Main results

* `ScFifo.step_contents`: one clock, as a queue sees it
* `ScFifo.Run.queue`: a run of the FIFO

## Implementation notes

The depth and the items are arbitrary. There is no status port, no store and forward, and the output is
not registered: the interconnect uses none of these.
-/

namespace ADS131A0X

open Transition Waveform

/-- The parameters `FIFO_DEPTH` and `EMPTY_LATENCY`, where 0 is a lookahead. -/
structure ScFifo.Config where
  depth : ℕ
  lookahead : Bool
  deriving DecidableEq, Repr

/-- The registers of `altera_avalon_sc_fifo`. -/
structure ScFifo (α : Type*) where
  mem : ℕ → α
  memUsed : ℕ → Bool

namespace ScFifo

variable {α : Type*}

/-- The levels at the inputs at an edge of `clk`. -/
structure Inputs (α : Type*) where
  inPayload : α
  inValid : Bool
  outReady : Bool

section Wires

variable (c : Config) (i : Inputs α) (m : ScFifo α)

def empty : Bool := !m.memUsed 0 && !(c.lookahead && i.inValid)

def outValid : Bool := !m.empty c i

def outPayload : α := if c.lookahead && !m.memUsed 0 && i.inValid then i.inPayload else m.mem 0

/-- The wire `read`, with `internal_out_ready` in place. -/
def read : Bool := (i.outReady || !m.outValid c i) && m.outValid c i

def full : Bool :=
  if c.depth = 1 then m.memUsed 0 && !m.read c i else m.memUsed (c.depth - 1)

def inReady : Bool := !m.full c i

def write : Bool := m.inReady c i && i.inValid

end Wires

variable (c : Config) (i : Inputs α) (m : ScFifo α)

/-- One edge of `clk`, with `reset` low. -/
def posedgeClk : ScFifo α where
  mem k :=
    if k + 1 < c.depth then
      if m.read c i || !m.memUsed k then
        if !m.memUsed (k + 1) then i.inPayload else m.mem (k + 1)
      else m.mem k
    else if k + 1 = c.depth then
      if c.depth = 1 then
        if m.write c i then i.inPayload else m.mem k
      else if !m.memUsed k then i.inPayload else m.mem k
    else m.mem k
  memUsed k :=
    if k < c.depth then
      if m.write c i ^^ m.read c i then
        if m.write c i then
          if k = 0 then true else m.memUsed (k - 1)
        else if k + 1 < c.depth then m.memUsed (k + 1) else false
      else m.memUsed k
    else m.memUsed k

/-- The registers after a reset. -/
def reset [Inhabited α] : ScFifo α where
  mem _ := default
  memUsed _ := false

/-! ## One clock -/

/-- The items in the slots that count, oldest first. -/
def contents : List α := ((List.range c.depth).filter m.memUsed).map m.mem

/-- The bits of the slots are contiguous, and start at the first slot. -/
def Filled (level : ℕ) : Prop := level ≤ c.depth ∧ ∀ k < c.depth, m.memUsed k = decide (k < level)

variable {c i m} {level : ℕ}

theorem filter_range_lt {d : ℕ} (h : level ≤ d) :
    (List.range d).filter (fun k => decide (k < level)) = List.range level := by
  obtain ⟨e, rfl⟩ := Nat.exists_eq_add_of_le h
  rw [List.range_add, List.filter_append, List.filter_eq_self.mpr, List.filter_eq_nil_iff.mpr,
    List.append_nil]
  · simp
  · simp

namespace Filled

theorem contents_eq (h : m.Filled c level) : m.contents c = (List.range level).map m.mem := by
  have hfilter : (List.range c.depth).filter m.memUsed =
      (List.range c.depth).filter fun k => decide (k < level) :=
    List.filter_congr fun k hk => h.2 k (List.mem_range.mp hk)
  rw [contents, hfilter, filter_range_lt h.1]

theorem length_contents (h : m.Filled c level) : (m.contents c).length = level := by
  rw [h.contents_eq, List.length_map, List.length_range]

theorem outValid_eq (h : m.Filled c level) (hd : 0 < c.depth) :
    m.outValid c i = (decide (0 < level) || (c.lookahead && i.inValid)) := by
  rw [outValid, empty, h.2 0 hd, Bool.not_and, Bool.not_not, Bool.not_not]

theorem inReady_eq (h : m.Filled c level) (hd : 0 < c.depth) :
    m.inReady c i = (decide (level < c.depth) || (decide (c.depth = 1) && m.read c i)) := by
  have hle := h.1
  rw [inReady, full]
  split
  · next h1 =>
    rw [h.2 0 hd, h1]
    cases m.read c i
    · simp [show 0 < level ↔ ¬ level < 1 by omega]
    · simp
  · next h1 =>
    rw [h.2 _ (by omega), decide_eq_false h1, Bool.false_and, Bool.or_false, ← decide_not,
      decide_eq_decide]
    omega

end Filled

theorem read_eq : m.read c i = (i.outReady && m.outValid c i) := by
  rw [read]
  cases m.outValid c i <;> simp

/-- On a read an item moves to the slot before its own. -/
theorem Filled.mem_of_shift (h : m.Filled c level) (hr : m.read c i = true) {k : ℕ} (hk : k + 1 < level) :
    (m.posedgeClk c i).mem k = m.mem (k + 1) := by
  have hle := h.1
  have hused : m.memUsed (k + 1) = true := by simpa [hk] using h.2 (k + 1) (by omega)
  simp only [posedgeClk, hr, hused, if_pos (show k + 1 < c.depth by omega)]
  rfl

section Clock

variable (h : m.Filled c level) (hd : 0 < c.depth)

include h hd

theorem Filled.lt_of_write (hw : m.write c i = true) :
    level < c.depth ∨ c.depth = 1 ∧ m.read c i = true := by
  rw [write, h.inReady_eq hd] at hw
  simp only [Bool.and_eq_true, Bool.or_eq_true, decide_eq_true_eq] at hw
  exact hw.1

theorem Filled.pos_of_read (hr : m.read c i = true) :
    0 < level ∨ level = 0 ∧ m.write c i = true ∧ m.outPayload c i = i.inPayload := by
  have hr' := hr
  rw [read_eq, h.outValid_eq hd] at hr'
  rcases Nat.eq_zero_or_pos level with rfl | hpos
  · have hlook : c.lookahead = true ∧ i.inValid = true := by
      simp only [lt_irrefl, decide_false, Bool.false_or, Bool.and_eq_true] at hr'
      exact hr'.2
    have h0 : m.memUsed 0 = false := by simpa using h.2 0 hd
    refine Or.inr ⟨rfl, ?_, ?_⟩
    · rw [write, h.inReady_eq hd, hlook.2, decide_eq_true hd]
      rfl
    · rw [outPayload, hlook.1, hlook.2, h0]
      rfl
  · exact Or.inl hpos

theorem Filled.next : (m.posedgeClk c i).Filled c
    (level + (m.write c i).toNat - (m.read c i).toNat) := by
  have hle := h.1
  have hlt := h.lt_of_write hd (i := i)
  have hpos := h.pos_of_read hd (i := i)
  refine ⟨?_, fun k hk => ?_⟩
  · cases hw : m.write c i <;> cases hr : m.read c i <;> simp [hw, hr] at hlt hpos ⊢ <;> omega
  · simp only [posedgeClk, if_pos hk]
    cases hw : m.write c i <;> cases hr : m.read c i
    · simpa using h.2 k hk
    · have hk' : level ≠ 0 := by
        have := hpos hr
        simp [hw] at this
        omega
      simp only [Bool.false_bne, if_true, Bool.false_eq_true, if_false, Bool.toNat_false,
        Bool.toNat_true, Nat.add_zero]
      split
      · next hlt' =>
        rw [h.2 _ hlt', decide_eq_decide]
        omega
      · symm
        rw [decide_eq_false_iff_not]
        omega
    · simp only [Bool.bne_false, if_true, Bool.toNat_false, Bool.toNat_true, Nat.sub_zero]
      split
      · next h0 => simp [h0]
      · rw [h.2 _ (by omega), decide_eq_decide]
        omega
    · simpa using h.2 k hk

/-- A slot that counts and is not read keeps its item. -/
theorem Filled.mem_of_keep (hr : m.read c i = false) {k : ℕ} (hk : k < level) :
    (m.posedgeClk c i).mem k = m.mem k := by
  have hle := h.1
  have hused : m.memUsed k = true := by simpa [hk] using h.2 k (by omega)
  have hw : c.depth = 1 → m.write c i = false := by
    intro h1
    by_contra hw
    have hlt := h.lt_of_write hd (i := i) (by simpa using hw)
    simp [hr] at hlt
    omega
  simp only [posedgeClk, hr, hused]
  split_ifs <;> simp_all

/-- What is written comes to the slot after the others. -/
theorem Filled.mem_of_write (hw : m.write c i = true) {k : ℕ}
    (hk : k + (m.read c i).toNat = level) : (m.posedgeClk c i).mem k = i.inPayload := by
  have hle := h.1
  have hlt := h.lt_of_write hd hw
  have hkd : k < c.depth := by
    cases hr : m.read c i <;> simp [hr] at hk hlt <;> omega
  have hfree : m.read c i = true ∨ m.memUsed k = false := by
    cases hr : m.read c i
    · right
      rw [h.2 k hkd]
      simp [hr] at hk
      simp [hk]
    · exact Or.inl rfl
  simp only [posedgeClk]
  by_cases hlast : k + 1 < c.depth
  · have hused : m.memUsed (k + 1) = false := by
      rw [h.2 _ hlast]
      cases hr : m.read c i <;> simp [hr] at hk <;> simp <;> omega
    rw [if_pos hlast, hused]
    rcases hfree with hr | hk' <;> simp [*]
  · rw [if_neg hlast, if_pos (by omega)]
    split
    · rfl
    · next h1 =>
      have hused : m.memUsed k = false := by
        rw [h.2 _ hkd]
        cases hr : m.read c i <;> simp [hr] at hk hlt <;> simp <;> omega
      rw [hused]
      rfl

end Clock

/-- **One clock, as a queue sees it**: the items in the slots that count, followed by what is written,
are what is read, followed by the items in the slots that count next. -/
theorem step_contents (h : m.Filled c level) (hd : 0 < c.depth) :
    m.contents c ++ (if m.write c i then [i.inPayload] else []) =
      (if m.read c i then [m.outPayload c i] else []) ++ (m.posedgeClk c i).contents c := by
  rw [h.contents_eq, (h.next hd).contents_eq]
  cases hr : m.read c i
  · have hkeep : (List.range level).map (m.posedgeClk c i).mem = (List.range level).map m.mem :=
      List.map_congr_left fun k hk => h.mem_of_keep hd hr (List.mem_range.mp hk)
    cases hw : m.write c i
    · simp [hkeep]
    · have hnew := h.mem_of_write hd hw (k := level) (by rw [hr]; rfl)
      simp [List.range_succ, hkeep, hnew]
  · rcases h.pos_of_read hd hr with hpos | ⟨rfl, hw, hout⟩
    · obtain ⟨l, rfl⟩ : ∃ l, level = l + 1 := ⟨level - 1, by omega⟩
      have hused : m.memUsed 0 = true := by simpa using h.2 0 hd
      have hout : m.outPayload c i = m.mem 0 := by rw [outPayload, hused]; simp
      have hshift : (List.range l).map (m.posedgeClk c i).mem =
          (List.range l).map fun k => m.mem (k + 1) :=
        List.map_congr_left fun k hk =>
          h.mem_of_shift hr (Nat.succ_lt_succ (List.mem_range.mp hk))
      rw [List.range_succ_eq_map, List.map_cons, List.map_map, hout]
      cases hw : m.write c i
      · simp [hshift, Function.comp_def]
      · have hnew := h.mem_of_write hd hw (k := l) (by rw [hr]; rfl)
        simp [List.range_succ, hshift, hnew, Function.comp_def]
    · simp [hw, hout]

/-! ## Runs -/

/-- What the environment can do: raise `clk` with `reset` low, or have `reset` high. -/
inductive Event (α : Type*)
  | clk (i : Inputs α)
  | reset

/-- The reaction to an event. -/
def step [Inhabited α] (c : Config) (m : ScFifo α) : Event α → ScFifo α
  | .clk i => m.posedgeClk c i
  | .reset => reset

/-- The FIFO after a reset. -/
def machine [Inhabited α] (c : Config) : Machine (Event α) (ScFifo α) where
  init := reset
  step := step c

/-- A run of a FIFO: the events that follow a reset. -/
structure Run (α : Type*) where
  config : Config
  event : ℕ → Event α

namespace Run

variable [Inhabited α] (ρ : Run α) (n : ℕ)

/-- The FIFO after the first `n` events of the run. -/
def fifo : ℕ → ScFifo α := (machine ρ.config).run ρ.event

theorem fifo_succ : ρ.fifo (n + 1) = (ρ.fifo n).step ρ.config (ρ.event n) := Machine.run_succ _ _ n

/-- The items that the FIFO holds. -/
def held : List α := (ρ.fifo n).contents ρ.config

/-- The item that the FIFO takes at step `n`. -/
def taken : List α :=
  match ρ.event n with
  | .clk i => if (ρ.fifo n).write ρ.config i then [i.inPayload] else []
  | .reset => []

/-- The item that the FIFO gives at step `n`. -/
def given : List α :=
  match ρ.event n with
  | .clk i => if (ρ.fifo n).read ρ.config i then [(ρ.fifo n).outPayload ρ.config i] else []
  | .reset => []

variable {ρ n}

theorem filled (hd : 0 < ρ.config.depth) : ∃ level, (ρ.fifo n).Filled ρ.config level := by
  induction n with
  | zero => exact ⟨0, Nat.zero_le _, fun _ _ => rfl⟩
  | succ n ih =>
    obtain ⟨level, h⟩ := ih
    rw [fifo_succ]
    cases ρ.event n with
    | clk i => exact ⟨_, h.next hd⟩
    | reset => exact ⟨0, Nat.zero_le _, fun _ _ => rfl⟩

/-- A step without a reset is a step of a stage. -/
theorem stage (hd : 0 < ρ.config.depth) (hreset : ρ.event n ≠ .reset) :
    ρ.held n ++ ρ.taken n = ρ.given n ++ ρ.held (n + 1) := by
  obtain ⟨level, h⟩ := filled (n := n) hd
  rw [held, held, taken, given, fifo_succ]
  cases he : ρ.event n with
  | clk i => exact step_contents h hd
  | reset => exact absurd he hreset

/-- **A queue**: in every run and for every depth, the FIFO never holds more items than it has slots; it
is ready exactly if a slot is free, or if its only one is being read; it offers an item exactly if it
holds one, or sees one at its input with a lookahead; and between any two points without a reset what it
held and took is what it gave and holds, in order. -/
theorem queue (ρ : Run α) (hd : 0 < ρ.config.depth) :
    (∀ n, (ρ.held n).length ≤ ρ.config.depth) ∧
      (∀ n i, ρ.event n = .clk i →
        ((ρ.fifo n).inReady ρ.config i = true ↔ (ρ.held n).length < ρ.config.depth ∨
          ρ.config.depth = 1 ∧ ρ.given n ≠ []) ∧
        ((ρ.fifo n).outValid ρ.config i = true ↔ ρ.held n ≠ [] ∨
          ρ.config.lookahead = true ∧ i.inValid = true)) ∧
      ∀ a b, a ≤ b → (∀ n, a ≤ n → n < b → ρ.event n ≠ .reset) →
        ρ.held a ++ emitted ρ.taken a b = emitted ρ.given a b ++ ρ.held b := by
  refine ⟨fun n => ?_, fun n i he => ?_, fun a b hab hreset => ?_⟩
  · obtain ⟨level, h⟩ := filled (n := n) hd
    rw [held, h.length_contents]
    exact h.1
  · obtain ⟨level, h⟩ := filled (n := n) hd
    have hlen : (ρ.held n).length = level := h.length_contents
    constructor
    · rw [h.inReady_eq hd, hlen, given, he]
      cases hr : (ρ.fifo n).read ρ.config i <;> simp [hr]
    · rw [h.outValid_eq hd, ← List.length_pos_iff, hlen]
      simp
  · have hstage : Stage ρ.taken ρ.held ρ.given a b := fun n h1 h2 => stage hd (hreset n h1 h2)
    exact hstage.conserves hab

/-- A FIFO with two slots, with an item coming at every step and taken at every other. -/
def filling : Run ℕ where
  config := { depth := 2, lookahead := false }
  event n := .clk { inPayload := n, inValid := true, outReady := n % 2 = 1 }

theorem queue_filling : filling.held 0 ++ emitted filling.taken 0 6 =
    emitted filling.given 0 6 ++ filling.held 6 :=
  (filling.queue (by decide)).2.2 0 6 (by decide) fun _ _ _ h => by cases h

example : emitted filling.taken 0 6 = [0, 1, 2, 4] ∧ filling.held 6 = [4] := by decide

end Run

end ScFifo

end ADS131A0X
