import Mathlib.Data.List.Range
import Mathlib.Logic.Function.Basic

/-!
# Ring buffers

A ring buffer of size `len` has an index `i` at which items come in and an index `o` at which they go
out. It holds the items from `o` up to `i`, around the end of the buffer, and one place stays free, so
that equal indices mean that it is empty. A producer writes items from `i` on and then moves `i`, a
consumer reads items from `o` on and then moves `o`, and neither disturbs the other.

## Main definitions

* `RingBuffer.used`: the number of items
* `RingBuffer.items`, `RingBuffer.contents`: the items from an index on, and all items

## Main results

* `RingBuffer.contents_advance_in`, `RingBuffer.contents_eq_append`: the producer and the consumer move an index
* `RingBuffer.items_update_self`, `RingBuffer.items_update_of_le`: the producer writes an item
-/

namespace RingBuffer

variable {α : Type*} {len i o n k : ℕ} {buf : ℕ → α}

/-! ## Indices -/

theorem add_mod_of_lt (hi : i < len) (hn : n ≤ len) :
    (i + n) % len = if i + n < len then i + n else i + n - len := by
  split
  · next h => exact Nat.mod_eq_of_lt h
  · next h =>
    rw [Nat.mod_eq_sub_mod (by omega)]
    rcases hn.eq_or_lt with rfl | hlt
    · rw [Nat.add_sub_cancel, Nat.mod_eq_of_lt hi]
    · exact Nat.mod_eq_of_lt (by omega)

/-- The number of items. -/
def used (len i o : ℕ) : ℕ := if o ≤ i then i - o else i + len - o

theorem used_lt (hi : i < len) (ho : o < len) : used len i o < len := by
  unfold used
  split <;> omega

theorem used_eq_zero_iff (ho : o < len) : used len i o = 0 ↔ i = o := by
  unfold used
  split <;> omega

theorem add_used_mod (hi : i < len) (ho : o < len) : (o + used len i o) % len = i := by
  rw [add_mod_of_lt ho (used_lt hi ho).le]
  unfold used
  split <;> split <;> omega

theorem used_advance_in (hi : i < len) (ho : o < len) (hn : used len i o + n < len) :
    used len ((i + n) % len) o = used len i o + n := by
  rw [add_mod_of_lt hi (by omega)]
  unfold used at *
  split_ifs at * <;> omega

theorem used_advance_out (hi : i < len) (ho : o < len) (hn : n ≤ used len i o) :
    used len i ((o + n) % len) = used len i o - n := by
  have hlt := used_lt hi ho
  rw [add_mod_of_lt ho (by omega)]
  unfold used at *
  split_ifs at * <;> omega

/-! ## Items -/

/-- The `n` items from index `o` on. -/
def items (len : ℕ) (buf : ℕ → α) (o n : ℕ) : List α :=
  (List.range n).map fun k => buf ((o + k) % len)

@[simp] theorem items_zero : items len buf o 0 = [] := rfl

@[simp] theorem length_items : (items len buf o n).length = n := by
  rw [items, List.length_map, List.length_range]

theorem items_succ : items len buf o (n + 1) = items len buf o n ++ [buf ((o + n) % len)] := by
  rw [items, List.range_succ, List.map_append]
  rfl

theorem items_add : items len buf o (n + k) =
    items len buf o n ++ items len buf ((o + n) % len) k := by
  induction k with
  | zero => rw [Nat.add_zero, items_zero, List.append_nil]
  | succ k ih =>
    rw [← Nat.add_assoc, items_succ, ih, items_succ, List.append_assoc, Nat.mod_add_mod,
      Nat.add_assoc]

/-- An item outside of the range. -/
theorem items_update {p : ℕ} {a : α} (h : ∀ m < n, (o + m) % len ≠ p) :
    items len (Function.update buf p a) o n = items len buf o n := by
  refine List.map_congr_left fun m hm => ?_
  exact Function.update_of_ne (h m (List.mem_range.mp hm)) _ _

/-- The next item of the range. -/
theorem items_update_self {a : α} (ho : o < len) (hn : n < len) :
    items len (Function.update buf ((o + n) % len) a) o (n + 1) = items len buf o n ++ [a] := by
  rw [items_succ, Function.update_self, items_update]
  intro m hm
  rw [add_mod_of_lt ho (by omega), add_mod_of_lt ho (by omega)]
  split <;> split <;> omega

/-! ## Contents -/

/-- All items, oldest first. -/
def contents (len : ℕ) (buf : ℕ → α) (i o : ℕ) : List α := items len buf o (used len i o)

theorem contents_eq_nil_iff (ho : o < len) : contents len buf i o = [] ↔ i = o := by
  rw [← used_eq_zero_iff ho, contents, ← List.length_eq_zero_iff, length_items]

/-- The producer moves its index past the items that it has written. -/
theorem contents_advance_in (hi : i < len) (ho : o < len) (hn : used len i o + n < len) :
    contents len buf ((i + n) % len) o = contents len buf i o ++ items len buf i n := by
  rw [contents, used_advance_in hi ho hn, items_add, add_used_mod hi ho, contents]

/-- The consumer moves its index past the items that it has read. -/
theorem contents_eq_append (hi : i < len) (ho : o < len) (hn : n ≤ used len i o) :
    contents len buf i o = items len buf o n ++ contents len buf i ((o + n) % len) := by
  rw [contents, contents, used_advance_out hi ho hn, ← items_add, Nat.add_sub_cancel' hn]

/-- The items that a consumer reads are not disturbed by a producer that writes ahead of its index. -/
theorem items_update_of_le {a : α} (hi : i < len) (ho : o < len) (hk : used len i o + k < len)
    (hn : n ≤ used len i o) :
    items len (Function.update buf ((i + k) % len) a) o n = items len buf o n := by
  refine items_update fun m hm => ?_
  rw [add_mod_of_lt ho (by omega), add_mod_of_lt hi (by omega)]
  unfold used at *
  split_ifs at * <;> omega

theorem contents_update {a : α} (hi : i < len) (ho : o < len) (hk : used len i o + k < len) :
    contents len (Function.update buf ((i + k) % len) a) i o = contents len buf i o :=
  items_update_of_le hi ho hk le_rfl

/-! ## Single items -/

/-- One place stays free. -/
theorem full_iff (hi : i < len) (ho : o < len) :
    (i + 1) % len = o ↔ used len i o + 1 = len := by
  rw [add_mod_of_lt hi (by omega)]
  unfold used
  split_ifs <;> omega

theorem items_push {a : α} (hi : i < len) (ho : o < len) (hn : n ≤ used len i o) :
    items len (Function.update buf i a) o n = items len buf o n := by
  have h : items len (Function.update buf ((i + 0) % len) a) o n = items len buf o n :=
    items_update_of_le hi ho (used_lt hi ho) hn
  rwa [Nat.add_zero, Nat.mod_eq_of_lt hi] at h

/-- The producer puts in one item. -/
theorem contents_push {a : α} (hi : i < len) (ho : o < len) (h : used len i o + 1 < len) :
    contents len (Function.update buf i a) ((i + 1) % len) o = contents len buf i o ++ [a] := by
  rw [contents_advance_in hi ho h, contents, items_push hi ho le_rfl, items_succ, items_zero,
    Nat.add_zero, Nat.mod_eq_of_lt hi, Function.update_self, List.nil_append, contents]

/-- The consumer takes out one item. -/
theorem contents_pop (hi : i < len) (ho : o < len) (h : i ≠ o) :
    contents len buf i o = buf o :: contents len buf i ((o + 1) % len) := by
  have hpos : 1 ≤ used len i o := Nat.one_le_iff_ne_zero.mpr ((used_eq_zero_iff ho).not.mpr h)
  rw [contents_eq_append hi ho hpos, items_succ, items_zero, Nat.add_zero, Nat.mod_eq_of_lt ho]
  rfl

end RingBuffer
