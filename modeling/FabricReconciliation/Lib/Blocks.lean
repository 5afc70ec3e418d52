import Mathlib.Data.List.Basic

/-!
# Messages cut into blocks

The whole blocks of a message and what remains behind them. A message may be cut while it arrives: what has
been cut off stays, and only the remainder meets what follows.

* **`blocks_append`** — whole blocks in front stay blocks;
* **`blocks_stream`** — cutting a message that arrives in two parts.
-/

namespace Lib

variable {α : Type} {n : Nat} {a b m : List α}

/-- The whole blocks of `n` elements. -/
def blocks (n : Nat) (m : List α) : List (List α) := (List.range (m.length / n)).map fun i => (m.drop (n * i)).take n

/-- What is left behind the last whole block. -/
def remainder (n : Nat) (m : List α) : List α := m.drop (n * (m.length / n))

theorem length_remainder : (remainder n m).length = m.length % n := by
  rw [remainder, List.length_drop, Nat.mod_def]

theorem blocks_short (h : m.length < n) : blocks n m = [] := by
  rw [blocks, Nat.div_eq_of_lt h]
  rfl

theorem remainder_short (h : m.length < n) : remainder n m = m := by
  rw [remainder, Nat.div_eq_of_lt h]
  rfl

/-- One whole block in front. -/
theorem blocks_cons (hn : 0 < n) (ha : a.length = n) : blocks n (a ++ b) = a :: blocks n b := by
  have hcount : (a ++ b).length / n = b.length / n + 1 := by
    rw [List.length_append, ha, Nat.add_comm, Nat.add_div_right _ hn]
  rw [blocks, hcount, List.range_succ_eq_map, List.map_cons, List.map_map, blocks]
  congr 1
  · rw [Nat.mul_zero, List.drop_zero, ← ha, List.take_left]
  · apply List.map_congr_left
    intro i _
    have hskip : (a ++ b).drop (n * (i + 1)) = b.drop (n * i) := by
      rw [Nat.mul_add, Nat.mul_one, Nat.add_comm, ← List.drop_drop, ← ha, List.drop_left]
    simp only [Function.comp_apply, Nat.succ_eq_add_one, hskip]

theorem remainder_cons (hn : 0 < n) (ha : a.length = n) : remainder n (a ++ b) = remainder n b := by
  have hcount : (a ++ b).length / n = b.length / n + 1 := by
    rw [List.length_append, ha, Nat.add_comm, Nat.add_div_right _ hn]
  rw [remainder, hcount, Nat.mul_add, Nat.mul_one, Nat.add_comm, ← List.drop_drop, ← ha, List.drop_left, remainder]

/-- **`blocks_append`**: whole blocks in front. -/
theorem blocks_append (hn : 0 < n) {k : Nat} (ha : a.length = n * k) :
    blocks n (a ++ b) = blocks n a ++ blocks n b ∧ remainder n (a ++ b) = remainder n b := by
  induction k generalizing a with
  | zero =>
    have hnil : a = [] := List.eq_nil_of_length_eq_zero (by simpa using ha)
    rw [hnil, List.nil_append, @blocks_short α n [] hn]
    exact ⟨rfl, rfl⟩
  | succ k ih =>
    have hlong : n ≤ a.length := by
      rw [ha, Nat.mul_add]
      omega
    have hfront : (a.take n).length = n := List.length_take_of_le hlong
    have hrest : (a.drop n).length = n * k := by
      rw [List.length_drop, ha, Nat.mul_add]
      omega
    obtain ⟨hblocks, hremainder⟩ := ih hrest
    rw [← List.take_append_drop n a, List.append_assoc, blocks_cons hn hfront, remainder_cons hn hfront, hblocks,
      blocks_cons hn hfront]
    exact ⟨rfl, hremainder⟩

/-- The front that has been cut off. -/
theorem split_remainder (n : Nat) (m : List α) :
    ∃ a, a.length = n * (m.length / n) ∧ m = a ++ remainder n m :=
  ⟨m.take (n * (m.length / n)), List.length_take_of_le (Nat.mul_div_le m.length n), (List.take_append_drop _ _).symm⟩

/-- **`blocks_stream`**: what arrives meets the remainder of what came before. -/
theorem blocks_stream (hn : 0 < n) (m d : List α) :
    blocks n (m ++ d) = blocks n m ++ blocks n (remainder n m ++ d) ∧
      remainder n (m ++ d) = remainder n (remainder n m ++ d) := by
  obtain ⟨a, hlength, hm⟩ := split_remainder n m
  have hshort : (remainder n m).length < n := length_remainder ▸ Nat.mod_lt _ hn
  have hwhole : blocks n m = blocks n a := by
    conv_lhs => rw [hm]
    rw [(blocks_append hn hlength).1, blocks_short hshort, List.append_nil]
  have hfront := @blocks_append α n a (remainder n m ++ d) hn _ hlength
  rw [hwhole]
  conv in m ++ d => rw [hm]
  conv in remainder n (m ++ d) => rw [hm]
  rw [List.append_assoc]
  exact hfront

end Lib
