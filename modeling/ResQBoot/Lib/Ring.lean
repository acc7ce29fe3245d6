import Mathlib.Data.List.DropRight
import Mathlib.Data.List.GetD
import ResQBoot.Lib.Memory

/-!
# Ring buffers

A ring of `n` cells that keeps the end of a stream of bytes: byte `j` of the stream has the cell `j % n`. `push` is the
copy in two parts, and `pull` the read in two parts.
-/

namespace ResQBoot.Ring

variable {n : Nat} {src : Bytes}

lemma add_mod_of_lt {i : Nat} (a : Nat) (lt : i < n) :
    (a + i) % n = if a % n + i < n then a % n + i else a % n + i - n := by
  rw [Nat.add_mod_eq_ite, Nat.mod_eq_of_lt lt]
  split <;> split <;> omega

lemma mod_ne {j k : Nat} (lt : j < k) (near : k < j + n) : k % n ≠ j % n := by
  obtain ⟨d, rfl⟩ := Nat.exists_eq_add_of_lt lt
  rw [Nat.add_assoc, add_mod_of_lt j (by omega : d + 1 < n)]
  have := Nat.mod_lt j (by omega : 0 < n)
  split <;> omega

def push (n : Nat) (m : Mem) (head : Nat) (src : Bytes) : Mem :=
  let first := min src.length (n - head)
  (m.write head (src.take first)).write 0 (src.drop first)

def pull (n : Nat) (m : Mem) (pos len : Nat) : Bytes :=
  let first := min len (n - pos)
  m.read pos first ++ m.read 0 (len - first)

lemma push_new (m : Mem) (a : Nat) {i : Nat} (fits : src.length ≤ n) (lt : i < src.length) :
    push n m (a % n) src ((a + i) % n) = src.getD i 0 := by
  have below := Nat.mod_lt a (by omega : 0 < n)
  rw [add_mod_of_lt a (by omega), push]
  split
  · rename_i straight
    -- In the first part, which the second does not reach.
    rw [Mem.write_outside (by simp only [List.length_drop]; omega), Mem.write]
    rw [if_pos (by simp only [List.length_take]; omega), Nat.add_sub_cancel_left, List.getD_eq_getElem?_getD,
      List.getElem?_take_of_lt (by omega), ← List.getD_eq_getElem?_getD]
  · rename_i wraps
    rw [Mem.write, if_pos (by simp only [List.length_drop]; omega), List.getD_eq_getElem?_getD,
      List.getElem?_drop, ← List.getD_eq_getElem?_getD]
    congr 1
    omega

lemma push_old (m : Mem) (a : Nat) {x : Nat} (fits : src.length ≤ n) (cell : x < n)
    (other : ∀ i, i < src.length → x ≠ (a + i) % n) : push n m (a % n) src x = m x := by
  have below := Nat.mod_lt a (by omega : 0 < n)
  -- Where `x` is written, it is the cell of a byte that is copied.
  have clear : ∀ i, i < src.length → x ≠ if a % n + i < n then a % n + i else a % n + i - n := by
    intro i lt
    rw [← add_mod_of_lt a (by omega)]
    exact other i lt
  rw [push, Mem.write_outside, Mem.write_outside]
  · simp only [List.length_take]
    by_contra inside
    have := clear (x - a % n) (by omega)
    rw [if_pos (by omega)] at this
    omega
  · right
    simp only [List.length_drop]
    by_contra inside
    have := clear (x + (n - a % n)) (by omega)
    rw [if_neg (by omega)] at this
    omega

def Holds (n : Nat) (m : Mem) (l : Bytes) : Prop :=
  ∀ j, j < l.length → l.length ≤ j + n → l.getD j 0 = m (j % n)

lemma Holds.nil (m : Mem) : Holds n m [] := fun _ lt => absurd lt (Nat.not_lt_zero _)

lemma Holds.push {m : Mem} {l : Bytes} (pos : 0 < n) (holds : Holds n m l) (fits : src.length ≤ n) :
    Holds n (push n m (l.length % n) src) (l ++ src) := by
  intro j lt recent
  rw [List.length_append] at lt recent
  rcases Nat.lt_or_ge j l.length with old | new
  · rw [List.getD_append _ _ _ _ old, push_old m l.length fits (Nat.mod_lt _ pos)]
    · exact holds j old (by omega)
    · intro i copied
      exact (mod_ne (by omega) (by omega)).symm
  · obtain ⟨i, rfl⟩ := Nat.exists_eq_add_of_le new
    rw [push_new m l.length fits (by omega), List.getD_append_right _ _ _ _ (by omega), Nat.add_sub_cancel_left]

lemma pull_eq (m : Mem) (a : Nat) {len : Nat} (pos : 0 < n) (fits : len ≤ n) :
    pull n m (a % n) len = (List.range len).map fun i => m ((a + i) % n) := by
  have below := Nat.mod_lt a pos
  rw [pull]
  generalize first_eq : min len (n - a % n) = first
  have split : (List.range len).map (fun i => m ((a + i) % n)) =
      (List.range (first + (len - first))).map fun i => m ((a + i) % n) := by
    rw [Nat.add_sub_cancel' (by omega)]
  rw [split, List.range_add, List.map_append, List.map_map, Mem.read, Mem.read]
  congr 1
  · refine List.map_congr_left fun i mem => ?_
    have := List.mem_range.mp mem
    rw [add_mod_of_lt a (by omega), if_pos (by omega)]
  · refine List.map_congr_left fun i mem => ?_
    have := List.mem_range.mp mem
    rw [Function.comp_apply, add_mod_of_lt a (by omega), if_neg (by omega)]
    congr 1
    omega

lemma Holds.pull {m : Mem} {l : Bytes} {len : Nat} (pos : 0 < n) (holds : Holds n m l) (fits : len ≤ n)
    (inside : len ≤ l.length) : pull n m ((l.length - len) % n) len = l.rtake len := by
  rw [pull_eq m _ pos fits, List.rtake]
  apply List.ext_getElem
  · simp only [List.length_map, List.length_range, List.length_drop]
    omega
  intro i lt _
  rw [List.length_map, List.length_range] at lt
  have cell := holds (l.length - len + i) (by omega) (by omega)
  rw [List.getElem_map, List.getElem_range, List.getElem_drop, ← cell]
  exact List.getD_eq_getElem _ _ (by omega)

end ResQBoot.Ring
