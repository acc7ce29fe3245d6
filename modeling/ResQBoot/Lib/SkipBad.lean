import ResQBoot.Lib.Flash
import Mathlib.Data.List.Nodup
import Mathlib.Data.List.Range

/-!
# Transfers that skip bad blocks

A transfer goes block by block, passes over the bad ones, and moves one piece for each good block. `cells_pieces` says
which addresses that are, so that what a transfer can reach is a statement about a list.
-/

namespace ResQBoot.Skip

section Transfer

variable (es : Nat) (bad : Nat → Bool)

def good (a n : Nat) : List Nat := (List.range' a n).filter fun x => !bad (x / es)

def pieces : Nat → Nat → Nat → List (Nat × Nat)
  | 0, _, _ => []
  | fuel + 1, off, left =>
    if left = 0 then []
    else if bad (off / es) then pieces fuel (off + (es - off % es)) left
    else
      let len := min left (es - off % es)
      (off, len) :: pieces fuel (off + len) (left - len)

def cells (ps : List (Nat × Nat)) : List Nat := ps.flatMap fun p => List.range' p.1 p.2

variable {es bad}

@[simp] lemma cells_nil : cells [] = [] := rfl

@[simp] lemma cells_cons (o n : Nat) (ps : List (Nat × Nat)) : cells ((o, n) :: ps) = List.range' o n ++ cells ps := rfl

@[simp] lemma pieces_zero (fuel off : Nat) : pieces es bad fuel off 0 = [] := by
  cases fuel <;> simp [pieces]

lemma good_add (a k n : Nat) : good es bad a (k + n) = good es bad a k ++ good es bad (a + k) n := by
  rw [good, ← List.range'_append_1, List.filter_append]
  rfl

lemma good_of_bad {a n q : Nat} (low : q * es ≤ a) (high : a + n ≤ (q + 1) * es) (isBad : bad q = true) :
    good es bad a n = [] := by
  refine List.filter_eq_nil_iff.mpr fun x mem => ?_
  rw [List.mem_range'_1] at mem
  have : x / es = q := Nat.div_eq_of_lt_le (by omega) (by omega)
  simp [this, isBad]

lemma good_of_good {a n q : Nat} (low : q * es ≤ a) (high : a + n ≤ (q + 1) * es) (isGood : bad q = false) :
    good es bad a n = List.range' a n := by
  refine List.filter_eq_self.mpr fun x mem => ?_
  rw [List.mem_range'_1] at mem
  have : x / es = q := Nat.div_eq_of_lt_le (by omega) (by omega)
  simp [this, isGood]

lemma cells_pieces (pos : 0 < es) {fuel off left size : Nat} (end_eq : size = (off / es + fuel) * es)
    (inside : off ≤ size) :
    cells (pieces es bad fuel off left) = (good es bad off (size - off)).take left := by
  induction fuel generalizing off left with
  | zero =>
    have := Nat.div_mul_le_self off es
    have none : size - off = 0 := by
      rw [Nat.add_zero] at end_eq
      omega
    simp [pieces, none, good]
  | succ fuel ih =>
    have split := Nat.div_add_mod off es
    have lt := Nat.mod_lt off pos
    generalize quot : off / es = q at *
    generalize rem : off % es = r at *
    rw [Nat.mul_comm] at split
    have block : (q + 1) * es = q * es + es := by rw [Nat.add_mul, Nat.one_mul]
    have rest : size = (q + 1) * es + fuel * es := by rw [end_eq, ← Nat.add_mul]; congr 1; omega
    have next : off + (es - r) = (q + 1) * es := by omega
    have nextQuot : (off + (es - r)) / es = q + 1 := by rw [next, Nat.mul_div_cancel _ pos]
    have tail : size - off = (es - r) + (size - (off + (es - r))) := by omega
    rw [pieces, quot, rem]
    by_cases done : left = 0
    · simp [done]
    rw [if_neg done, tail, good_add]
    by_cases isBad : bad q = true
    · have skipped : good es bad off (es - r) = [] := good_of_bad (by omega) (by omega) isBad
      rw [if_pos isBad, ih (by rw [nextQuot, rest, ← Nat.add_mul]) (by omega), skipped, List.nil_append]
    have isGood : bad q = false := by simpa using isBad
    have here : good es bad off (es - r) = List.range' off (es - r) :=
      good_of_good (by omega) (by omega) isGood
    have len : (List.range' off (es - r)).length = es - r := List.length_range'
    rw [if_neg isBad, here]
    simp only [cells_cons]
    by_cases short : left ≤ es - r
    · rw [Nat.min_eq_left short, Nat.sub_self, pieces_zero, cells_nil, List.append_nil,
        List.take_append_of_le_length (by omega), List.take_range'_of_length_ge short]
    have long : es - r ≤ left := by omega
    have whole : (List.range' off (es - r)).take left = List.range' off (es - r) :=
      List.take_of_length_le (by rw [len]; exact long)
    rw [Nat.min_eq_right long, ih (by rw [nextQuot, rest, ← Nat.add_mul]) (by omega), List.take_append, whole, len]

lemma mem_good {a n x : Nat} : x ∈ good es bad a n ↔ (a ≤ x ∧ x < a + n) ∧ bad (x / es) = false := by
  rw [good, List.mem_filter, List.mem_range'_1]
  simp

lemma nodup_good (a n : Nat) : (good es bad a n).Nodup := List.Nodup.filter _ List.nodup_range'

lemma take_good_below {a e size n : Nat} (low : a ≤ e) (high : e ≤ size) :
    (∀ x ∈ (good es bad a (size - a)).take n, x < e) ↔
      n ≤ (good es bad a (e - a)).length ∨ good es bad e (size - e) = [] := by
  have cut : good es bad a (size - a) = good es bad a (e - a) ++ good es bad e (size - e) := by
    have whole : good es bad a (e - a + (size - e)) = _ := good_add a (e - a) (size - e)
    rwa [show e - a + (size - e) = size - a by omega, show a + (e - a) = e by omega] at whole
  rw [cut]
  constructor
  · intro below
    by_contra far
    obtain ⟨many, more⟩ := not_or.mp far
    obtain ⟨x, rest, after⟩ := List.exists_cons_of_ne_nil more
    have mem : x ∈ (good es bad a (e - a) ++ good es bad e (size - e)).take n := by
      rw [List.take_append, after]
      refine List.mem_append_right _ ?_
      obtain ⟨k, hk⟩ : ∃ k, n - (good es bad a (e - a)).length = k + 1 :=
        Nat.exists_eq_succ_of_ne_zero (by omega)
      rw [hk, List.take_succ_cons]
      exact List.mem_cons_self
    have here : x ∈ good es bad e (size - e) := by
      rw [after]
      exact List.mem_cons_self
    have := below x mem
    have := (mem_good.mp here).1.1
    omega
  · rintro (few | none) x mem
    · rw [List.take_append_of_le_length few] at mem
      have := (mem_good.mp (List.mem_of_mem_take mem)).1
      omega
    · rw [none, List.append_nil] at mem
      have := (mem_good.mp (List.mem_of_mem_take mem)).1
      omega

end Transfer

end ResQBoot.Skip
