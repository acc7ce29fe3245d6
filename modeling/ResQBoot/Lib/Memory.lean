import ResQBoot.Lib.Bytes

/-!
# Byte-addressed memory

A memory is a total map from addresses to bytes. The lemmas say what a read sees after a write.
-/

namespace ResQBoot

/-- A byte-addressed memory. -/
abbrev Mem := Nat → UInt8

namespace Mem

def write (m : Mem) (a : Nat) (bs : Bytes) : Mem :=
  fun x => if a ≤ x ∧ x < a + bs.length then bs.getD (x - a) 0 else m x

def fill (m : Mem) (a n : Nat) (v : UInt8) : Mem :=
  fun x => if a ≤ x ∧ x < a + n then v else m x

def read (m : Mem) (a n : Nat) : Bytes :=
  (List.range n).map fun i => m (a + i)

@[simp] lemma length_read (m : Mem) (a n : Nat) : (m.read a n).length = n := by
  simp [read]

@[simp] lemma read_zero (m : Mem) (a : Nat) : m.read a 0 = [] := rfl

variable {bs : Bytes} {m m' : Mem} {a n : Nat}

lemma write_outside {x : Nat} (out : x < a ∨ a + bs.length ≤ x) : m.write a bs x = m x := by
  have h : ¬ (a ≤ x ∧ x < a + bs.length) := by omega
  simp [write, h]

@[simp] lemma write_nil (m : Mem) (a : Nat) : m.write a [] = m := by
  funext x
  exact write_outside (Nat.lt_or_ge x a)

lemma fill_outside {x : Nat} {v : UInt8} (out : x < a ∨ a + n ≤ x) : m.fill a n v x = m x := by
  have h : ¬ (a ≤ x ∧ x < a + n) := by omega
  simp [fill, h]

lemma read_congr (eq : ∀ x, a ≤ x → x < a + n → m x = m' x) : m.read a n = m'.read a n := by
  refine List.map_congr_left fun i hi => ?_
  have := List.mem_range.mp hi
  exact eq _ (by omega) (by omega)

lemma read_eq_iff {a' : Nat} : m.read a n = m'.read a' n ↔ ∀ i < n, m (a + i) = m' (a' + i) := by
  simp only [read, List.map_inj_left, List.mem_range]

lemma read_add (m : Mem) (a k n : Nat) : m.read a (k + n) = m.read a k ++ m.read (a + k) n := by
  simp [read, List.range_add, Nat.add_assoc, Function.comp_def]

lemma take_read (m : Mem) (a : Nat) {k : Nat} (le : k ≤ n) : (m.read a n).take k = m.read a k := by
  obtain ⟨d, rfl⟩ := Nat.exists_eq_add_of_le le
  simp [read_add]

lemma drop_read (m : Mem) (a k n : Nat) : (m.read a (k + n)).drop k = m.read (a + k) n := by
  simp [read_add]

@[simp] lemma read_write (m : Mem) (a : Nat) (bs : Bytes) : (m.write a bs).read a bs.length = bs := by
  apply List.ext_getElem
  · simp
  · intro i hi hi'
    simp [read, write, hi']

lemma read_write_take (m : Mem) (a : Nat) (le : n ≤ bs.length) : (m.write a bs).read a n = bs.take n := by
  rw [← take_read _ _ le, read_write]

lemma read_write_disjoint (m : Mem) {c : Nat}
    (dis : a + n ≤ c ∨ c + bs.length ≤ a) : (m.write c bs).read a n = m.read a n :=
  read_congr fun _ h h' => write_outside (by omega)

lemma write_append (m : Mem) (a : Nat) (x y : Bytes) : (m.write a x).write (a + x.length) y = m.write a (x ++ y) := by
  funext i
  rw [write, write, write, List.length_append]
  by_cases second : a + x.length ≤ i ∧ i < a + x.length + y.length
  · rw [if_pos second, if_pos (by omega), List.getD_eq_getElem?_getD, List.getD_eq_getElem?_getD,
      List.getElem?_append_right (by omega), Nat.sub_add_eq]
  rw [if_neg second]
  by_cases first : a ≤ i ∧ i < a + x.length
  · rw [if_pos first, if_pos (by omega), List.getD_eq_getElem?_getD, List.getD_eq_getElem?_getD,
      List.getElem?_append_left (by omega)]
  · rw [if_neg first, if_neg (by omega)]

lemma read_write_append (m : Mem) (a k : Nat) (bs : Bytes) :
    (m.write (a + k) bs).read a (k + bs.length) = m.read a k ++ bs := by
  rw [read_add, read_write, read_write_disjoint _ (by omega)]

lemma held_append {x y : Bytes} (held : m.read a (x ++ y).length = x ++ y) :
    m.read a x.length = x ∧ m.read (a + x.length) y.length = y := by
  rw [List.length_append, read_add] at held
  exact List.append_inj held (length_read _ _ _)

lemma held_head {c : UInt8} {t : Bytes} (held : m.read a (t.length + 1) = c :: t) : m a = c := by
  rw [Nat.add_comm, read_add] at held
  exact (List.cons.inj held).1

end Mem

end ResQBoot
