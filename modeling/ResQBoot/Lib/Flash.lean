import Mathlib.Data.List.GetD
import ResQBoot.Lib.Memory

/-!
# Flash storage

An erased cell reads `0xFF`, and programming can only clear bits. `Mem.lay` is the result of writing a byte string into a
wider erased range; the device write loops all come down to it.
-/

namespace ResQBoot

variable {bs : Bytes} {v : UInt8} {m : Mem}

def roundUp (n u : Nat) : Nat := (n + u - 1) / u * u

lemma ceil_div (n : Nat) {u : Nat} (pos : 0 < u) : (n + u - 1) / u = n / u + if n % u ≠ 0 then 1 else 0 := by
  have split := Nat.div_add_mod n u
  have lt := Nat.mod_lt n pos
  generalize n / u = q at *
  generalize n % u = r at *
  refine Nat.div_eq_of_lt_le ?_ ?_ <;> split
  · rw [Nat.succ_mul, Nat.mul_comm]
    omega
  · rw [Nat.add_zero, Nat.mul_comm]
    omega
  · rw [Nat.succ_mul, Nat.succ_mul, Nat.mul_comm]
    omega
  · rw [Nat.add_zero, Nat.succ_mul, Nat.mul_comm]
    omega

lemma roundUp_one (n : Nat) : roundUp n 1 = n := by simp [roundUp]

lemma le_roundUp {n u : Nat} (pos : 0 < u) : n ≤ roundUp n u := by
  have h := Nat.div_add_mod (n + u - 1) u
  have lt := Nat.mod_lt (n + u - 1) pos
  rw [roundUp, Nat.mul_comm]
  omega

@[simp] lemma roundUp_mul {k u : Nat} (pos : 0 < u) : roundUp (k * u) u = k * u := by
  rw [roundUp, Nat.add_sub_assoc (by omega), Nat.mul_comm k u, Nat.mul_add_div pos,
    Nat.div_eq_of_lt (by omega), Nat.add_zero, Nat.mul_comm]

lemma roundUp_of_dvd {n u : Nat} (pos : 0 < u) (dvd : u ∣ n) : roundUp n u = n := by
  obtain ⟨k, rfl⟩ := dvd
  rw [Nat.mul_comm]
  exact roundUp_mul pos

lemma roundUp_le {n m u : Nat} (pos : 0 < u) (dvd : u ∣ m) (le : n ≤ m) : roundUp n u ≤ m := by
  obtain ⟨k, rfl⟩ := dvd
  rw [roundUp, Nat.mul_comm u k]
  refine Nat.mul_le_mul_right u ?_
  rw [← Nat.lt_succ_iff, Nat.div_lt_iff_lt_mul pos, Nat.succ_mul, Nat.mul_comm k u]
  omega

lemma dvd_roundUp (n u : Nat) : u ∣ roundUp n u := ⟨_, Nat.mul_comm _ _⟩

def patch (buf : Bytes) (off : Nat) (bs : Bytes) : Bytes :=
  buf.take off ++ bs ++ buf.drop (off + bs.length)

lemma length_patch {buf : Bytes} {off : Nat} (fits : off + bs.length ≤ buf.length) :
    (patch buf off bs).length = buf.length := by
  simp only [patch, List.length_append, List.length_take, List.length_drop]
  omega

lemma getD_patch_outside {buf : Bytes} {off k : Nat} (d : UInt8)
    (fits : off + bs.length ≤ buf.length) (out : k < off ∨ off + bs.length ≤ k) :
    (patch buf off bs).getD k d = buf.getD k d := by
  have len : (buf.take off).length = off := by simp; omega
  simp only [List.getD_eq_getElem?_getD, patch, List.append_assoc]
  rcases out with before | after
  · rw [List.getElem?_append_left (by omega), List.getElem?_take_of_lt before]
  · rw [List.getElem?_append_right (by omega), len, List.getElem?_append_right (by omega), List.getElem?_drop]
    congr 2
    omega

namespace Mem

lemma getD_read (m : Mem) {a n i : Nat} (d : UInt8) (lt : i < n) : (m.read a n).getD i d = m (a + i) := by
  simp [read, List.getD_eq_getElem?_getD, lt]

def lay (m : Mem) (a n : Nat) (bs : Bytes) : Mem :=
  fun x => if a ≤ x ∧ x < a + n then bs.getD (x - a) 0xFF else m x

lemma fill_zero (m : Mem) (a : Nat) (v : UInt8) : m.fill a 0 v = m := by
  funext x
  exact fill_outside (by omega)

lemma fill_fill (m : Mem) (a k n : Nat) (v : UInt8) : (m.fill a k v).fill (a + k) n v = m.fill a (k + n) v := by
  funext x
  by_cases low : a ≤ x ∧ x < a + k
  · have h : ¬ (a + k ≤ x ∧ x < a + k + n) := by omega
    have h' : a ≤ x ∧ x < a + (k + n) := by omega
    simp only [fill, h, low, h', and_self, if_true, if_false]
  · have h : (a + k ≤ x ∧ x < a + k + n) ↔ (a ≤ x ∧ x < a + (k + n)) := by omega
    simp only [fill, h, low, if_false]

def program (m : Mem) (a : Nat) (bs : Bytes) : Mem :=
  fun x => if a ≤ x ∧ x < a + bs.length then m x &&& bs.getD (x - a) 0 else m x

@[simp] lemma program_nil (m : Mem) (a : Nat) : m.program a [] = m := by
  funext x
  have h : ¬ (a ≤ x ∧ x < a + ([] : Bytes).length) := by simp
  simp only [program, h, if_false]

lemma program_outside {a x : Nat} (out : x < a ∨ a + bs.length ≤ x) :
    m.program a bs x = m x := by
  have h : ¬ (a ≤ x ∧ x < a + bs.length) := by omega
  simp only [program, h, if_false]

lemma program_append (m : Mem) (a : Nat) (bs cs : Bytes) :
    m.program a (bs ++ cs) = (m.program a bs).program (a + bs.length) cs := by
  funext x
  simp only [program, List.length_append]
  by_cases low : a ≤ x ∧ x < a + bs.length
  · have h : ¬ (a + bs.length ≤ x ∧ x < a + bs.length + cs.length) := by omega
    have h' : a ≤ x ∧ x < a + (bs.length + cs.length) := by omega
    simp only [low, h, h', and_self, if_true, if_false]
    rw [List.getD_append _ _ _ _ (by omega)]
  · by_cases high : a + bs.length ≤ x ∧ x < a + bs.length + cs.length
    · have h' : a ≤ x ∧ x < a + (bs.length + cs.length) := by omega
      rw [if_pos h', if_pos high, if_neg low]
      rw [List.getD_append_right _ _ _ _ (by omega), Nat.sub_sub]
    · have h' : ¬ (a ≤ x ∧ x < a + (bs.length + cs.length)) := by omega
      simp only [low, high, h', if_false]

lemma blank_and (v : UInt8) : (0xFF : UInt8) &&& v = v := by
  have all : ∀ w : BitVec 8, (255#8) &&& w = w := by decide
  exact UInt8.toBitVec_inj.mp (all v.toBitVec)

lemma program_fill (m : Mem) {a n : Nat} (fits : bs.length ≤ n) :
    (m.fill a n 0xFF).program a bs = m.lay a n bs := by
  funext x
  simp only [program, fill, lay]
  by_cases inside : a ≤ x ∧ x < a + bs.length
  · have h : a ≤ x ∧ x < a + n := by omega
    have lt : x - a < bs.length := by omega
    simp only [inside, h, and_self, if_true, blank_and]
    rw [List.getD_eq_getElem _ _ lt, List.getD_eq_getElem _ _ lt]
  · by_cases h : a ≤ x ∧ x < a + n
    · rw [if_neg inside, if_pos h, if_pos h]
      rw [List.getD_eq_default _ _ (by omega)]
    · simp only [inside, h, if_false]

def burn (m : Mem) (a n : Nat) (v : UInt8) (bs : Bytes) : Mem :=
  fun x => if a ≤ x ∧ x < a + n then bs.getD (x - a) v else m x

lemma lay_eq_burn (m : Mem) (a n : Nat) (bs : Bytes) : m.lay a n bs = m.burn a n 0xFF bs := rfl

lemma burn_outside {a n x : Nat} (out : x < a ∨ a + n ≤ x) :
    m.burn a n v bs x = m x := by
  have h : ¬ (a ≤ x ∧ x < a + n) := by omega
  simp only [burn, h, if_false]

lemma burn_inside {a n i : Nat} (inside : i < n) :
    m.burn a n v bs (a + i) = bs.getD i v := by
  have h : a ≤ a + i ∧ a + i < a + n := by omega
  simp only [burn, h, and_self, if_true, Nat.add_sub_cancel_left]

lemma read_burn (m : Mem) {a n : Nat} (fits : bs.length ≤ n) :
    (m.burn a n v bs).read a bs.length = bs := by
  apply List.ext_getElem
  · simp
  · intro i hi hi'
    simp only [read, List.getElem_map, List.getElem_range]
    rw [burn_inside (by omega), List.getD_eq_getElem _ _ hi']

lemma write_fill (m : Mem) {a n : Nat} (fits : bs.length ≤ n) :
    (m.fill a n v).write a bs = m.burn a n v bs := by
  funext x
  simp only [write, fill, burn]
  by_cases inside : a ≤ x ∧ x < a + bs.length
  · have h : a ≤ x ∧ x < a + n := by omega
    have lt : x - a < bs.length := by omega
    simp only [inside, h, and_self, if_true]
    rw [List.getD_eq_getElem _ _ lt, List.getD_eq_getElem _ _ lt]
  · by_cases h : a ≤ x ∧ x < a + n
    · rw [if_neg inside, if_pos h, if_pos h]
      rw [List.getD_eq_default _ _ (by omega)]
    · simp only [inside, h, if_false]

end Mem

end ResQBoot
