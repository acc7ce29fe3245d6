import ResQBoot.Lib.Flash

/-!
# Little-endian fields of a byte string

A field of a packed C structure is a range read as a little-endian number. The lemmas say what `slice` and `field` see
after a `patch` or a `put`.
-/

namespace ResQBoot

def slice (b : Bytes) (o n : Nat) : Bytes := (b.drop o).take n

def leNat : Bytes → Nat
  | [] => 0
  | x :: t => x.toNat + 256 * leNat t

def toLe : Nat → Nat → Bytes
  | 0, _ => []
  | n + 1, v => UInt8.ofNat (v % 256) :: toLe n (v / 256)

def field (b : Bytes) (o n : Nat) : Nat := leNat (slice b o n)

def put (b : Bytes) (o n v : Nat) : Bytes := patch b o (toLe n v)

@[simp] lemma length_toLe (n v : Nat) : (toLe n v).length = n := by
  induction n generalizing v with
  | zero => rfl
  | succ n ih => simp [toLe, ih]

lemma leNat_toLe (n v : Nat) : leNat (toLe n v) = v % 256 ^ n := by
  induction n generalizing v with
  | zero => simp [toLe, leNat, Nat.mod_one]
  | succ n ih =>
    have low : (UInt8.ofNat (v % 256)).toNat = v % 256 := by
      rw [UInt8.toNat_ofNat']
      exact Nat.mod_eq_of_lt (by omega)
    rw [toLe, leNat, ih, low, Nat.pow_succ, Nat.mul_comm (256 ^ n), Nat.mod_mul]

variable {b bs xs ys : Bytes} {k n o off v w : Nat}

lemma length_slice (fits : o + n ≤ b.length) : (slice b o n).length = n := by
  simp only [slice, List.length_take, List.length_drop]
  omega

lemma slice_byte {i : Nat} (lt : i < bs.length) (v : UInt8) : slice bs i 1 = [v] ↔ bs.getD i 0 = v := by
  rw [slice, List.drop_eq_getElem_cons lt, List.take_succ_cons, List.take_zero, List.getD_eq_getElem _ _ lt]
  simp

lemma slice_slice {o' n' : Nat} (inside : o' + n' ≤ n) : slice (slice b o n) o' n' = slice b (o + o') n' := by
  rw [slice, slice, slice, List.drop_take, List.drop_drop, List.take_take, Nat.min_eq_left (by omega)]

lemma slice_take (inside : o + n ≤ k) : slice (b.take k) o n = slice b o n := by
  rw [slice, slice, List.drop_take, List.take_take, Nat.min_eq_left (by omega)]

lemma slice_append_left {c : Bytes} (inside : o + n ≤ b.length) : slice (b ++ c) o n = slice b o n := by
  rw [slice, slice, List.drop_append_of_le_length (by omega), List.take_append_of_le_length (by simp; omega)]

lemma slice_append_right (b c : Bytes) : slice (b ++ c) b.length c.length = c := by
  rw [slice, List.drop_left, List.take_length]

lemma slice_patch_other (fits : off + bs.length ≤ b.length)
    (apart : o + n ≤ off ∨ off + bs.length ≤ o) : slice (patch b off bs) o n = slice b o n := by
  have len : (b.take off).length = off := by simp; omega
  rw [slice, slice, patch, List.append_assoc]
  rcases apart with before | after
  · rw [List.drop_append_of_le_length (by omega), List.take_append_of_le_length (by simp; omega)]
    rw [List.drop_take, List.take_take, Nat.min_eq_left (by omega)]
  · rw [List.drop_append, List.drop_eq_nil_of_le (by omega), List.nil_append, len, List.drop_append,
      List.drop_eq_nil_of_le (by omega), List.nil_append, List.drop_drop]
    congr 2
    omega

lemma slice_patch_same (fits : off + bs.length ≤ b.length) : slice (patch b off bs) off bs.length = bs := by
  have len : (b.take off).length = off := by simp; omega
  rw [slice, patch, List.append_assoc, List.drop_append, List.drop_eq_nil_of_le (by omega), len,
    Nat.sub_self, List.drop_zero, List.nil_append, List.take_left]

lemma patch_slice (fits : off + n ≤ b.length) : patch b off (slice b off n) = b := by
  rw [patch, length_slice fits, slice, List.append_assoc, ← List.drop_drop, List.take_append_drop,
    List.take_append_drop]

lemma patch_append {a : Bytes} (fits : off + bs.length ≤ a.length) : patch (a ++ b) off bs = patch a off bs ++ b := by
  rw [patch, patch, List.take_append_of_le_length (by omega), List.drop_append_of_le_length fits]
  simp

lemma patch_patch (fits : off + xs.length ≤ b.length)
    (same : xs.length = ys.length) : patch (patch b off xs) off ys = patch b off ys := by
  have len : (b.take off).length = off := by simp; omega
  rw [patch, patch, patch]
  congr 1
  · rw [List.append_assoc, List.take_left' len]
  · rw [← same, List.drop_left' (by simp; omega)]

lemma patch_getElem? (fits : off + bs.length ≤ b.length) (i : Nat) :
    (patch b off bs)[i]? = if off ≤ i ∧ i < off + bs.length then bs[i - off]? else b[i]? := by
  have len : (b.take off).length = off := by simp; omega
  rw [patch, List.append_assoc]
  by_cases before : i < off
  · rw [if_neg (by omega), List.getElem?_append_left (by omega), List.getElem?_take_of_lt before]
  rw [List.getElem?_append_right (by omega), len]
  by_cases inside : i < off + bs.length
  · rw [if_pos (by omega), List.getElem?_append_left (by omega)]
  · rw [if_neg (by omega), List.getElem?_append_right (by omega), List.getElem?_drop]
    congr 1
    omega

lemma patch_comm {p : Nat} (xFits : o + xs.length ≤ b.length) (yFits : p + ys.length ≤ b.length)
    (apart : o + xs.length ≤ p ∨ p + ys.length ≤ o) : patch (patch b o xs) p ys = patch (patch b p ys) o xs := by
  apply List.ext_getElem?
  intro i
  rw [patch_getElem? (by rw [length_patch xFits]; exact yFits), patch_getElem? xFits,
    patch_getElem? (by rw [length_patch yFits]; exact xFits), patch_getElem? yFits]
  split
  · rw [if_neg (by omega)]
  · rfl

lemma patch_take (inside : off + bs.length ≤ k) (fits : k ≤ b.length) :
    (patch b off bs).take k = patch (b.take k) off bs := by
  have len : (b.take off).length = off := by simp; omega
  rw [patch, patch, List.append_assoc, List.append_assoc, List.take_append, List.take_append, len, List.take_take,
    List.take_take, Nat.min_eq_right (by omega : off ≤ k), Nat.min_eq_left (by omega : off ≤ k),
    List.take_of_length_le (by omega : bs.length ≤ k - off), List.drop_take, Nat.sub_sub]

lemma length_put (fits : o + n ≤ b.length) (v : Nat) : (put b o n v).length = b.length :=
  length_patch (by simpa using fits)

lemma field_put_other (v : Nat) (fits : off + w ≤ b.length)
    (apart : o + n ≤ off ∨ off + w ≤ o) : field (put b off w v) o n = field b o n := by
  rw [field, put, slice_patch_other (by simpa using fits) (by simpa using apart), field]

lemma field_put_same (fits : off + w ≤ b.length) (small : v < 256 ^ w) : field (put b off w v) off w = v := by
  have same : slice (patch b off (toLe w v)) off (toLe w v).length = toLe w v :=
    slice_patch_same (by simpa using fits)
  rw [length_toLe] at same
  rw [field, put, same, leNat_toLe, Nat.mod_eq_of_lt small]

lemma leNat_lt (b : Bytes) : leNat b < 256 ^ b.length := by
  induction b with
  | nil => exact Nat.one_pos
  | cons x t ih =>
    have := x.toNat_lt
    rw [leNat, List.length_cons, Nat.pow_succ]
    omega

lemma toLe_leNat (b : Bytes) : toLe b.length (leNat b) = b := by
  induction b with
  | nil => rfl
  | cons x t ih =>
    have lt := x.toNat_lt
    have low : (x.toNat + 256 * leNat t) % 256 = x.toNat := by omega
    have high : (x.toNat + 256 * leNat t) / 256 = leNat t := by omega
    rw [leNat, List.length_cons, toLe, low, high, ih, UInt8.ofNat_toNat]

lemma leNat_eq_iff (small : v < 256 ^ b.length) : leNat b = v ↔ b = toLe b.length v := by
  constructor
  · rintro rfl
    exact (toLe_leNat b).symm
  · intro eq
    rw [eq, leNat_toLe, Nat.mod_eq_of_lt small]

lemma field_lt (b : Bytes) (o n : Nat) : field b o n < 256 ^ n :=
  Nat.lt_of_lt_of_le (leNat_lt _) (Nat.pow_le_pow_right (by decide) (List.length_take_le n _))

/-! ### Stores -/

section Put

variable {b : Bytes} {o n p k : Nat}

lemma put_put (v v' : Nat) (fits : o + n ≤ b.length) : put (put b o n v) o n v' = put b o n v' :=
  patch_patch (by simpa using fits) (by simp)

lemma put_comm (v v' : Nat) (fits : o + n ≤ b.length) (fits' : p + k ≤ b.length) (apart : o + n ≤ p ∨ p + k ≤ o) :
    put (put b o n v) p k v' = put (put b p k v') o n v :=
  patch_comm (by simpa using fits) (by simpa using fits') (by simpa using apart)

lemma put_field (fits : o + n ≤ b.length) : put b o n (field b o n) = b := by
  have same := toLe_leNat (slice b o n)
  rw [length_slice fits] at same
  rw [put, field, same, patch_slice fits]

end Put

variable {n o : Nat}

lemma field_slice {b : Bytes} {i w : Nat} (inside : i + w ≤ n) : field (slice b o n) i w = field b (o + i) w := by
  rw [field, field, slice_slice inside]

lemma slice_add (b : Bytes) (o n k : Nat) : slice b o (n + k) = slice b o n ++ slice b (o + n) k := by
  rw [slice, slice, slice, List.take_add, List.drop_drop]

lemma Mem.read_slice {m : Mem} {a : Nat} {data : Bytes} (held : m.read a data.length = data)
    (inside : o + n ≤ data.length) : m.read (a + o) n = slice data o n := by
  obtain ⟨rest, split⟩ := Nat.exists_eq_add_of_le inside
  rw [slice, ← held, split, Nat.add_assoc, Mem.drop_read, Mem.take_read _ _ (by omega)]

lemma and_high (n k : Nat) (le : k ≤ 32) : n &&& (2 ^ 32 - 2 ^ k) = n % 2 ^ 32 / 2 ^ k * 2 ^ k := by
  have mask : 2 ^ 32 - 2 ^ k = (2 ^ (32 - k) - 1) * 2 ^ k := by
    rw [Nat.sub_mul, ← Nat.pow_add, Nat.sub_add_cancel le, Nat.one_mul]
  rw [mask]
  apply Nat.eq_of_testBit_eq
  intro i
  rw [Nat.testBit_and, Nat.testBit_mul_two_pow, Nat.testBit_mul_two_pow, Nat.testBit_two_pow_sub_one,
    Nat.testBit_div_two_pow, Nat.testBit_mod_two_pow]
  by_cases high : k ≤ i
  · have same : i - k < 32 - k ↔ i < 32 := by omega
    simp only [high, same, decide_true, Bool.true_and, Nat.sub_add_cancel high]
    exact Bool.and_comm _ _
  · simp only [high, decide_false, Bool.false_and, Bool.and_false]

end ResQBoot
