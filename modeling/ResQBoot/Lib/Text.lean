import Mathlib.Data.List.TakeWhile
import ResQBoot.Lib.Bytes

/-!
# Texts and numbers

A test or a search that ends inside the first part of a text gives the same with anything behind it. A number that is
printed with `decimal` is read back, up to the width of the result.
-/

namespace ResQBoot

def httpBody (message : Bytes) : Bytes :=
  match find (bytes "\r\n\r\n") message with
  | some k => message.drop (k + 4)
  | none => []

variable {a l pat : Bytes} {c : Char} {n : Nat}

/-- What a text says of a literal inside it, it says with anything behind it. -/
lemma hasAt_append {lit : Bytes} (rest : Bytes) {off : Nat} (inside : off + lit.length ≤ a.length) :
    hasAt (a ++ rest) off lit = hasAt a off lit := by
  rw [hasAt, hasAt, List.drop_append_of_le_length (by omega), Bool.eq_iff_iff, List.isPrefixOf_iff_prefix,
    List.isPrefixOf_iff_prefix]
  refine ⟨fun sub => ?_, fun sub => sub.trans (List.prefix_append _ _)⟩
  exact List.prefix_of_prefix_length_le sub (List.prefix_append _ _) (by simp only [List.length_drop]; omega)

lemma hasAt_cat (d : Bytes) (off : Nat) (a b : Bytes) :
    hasAt d off (a ++ b) = (hasAt d off a && hasAt d (off + a.length) b) := by
  rw [hasAt, hasAt, hasAt, ← List.drop_drop]
  generalize d.drop off = l
  induction a generalizing l with
  | nil => simp
  | cons x a ih =>
    cases l with
    | nil => simp
    | cons y l => simp [List.isPrefixOf, ih, Bool.and_assoc]

lemma find_append (rest : Bytes) : ∀ {l : Bytes} {k : Nat}, find pat l = some k → find pat (l ++ rest) = some k := by
  intro l
  induction l with
  | nil =>
    intro k found
    rw [find] at found
    split at found
    · rename_i empty
      cases found
      rw [List.isEmpty_iff.mp empty]
      cases rest <;> rfl
    · cases found
  | cons x t ih =>
    intro k found
    rw [List.cons_append, find]
    rw [find] at found
    split at found
    · rename_i here
      cases found
      rw [if_pos]
      rw [List.isPrefixOf_iff_prefix] at here ⊢
      exact here.trans (List.prefix_append (x :: t) rest)
    · rename_i later
      obtain ⟨j, behind, rfl⟩ := Option.map_eq_some_iff.mp found
      have inside := find_le behind
      rw [if_neg, ih behind]
      · rfl
      rw [List.isPrefixOf_iff_prefix] at later ⊢
      intro sub
      refine later (List.prefix_of_prefix_length_le sub (List.prefix_append (x :: t) rest) ?_)
      rw [List.length_cons]
      omega

lemma cstr_append (rest : Bytes) (plain : 0 ∉ a) : cstr (a ++ rest) = a ++ cstr rest := by
  refine List.takeWhile_append_of_pos fun b mem => ?_
  simp only [ne_eq, decide_not, Bool.not_eq_eq_eq_not, Bool.not_true, decide_eq_false_iff_not]
  rintro rfl
  exact plain mem

lemma cstr_eq_self (plain : 0 ∉ l) : cstr l = l := by
  have whole := cstr_append [] plain
  simpa [cstr] using whole

lemma zero_not_mem_cstr (l : Bytes) : 0 ∉ cstr l := by
  intro mem
  simpa using List.mem_takeWhile_imp mem

lemma cstr_cases (l : Bytes) : cstr l = l ∨ ∃ rest, l = cstr l ++ 0 :: rest := by
  induction l with
  | nil => exact .inl rfl
  | cons c l ih =>
    by_cases zero : c = 0
    · exact .inr ⟨l, by simp [cstr, zero]⟩
    have next : cstr (c :: l) = c :: cstr l := by simp [cstr, zero]
    rw [next]
    obtain whole | ⟨rest, eq⟩ := ih
    · exact .inl (by rw [whole])
    · exact .inr ⟨rest, by rw [List.cons_append, ← eq]⟩

lemma find_take : ∀ {l : Bytes} {k : Nat}, find pat l = some k → find pat (l.take (k + pat.length)) = some k := by
  intro l
  induction l with
  | nil =>
    intro k found
    rw [List.take_nil]
    exact found
  | cons x t ih =>
    intro k found
    rw [find] at found
    split at found
    · rename_i here
      cases found
      rw [List.isPrefixOf_iff_prefix, List.prefix_iff_eq_take] at here
      rw [Nat.zero_add, ← here]
      cases pat with
      | nil => rfl
      | cons y pat => simp [find]
    · rename_i later
      obtain ⟨j, behind, rfl⟩ := Option.map_eq_some_iff.mp found
      rw [show j + 1 + pat.length = j + pat.length + 1 by omega, List.take_succ_cons, find, if_neg, ih behind]
      · rfl
      · rw [List.isPrefixOf_iff_prefix] at later ⊢
        exact fun sub => later (sub.trans (List.take_prefix (j + pat.length + 1) (x :: t)))

lemma strstr_zero_iff {data : Bytes} {p : Nat} :
    strstr data 0 pat = some p ↔ find pat data = some p ∧ 0 ∉ data.take (p + pat.length) := by
  obtain ⟨rest, whole⟩ : cstr data <+: data := List.takeWhile_prefix _
  have start : strstr data 0 pat = find pat (cstr data) := by simp [strstr]
  rw [start]
  constructor
  · intro found
    have inside := find_le found
    have longer := find_append rest found
    rw [whole] at longer
    refine ⟨longer, fun mem => ?_⟩
    rw [← whole, List.take_append_of_le_length inside] at mem
    exact zero_not_mem_cstr _ (List.mem_of_mem_take mem)
  · rintro ⟨found, plain⟩
    have text : cstr data = data.take (p + pat.length) ++ cstr (data.drop (p + pat.length)) := by
      rw [← cstr_append _ plain, List.take_append_drop]
    rw [text, find_append _ (find_take found)]

lemma copied_line_iff {q : UInt8 → Bool} : (cstr (l.take n)).takeWhile q = l.takeWhile q ↔
      (l.takeWhile q).length ≤ n ∧ 0 ∉ l.takeWhile q := by
  constructor
  · intro eq
    have sub : l.takeWhile q <+: cstr (l.take n) := eq ▸ List.takeWhile_prefix _
    refine ⟨?_, fun mem => ?_⟩
    · have short := (sub.trans (List.takeWhile_prefix _)).length_le
      rw [List.length_take] at short
      exact Nat.le_trans short (Nat.min_le_left _ _)
    · exact zero_not_mem_cstr _ (sub.subset mem)
  · rintro ⟨fits, plain⟩
    have cut : l.take n = l.takeWhile q ++ (l.dropWhile q).take (n - (l.takeWhile q).length) := by
      conv_lhs => rw [← List.takeWhile_append_dropWhile (p := q) (l := l)]
      rw [List.take_append, List.take_of_length_le fits]
    rw [cut, cstr_append _ plain, List.takeWhile_append_of_pos fun c mem => List.mem_takeWhile_imp mem]
    -- what follows the line starts with a byte that ends it
    cases rest : l.dropWhile q with
    | nil => simp [cstr]
    | cons c more =>
      have ends : q c = false := by
        have some_ : l.dropWhile q ≠ [] := by
          rw [rest]
          exact List.cons_ne_nil _ _
        have head := List.head_dropWhile_not q some_
        simpa [rest] using head
      cases n - (l.takeWhile q).length with
      | zero => simp [cstr]
      | succ m =>
        rw [List.take_succ_cons, cstr, List.takeWhile_cons]
        split
        · rw [List.takeWhile_cons, ends]
          simp
        · simp

def parseInt (s : Bytes) : Nat :=
  (s.takeWhile isDigit).foldl (fun n c => 10 * n + (c.toNat - 48)) 0

lemma digit_bounds (digit : c.isDigit = true) :
    48 ≤ c.toNat ∧ c.toNat ≤ 57 ∧ (UInt8.ofNat c.toNat).toNat = c.toNat := by
  have bounds : 48 ≤ c.toNat ∧ c.toNat ≤ 57 := by
    simp only [Char.isDigit, Bool.and_eq_true, decide_eq_true_eq] at digit
    exact ⟨UInt32.le_iff_toNat_le.mp digit.1, UInt32.le_iff_toNat_le.mp digit.2⟩
  refine ⟨bounds.1, bounds.2, ?_⟩
  rw [UInt8.toNat_ofNat']
  exact Nat.mod_eq_of_lt (by omega)

lemma isDigit_ofNat (digit : c.isDigit = true) : isDigit (UInt8.ofNat c.toNat) = true := by
  obtain ⟨low, high, same⟩ := digit_bounds digit
  simp only [isDigit, Bool.and_eq_true, decide_eq_true_eq, UInt8.le_iff_toNat_le, same]
  exact ⟨low, high⟩

lemma toDigits_isDigit (mem : c ∈ Nat.toDigits 10 n) : c.isDigit = true :=
  Nat.isDigit_of_mem_toDigits (by decide) (by decide) mem

lemma decimal_isDigit {b : UInt8} (mem : b ∈ decimal n) : isDigit b = true := by
  obtain ⟨c, digit, rfl⟩ := List.mem_map.mp mem
  exact isDigit_ofNat (toDigits_isDigit digit)

lemma decimal_ne_nil (n : Nat) : decimal n ≠ [] :=
  fun none => Nat.toDigits_ne_nil (List.map_eq_nil_iff.mp none)

lemma strtoLoop_digits (w : Nat) (rest : Bytes) : ∀ (cs : List Char) (acc : Nat), (∀ c ∈ cs, c.isDigit = true) →
    strtoLoop w 10 (acc % 2 ^ w) ((cs.map fun c => UInt8.ofNat c.toNat) ++ rest) =
      strtoLoop w 10 (Nat.ofDigitChars 10 cs acc % 2 ^ w) rest := by
  intro cs
  induction cs with
  | nil => intro acc _; rfl
  | cons c cs ih =>
    intro acc digits
    have digit := digits c List.mem_cons_self
    obtain ⟨low, high, same⟩ := digit_bounds digit
    have value : xdigit (UInt8.ofNat c.toNat) = some (c.toNat - 48) := by
      rw [xdigit, if_pos (isDigit_ofNat digit), same]
    have next : (acc % 2 ^ w * 10 + (c.toNat - 48)) % 2 ^ w = (10 * acc + (c.toNat - 48)) % 2 ^ w := by
      rw [Nat.mul_comm 10 acc, Nat.add_mod, Nat.mod_mul_mod, ← Nat.add_mod]
    rw [List.map_cons, List.cons_append, strtoLoop, value]
    simp only
    rw [if_pos (by omega), next, ih _ fun c' mem => digits c' (List.mem_cons_of_mem _ mem), Nat.ofDigitChars_cons]
    rfl

lemma strtoLoop_decimal (w n : Nat) (rest : Bytes) :
    strtoLoop w 10 0 (decimal n ++ rest) = strtoLoop w 10 (n % 2 ^ w) rest := by
  have digits := strtoLoop_digits w rest (Nat.toDigits 10 n) 0 fun _ mem => toDigits_isDigit mem
  rw [Nat.zero_mod, Nat.ofDigitChars_ten_toDigits] at digits
  exact digits

lemma length_decimal {k : Nat} (pos : 0 < k) (lt : n < 10 ^ k) : (decimal n).length ≤ k := by
  rw [decimal, List.length_map]
  exact (Nat.length_toDigits_le_iff (by decide) pos).mpr lt

lemma decimal_inj {m : Nat} (eq : decimal m = decimal n) : m = n := by
  have value (k : Nat) (lt : k < 2 ^ (m + n)) : (strtoLoop (m + n) 10 0 (decimal k ++ [])).1 = k := by
    rw [strtoLoop_decimal]
    exact Nat.mod_eq_of_lt lt
  have bound : m + n < 2 ^ (m + n) := Nat.lt_two_pow_self
  rw [← value m (by omega), eq, value n (by omega)]

lemma simpleStrto_decimal (w n : Nat) (rest : Bytes) :
    simpleStrto w 10 (decimal n ++ 32 :: rest) = (n % 2 ^ w, 32 :: rest) := by
  have loop : strtoLoop w 10 0 (decimal n ++ 32 :: rest) = (n % 2 ^ w, 32 :: rest) := by
    rw [strtoLoop_decimal]
    rfl
  generalize text : decimal n ++ 32 :: rest = s at loop
  rw [simpleStrto.eq_def]
  split
  · -- There is no `x` behind the first digit.
    rename_i t
    cases digits : decimal n with
    | nil => exact absurd digits (decimal_ne_nil n)
    | cons d ds =>
      rw [digits, List.cons_append] at text
      have tail := (List.cons.inj text).2
      cases ds with
      | nil => cases (List.cons.inj tail).1
      | cons d' ds =>
        have digit : isDigit d' = true := decimal_isDigit (n := n) (by rw [digits]; simp)
        rw [(List.cons.inj tail).1] at digit
        cases digit
  · -- A zero in front changes nothing.
    rw [strtoLoop] at loop
    simpa [xdigit, isDigit] using loop
  · exact loop

lemma parseInt_decimal (n : Nat) : parseInt (decimal n) = n := by
  have all : (decimal n).takeWhile isDigit = decimal n := by
    have whole : (decimal n ++ []).takeWhile isDigit = decimal n ++ [].takeWhile isDigit :=
      List.takeWhile_append_of_pos fun b mem => decimal_isDigit mem
    simpa using whole
  have fold : ∀ (cs : List Char) (acc : Nat), (∀ c ∈ cs, c.isDigit = true) →
      (cs.map fun c => UInt8.ofNat c.toNat).foldl (fun n c => 10 * n + (c.toNat - 48)) acc =
        Nat.ofDigitChars 10 cs acc := by
    intro cs
    induction cs with
    | nil => intro acc _; rfl
    | cons c cs ih =>
      intro acc digits
      rw [List.map_cons, List.foldl_cons, (digit_bounds (digits c List.mem_cons_self)).2.2,
        ih _ fun c' mem => digits c' (List.mem_cons_of_mem _ mem), Nat.ofDigitChars_cons]
      rfl
  rw [parseInt, all, decimal, fold _ _ fun _ mem => toDigits_isDigit mem, Nat.ofDigitChars_ten_toDigits]

end ResQBoot
