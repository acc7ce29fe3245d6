import ResQBoot.Lib.Text

/-!
# Numerals

The value of a row of digits, and what `simple_strtoul` makes of a text: a hexadecimal numeral behind `0x` whatever the
base, a decimal one otherwise, modulo the width of the type.
-/

namespace ResQBoot

def isDigitOf (base : Nat) (c : UInt8) : Bool := ((xdigit c).map fun v => decide (v < base)).getD false

def numeralFrom (base acc : Nat) (l : Bytes) : Nat := l.foldl (fun n c => n * base + (xdigit c).getD 0) acc

def numeral (base : Nat) (l : Bytes) : Nat := numeralFrom base 0 l

lemma le_numeralFrom {base : Nat} (pos : 0 < base) (acc : Nat) (l : Bytes) : acc ≤ numeralFrom base acc l := by
  induction l generalizing acc with
  | nil => exact Nat.le_refl acc
  | cons c l ih =>
    have grows : acc ≤ acc * base := Nat.le_mul_of_pos_right acc pos
    exact Nat.le_trans (Nat.le_add_right_of_le grows) (ih _)

lemma numeralFrom_lt {base : Nat} {l : Bytes} (digits : ∀ c ∈ l, isDigitOf base c = true) (acc : Nat) :
    numeralFrom base acc l < (acc + 1) * base ^ l.length := by
  induction l generalizing acc with
  | nil =>
    rw [List.length_nil, Nat.pow_zero, Nat.mul_one]
    exact Nat.lt_succ_self acc
  | cons c l ih =>
    have small : (xdigit c).getD 0 < base := by
      have digit := digits c List.mem_cons_self
      rw [isDigitOf] at digit
      cases value : xdigit c with
      | none => simp [value] at digit
      | some v => simpa [value] using digit
    have next : acc * base + (xdigit c).getD 0 + 1 ≤ (acc + 1) * base := by
      rw [Nat.succ_mul]
      omega
    calc numeralFrom base acc (c :: l)
        < (acc * base + (xdigit c).getD 0 + 1) * base ^ l.length := ih (fun c mem => digits c (List.mem_cons_of_mem _ mem)) _
      _ ≤ (acc + 1) * base * base ^ l.length := Nat.mul_le_mul_right _ next
      _ = (acc + 1) * base ^ (l.length + 1) := by rw [Nat.pow_succ, Nat.mul_assoc, Nat.mul_comm base]

def hexPrefixed : Bytes → Bool
  | 48 :: 120 :: c :: _ => (xdigit c).isSome
  | _ => false

lemma hexPrefixed_iff {s : Bytes} :
    hexPrefixed s = true ↔ ∃ c t, s = 48 :: 120 :: c :: t ∧ (xdigit c).isSome = true := by
  constructor
  · intro hex
    unfold hexPrefixed at hex
    split at hex
    · exact ⟨_, _, rfl, hex⟩
    · cases hex
  · rintro ⟨c, t, rfl, digit⟩
    exact digit

lemma hexPrefixed_append {c : UInt8} (other : xdigit c = none ∧ c ≠ 120) (a s : Bytes) :
    hexPrefixed (a ++ c :: s) = hexPrefixed a := by
  rw [Bool.eq_iff_iff, hexPrefixed_iff, hexPrefixed_iff]
  constructor
  · rintro ⟨d, t, eq, some_⟩
    rcases a with _ | ⟨x, _ | ⟨y, _ | ⟨z, a⟩⟩⟩
    · have first := other.1
      rw [(List.cons.inj eq).1] at first
      cases first
    · exact absurd (List.cons.inj (List.cons.inj eq).2).1 other.2
    · have third := (List.cons.inj (List.cons.inj (List.cons.inj eq).2).2).1
      rw [← third, other.1] at some_
      cases some_
    · obtain ⟨rfl, rfl, rfl, -⟩ : x = 48 ∧ y = 120 ∧ z = d ∧ _ := by simpa using eq
      exact ⟨z, a, rfl, some_⟩
  · rintro ⟨d, t, rfl, some_⟩
    exact ⟨d, t ++ c :: s, rfl, some_⟩

lemma isDigitOf_ten (c : UInt8) : isDigitOf 10 c = isDigit c := by
  rw [isDigitOf, xdigit]
  split
  · rename_i digit
    have high : c.toNat ≤ 57 := by
      simp only [isDigit, Bool.and_eq_true, decide_eq_true_eq] at digit
      exact UInt8.le_iff_toNat_le.mp digit.2
    rw [digit, Option.map_some, Option.getD_some, decide_eq_true]
    omega
  · rename_i other
    rw [Bool.not_eq_true] at other
    rw [other]
    split
    · simp
    · split <;> simp

lemma isDigitOf_sixteen (c : UInt8) : isDigitOf 16 c = (xdigit c).isSome := by
  have small : ∀ v, xdigit c = some v → v < 16 := by
    intro v eq
    rw [xdigit] at eq
    split at eq
    · rename_i digit
      cases eq
      simp only [isDigit, Bool.and_eq_true, decide_eq_true_eq] at digit
      have high := UInt8.le_iff_toNat_le.mp digit.2
      change c.toNat ≤ 57 at high
      omega
    · split at eq
      · rename_i letter
        cases eq
        simp only [Bool.and_eq_true, decide_eq_true_eq] at letter
        have high := UInt8.le_iff_toNat_le.mp letter.2
        change c.toNat ≤ 102 at high
        omega
      · split at eq
        · rename_i letter
          cases eq
          simp only [Bool.and_eq_true, decide_eq_true_eq] at letter
          have high := UInt8.le_iff_toNat_le.mp letter.2
          change c.toNat ≤ 70 at high
          omega
        · cases eq
  rw [isDigitOf]
  cases digit : xdigit c with
  | none => rfl
  | some v => simp [small v digit]

lemma isDigit_hex {c : UInt8} (digit : isDigit c = true) : isDigitOf 16 c = true := by
  rw [isDigitOf_sixteen, xdigit, if_pos digit]
  rfl

lemma strtoLoop_eq (w base acc : Nat) (s : Bytes) : strtoLoop w base (acc % 2 ^ w) s =
    (numeralFrom base acc (s.takeWhile (isDigitOf base)) % 2 ^ w, s.dropWhile (isDigitOf base)) := by
  induction s generalizing acc with
  | nil => rfl
  | cons c t ih =>
    rw [strtoLoop, List.takeWhile_cons, List.dropWhile_cons, isDigitOf]
    cases digit : xdigit c with
    | none => rfl
    | some v =>
      simp only [Option.map_some, Option.getD_some, decide_eq_true_eq]
      split
      · have next : (acc % 2 ^ w * base + v) % 2 ^ w = (acc * base + v) % 2 ^ w := by
          rw [Nat.add_mod, Nat.mod_mul_mod, ← Nat.add_mod]
        rw [next, ih, numeralFrom, numeralFrom, List.foldl_cons, digit]
        rfl
      · rfl

lemma strtoLoop_zero (w base : Nat) (s : Bytes) : strtoLoop w base 0 s =
    (numeral base (s.takeWhile (isDigitOf base)) % 2 ^ w, s.dropWhile (isDigitOf base)) := by
  have loop := strtoLoop_eq w base 0 s
  rwa [Nat.zero_mod] at loop

lemma strtoLoop_skip (w : Nat) (t : Bytes) : strtoLoop w 10 0 (48 :: t) = strtoLoop w 10 0 t := by
  rw [strtoLoop]
  simp [xdigit, isDigit]

lemma simpleStrto_ten (w : Nat) (s : Bytes) : simpleStrto w 10 s =
    if hexPrefixed s then
      (numeral 16 ((s.drop 2).takeWhile (isDigitOf 16)) % 2 ^ w, (s.drop 2).dropWhile (isDigitOf 16))
    else (numeral 10 (s.takeWhile isDigit) % 2 ^ w, s.dropWhile isDigit) := by
  have ten : isDigit = isDigitOf 10 := funext fun c => (isDigitOf_ten c).symm
  rw [ten, ← strtoLoop_zero, ← strtoLoop_zero, simpleStrto.eq_def]
  split
  · rename_i t
    have hex : hexPrefixed (48 :: 120 :: t) = (t.head?.bind xdigit).isSome := by
      cases t <;> rfl
    rw [hex]
    split
    · rfl
    · exact (strtoLoop_skip w (120 :: t)).symm
  · rename_i t other
    have plain : hexPrefixed (48 :: t) = false := by
      unfold hexPrefixed
      split
      · rename_i c rest eq
        exact absurd (List.cons.inj eq).2 (other _)
      · rfl
    rw [plain, if_neg Bool.false_ne_true]
    exact (strtoLoop_skip w t).symm
  · rename_i other _
    have plain : hexPrefixed s = false := by
      unfold hexPrefixed
      split
      · rename_i c rest
        exact absurd rfl (other _)
      · rfl
    rw [plain, if_neg Bool.false_ne_true]
    rfl

lemma numeral_decimal (n : Nat) : numeral 10 (decimal n) = n := by
  have digits : (decimal n).takeWhile (isDigitOf 10) = decimal n :=
    List.takeWhile_eq_self_iff.mpr fun c mem => (isDigitOf_ten c).trans (decimal_isDigit mem)
  have mod (w : Nat) : numeral 10 (decimal n) % 2 ^ w = n % 2 ^ w := by
    have loop := strtoLoop_decimal w n []
    rw [List.append_nil, strtoLoop_zero, digits] at loop
    exact congrArg Prod.fst loop
  have large : numeral 10 (decimal n) + n < 2 ^ (numeral 10 (decimal n) + n) := Nat.lt_two_pow_self
  have eq := mod (numeral 10 (decimal n) + n)
  rwa [Nat.mod_eq_of_lt (by omega), Nat.mod_eq_of_lt (by omega)] at eq

lemma simpleStrto_printed (w n : Nat) {rest : Bytes} (other : ∀ c ∈ rest.head?, xdigit c = none ∧ c ≠ 120) :
    simpleStrto w 10 (decimal n ++ rest) = (n % 2 ^ w, rest) := by
  have digits : ∀ c ∈ decimal n, isDigit c = true := fun c mem => decimal_isDigit mem
  have plain : hexPrefixed (decimal n) = false := by
    refine Bool.eq_false_iff.mpr fun hex => ?_
    obtain ⟨c, t, eq, -⟩ := hexPrefixed_iff.mp hex
    cases digits 120 (by rw [eq]; simp)
  have text : hexPrefixed (decimal n ++ rest) = false ∧ (decimal n ++ rest).takeWhile isDigit = decimal n ∧
      (decimal n ++ rest).dropWhile isDigit = rest := by
    cases rest with
    | nil =>
      rw [List.append_nil]
      exact ⟨plain, List.takeWhile_eq_self_iff.mpr digits, List.dropWhile_eq_nil_iff.mpr digits⟩
    | cons c rest =>
      have other := other c rfl
      have stops : isDigit c = false := by
        refine Bool.eq_false_iff.mpr fun digit => ?_
        rw [xdigit, if_pos digit] at other
        cases other.1
      rw [hexPrefixed_append other, List.takeWhile_append_of_pos digits, List.dropWhile_append_of_pos digits,
        List.takeWhile_cons, List.dropWhile_cons, stops]
      exact ⟨plain, List.append_nil _, rfl⟩
  rw [simpleStrto_ten, text.1, text.2.1, text.2.2, numeral_decimal]
  rfl

end ResQBoot
