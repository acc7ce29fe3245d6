import ResQBoot.Lib.Bytes

/-!
# Percent encodings

`application/x-www-form-urlencoded` and the encoding of `encodeURIComponent`. As the case of the hexadecimal digits is
free, an encoding is a relation between a text and its encoded form.
-/

namespace ResQBoot

inductive Encoding where
  | form
  | component
  deriving DecidableEq, Repr

def isAlnum (c : UInt8) : Bool := isDigit c || (65 ≤ c && c ≤ 90) || (97 ≤ c && c ≤ 122)

def Encoding.safe : Encoding → UInt8 → Bool
  | .form, c => isAlnum c || [42, 45, 46, 95].contains c
  | .component, c => isAlnum c || [45, 95, 46, 33, 126, 42, 39, 40, 41].contains c

inductive EncodesByte (enc : Encoding) (c : UInt8) : Bytes → Prop where
  | kept (safe : enc.safe c = true) : EncodesByte enc c [c]
  | plus (form : enc = .form) (blank : c = 32) : EncodesByte enc c [43]
  | escaped {h l : UInt8} (special : enc.safe c = false) (high : xdigit h = some (c.toNat / 16))
      (low : xdigit l = some (c.toNat % 16)) : EncodesByte enc c [37, h, l]

inductive Encodes (enc : Encoding) : Bytes → Bytes → Prop where
  | nil : Encodes enc [] []
  | cons {c : UInt8} {x v t : Bytes} (head : EncodesByte enc c x) (tail : Encodes enc v t) :
      Encodes enc (c :: v) (x ++ t)

section

variable {enc : Encoding} {c : UInt8} {v t x : Bytes}

lemma Encoding.safe_plain (safe : enc.safe c = true) : c ≠ 0 ∧ c ≠ 37 ∧ c ≠ 38 ∧ c ≠ 43 ∧ c ≠ 61 := by
  refine ⟨?_, ?_, ?_, ?_, ?_⟩ <;> rintro rfl <;> cases enc <;> cases safe

lemma Encoding.safe_digit (digit : isDigit c = true) : enc.safe c = true := by
  cases enc <;> simp [Encoding.safe, isAlnum, digit]

lemma xdigit_plain {n : Nat} (digit : xdigit c = some n) : c ≠ 0 ∧ c ≠ 38 ∧ c ≠ 61 := by
  refine ⟨?_, ?_, ?_⟩ <;> rintro rfl <;> cases digit

lemma Encodes.plain (encodes : Encodes enc v t) : ∀ c ∈ t, c ≠ 0 ∧ c ≠ 38 ∧ c ≠ 61 := by
  induction encodes with
  | nil => rintro c ⟨⟩
  | cons head tail ih =>
    intro c mem
    rcases List.mem_append.mp mem with mem | mem
    · cases head with
      | kept safe =>
        obtain rfl := List.mem_singleton.mp mem
        have plain := Encoding.safe_plain safe
        exact ⟨plain.1, plain.2.2.1, plain.2.2.2.2⟩
      | plus form blank =>
        obtain rfl := List.mem_singleton.mp mem
        decide
      | escaped special high low =>
        simp only [List.mem_cons, List.not_mem_nil, or_false] at mem
        rcases mem with rfl | rfl | rfl
        · decide
        · exact xdigit_plain high
        · exact xdigit_plain low
    · exact ih c mem

lemma Encodes.digits (encodes : Encodes enc v t) (digits : ∀ c ∈ v, isDigit c = true) : t = v := by
  induction encodes with
  | nil => rfl
  | cons head tail ih =>
    obtain ⟨digit, rest⟩ := List.forall_mem_cons.mp digits
    rw [ih rest]
    cases head with
    | kept safe => rfl
    | plus form blank =>
      rw [blank] at digit
      cases digit
    | escaped special high low =>
      rw [Encoding.safe_digit digit] at special
      cases special

end

end ResQBoot
