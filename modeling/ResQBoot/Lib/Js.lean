import Mathlib.Algebra.Order.Group.Nat
import Mathlib.Tactic.Lemma

/-!
# Integer arithmetic of JavaScript

Numbers are doubles: an integer beyond 2⁵³ is rounded. The bit operators take the low 32 bits of both operands, and
their result is a signed number, but for the unsigned shift.
-/

namespace ResQBoot.Js

instance coeInt32 : Coe Int32 Int := ⟨Int32.toInt⟩

def number (x : Int) : Int :=
  let n := x.natAbs
  if n ≤ 2 ^ 53 then x
  else
    let unit := 2 ^ (n.log2 - 52)
    let rest := n % unit
    let up := 2 * rest > unit ∨ 2 * rest = unit ∧ n / unit % 2 = 1
    x.sign * ((if up then n / unit + 1 else n / unit) * unit : Nat)

def add (x y : Int) : Int := number (x + y)

def bits (x : Int) : BitVec 32 := .ofInt 32 x

def bitOr (x y : Int) : Int32 := .ofBitVec (bits x ||| bits y)

def bitAnd (x y : Int) : Int32 := .ofBitVec (bits x &&& bits y)

def bitXor (x y : Int) : Int32 := .ofBitVec (bits x ^^^ bits y)

def bitNot (x : Int) : Int32 := .ofBitVec (~~~bits x)

def shl (x : Int) (n : Nat) : Int32 := .ofBitVec (bits x <<< n)

def ushr (x : Int) (n : Nat) : Int := (bits x >>> n).toNat

@[simp] lemma bits_coe (v : Int32) : bits v = v.toBitVec := BitVec.ofInt_toInt

@[simp] lemma bits_ushr (x : Int) (n : Nat) : bits (ushr x n) = bits x >>> n := by
  rw [ushr, bits, BitVec.ofInt_natCast, BitVec.ofNat_toNat, BitVec.setWidth_eq]

@[simp] lemma toBitVec_bitOr (x y : Int) : (bitOr x y).toBitVec = bits x ||| bits y := rfl

@[simp] lemma toBitVec_bitAnd (x y : Int) : (bitAnd x y).toBitVec = bits x &&& bits y := rfl

@[simp] lemma toBitVec_bitXor (x y : Int) : (bitXor x y).toBitVec = bits x ^^^ bits y := rfl

@[simp] lemma toBitVec_bitNot (x : Int) : (bitNot x).toBitVec = ~~~bits x := rfl

@[simp] lemma toBitVec_shl (x : Int) (n : Nat) : (shl x n).toBitVec = bits x <<< n := rfl

@[simp] lemma bits_zero : bits 0 = 0#32 := rfl

lemma toNat_bits {x : Nat} (lt : x < 2 ^ 32) : (bits x).toNat = x := by
  rw [bits, BitVec.ofInt_natCast, BitVec.toNat_ofNat, Nat.mod_eq_of_lt lt]

lemma ushr_nat {x : Nat} (lt : x < 2 ^ 32) (n : Nat) : ushr x n = (x / 2 ^ n : Nat) := by
  rw [ushr, BitVec.toNat_ushiftRight, toNat_bits lt, Nat.shiftRight_eq_div_pow]

lemma toNat_bitAnd {x : Nat} (lt : x < 2 ^ 32) {y : Int} (low : x &&& (bits y).toNat < 2 ^ 31) :
    (bitAnd x y).toInt.toNat = x &&& (bits y).toNat := by
  have value : (bits x &&& bits y).toNat = x &&& (bits y).toNat := by rw [BitVec.toNat_and, toNat_bits lt]
  change (bits x &&& bits y).toInt.toNat = _
  rw [BitVec.toInt_eq_toNat_of_lt (by omega), value, Int.toNat_natCast]

lemma add_nat {x y : Nat} (le : x + y ≤ 2 ^ 53) : add x y = (x + y : Nat) := if_pos (by omega)

def Small (m : Nat) (x : Int) : Prop := x.natAbs ≤ m * 2 ^ 31

lemma small_coe (v : Int32) : Small 1 v := by
  have low := v.le_toInt
  have high := v.toInt_lt
  rw [Small]
  omega

lemma add_small {m : Nat} {x : Int} (small : Small m x) (v : Int32) (few : m < 1024) :
    bits (add x v) = bits x + v.toBitVec ∧ Small (m + 1) (add x v) := by
  have one := small_coe v
  rw [Small] at small one
  have exact_sum : add x v = x + v := if_pos (by omega)
  rw [exact_sum]
  refine ⟨?_, by rw [Small]; omega⟩
  rw [bits, BitVec.ofInt_add]
  exact congrArg (_ + ·) (bits_coe v)

lemma cut_add {m : Nat} {x : Int} (small : Small m x) (v : Int32) (few : m < 1024) :
    (bitOr (add x v) 0).toBitVec = bits x + v.toBitVec := by
  rw [toBitVec_bitOr, (add_small small v few).1, bits_zero, BitVec.or_zero]

end ResQBoot.Js
