import Mathlib.Data.Nat.NthRoot.Defs
import ResQBoot.Lib.Bytes

/-!
# SHA-256

The hash function of FIPS 180-4 for messages of whole bytes. The constants are the first 32 bits of the fractional
parts of the square and cube roots of the first primes.
-/

namespace ResQBoot.Sha256

abbrev Word := BitVec 32

def rotr (n : Nat) (x : Word) : Word := x >>> n ||| x <<< (32 - n)

def ch (x y z : Word) : Word := x &&& y ^^^ ~~~x &&& z

def maj (x y z : Word) : Word := x &&& y ^^^ x &&& z ^^^ y &&& z

def bigSigma0 (x : Word) : Word := rotr 2 x ^^^ rotr 13 x ^^^ rotr 22 x

def bigSigma1 (x : Word) : Word := rotr 6 x ^^^ rotr 11 x ^^^ rotr 25 x

def sigma0 (x : Word) : Word := rotr 7 x ^^^ rotr 18 x ^^^ x >>> 3

def sigma1 (x : Word) : Word := rotr 17 x ^^^ rotr 19 x ^^^ x >>> 10

def primes : List Nat := (List.range 312).filter fun n => 2 ≤ n && (List.range 18).all fun d => d < 2 || n ≤ d || n % d ≠ 0

def constants : List Word := primes.map fun p => .ofNat 32 (Nat.nthRoot 3 (p * 2 ^ 96))

structure Eight (α : Type) where
  a : α
  b : α
  c : α
  d : α
  e : α
  f : α
  g : α
  h : α
  deriving DecidableEq

def Eight.map {α β : Type} (f : α → β) (v : Eight α) : Eight β :=
  ⟨f v.a, f v.b, f v.c, f v.d, f v.e, f v.f, f v.g, f v.h⟩

def Eight.zipWith {α : Type} (f : α → α → α) (v w : Eight α) : Eight α :=
  ⟨f v.a w.a, f v.b w.b, f v.c w.c, f v.d w.d, f v.e w.e, f v.f w.f, f v.g w.g, f v.h w.h⟩

def Eight.toList {α : Type} (v : Eight α) : List α := [v.a, v.b, v.c, v.d, v.e, v.f, v.g, v.h]

def initial : Eight Word := (⟨2, 3, 5, 7, 11, 13, 17, 19⟩ : Eight Nat).map fun p => .ofNat 32 (Nat.nthRoot 2 (p * 2 ^ 64))

def schedule (m : Nat → Word) (t : Nat) : Word :=
  if t < 16 then m t
  else sigma1 (schedule m (t - 2)) + schedule m (t - 7) + sigma0 (schedule m (t - 15)) + schedule m (t - 16)

def round (k w : Word) (v : Eight Word) : Eight Word :=
  let t1 := v.h + bigSigma1 v.e + ch v.e v.f v.g + k + w
  let t2 := bigSigma0 v.a + maj v.a v.b v.c
  ⟨t1 + t2, v.a, v.b, v.c, v.d + t1, v.e, v.f, v.g⟩

def compress (hash : Eight Word) (m : Nat → Word) : Eight Word :=
  hash.zipWith (· + ·) ((List.range 64).foldl (fun v t => round (constants.getD t 0) (schedule m t) v) hash)

def pad (msg : Bytes) : Bytes :=
  msg ++ [0x80] ++ List.replicate ((119 - msg.length % 64) % 64) 0 ++
    (List.range 8).map fun i => UInt8.ofNat (8 * msg.length / 2 ^ (8 * (7 - i)))

def word (p : Bytes) (o : Nat) : Word :=
  (List.range 4).foldl (fun w i => w <<< 8 ||| (p.getD (o + i) 0).toBitVec.setWidth 32) 0

def hash (msg : Bytes) : Eight Word :=
  (List.range ((pad msg).length / 64)).foldl (fun h i => compress h fun t => word (pad msg) (64 * i + 4 * t)) initial

def hexDigits : Nat → Nat → List Char
  | 0, _ => []
  | k + 1, n => hexDigits k (n / 16) ++ [(n % 16).digitChar]

def hex (msg : Bytes) : List Char := (hash msg).toList.flatMap fun w => hexDigits 8 w.toNat

lemma schedule_ge (m : Nat → Word) {t : Nat} (ge : 16 ≤ t) : schedule m t =
    sigma1 (schedule m (t - 2)) + schedule m (t - 7) + sigma0 (schedule m (t - 15)) + schedule m (t - 16) := by
  rw [schedule, if_neg (Nat.not_lt.mpr ge)]

lemma hexDigits_zero (k : Nat) : hexDigits k 0 = List.replicate k '0' := by
  induction k with
  | zero => rfl
  | succ k ih => rw [hexDigits, Nat.zero_div, ih, List.replicate_succ', Nat.zero_mod, Nat.digitChar]; rfl

lemma hexDigits_eq {k n : Nat} (pos : 0 < k) (lt : n < 16 ^ k) :
    List.replicate (k - (Nat.toDigits 16 n).length) '0' ++ Nat.toDigits 16 n = hexDigits k n := by
  induction k generalizing n with
  | zero => exact absurd pos (Nat.lt_irrefl 0)
  | succ k ih =>
    by_cases small : n < 16
    · rw [Nat.toDigits_of_lt_base small, hexDigits, Nat.div_eq_of_lt small, Nat.mod_eq_of_lt small, hexDigits_zero]
      rfl
    have some : 0 < k := by
      by_contra none
      obtain rfl : k = 0 := by omega
      exact small lt
    rw [Nat.toDigits_of_base_le (by decide) (Nat.not_lt.mp small), hexDigits, List.length_append,
      List.length_singleton, Nat.add_sub_add_right, ← List.append_assoc,
      ih some (Nat.div_lt_of_lt_mul (by rwa [Nat.pow_succ'] at lt))]

end ResQBoot.Sha256
