import Mathlib.Tactic.Lemma
import Mathlib.Data.List.Basic
import Mathlib.Algebra.Order.Group.Nat

/-!
# Byte strings

C strings as lists of bytes: the C string at an offset of a buffer is everything up to the first NUL (`cstr`). `strstr`
and `strchr` return an absolute offset. `simpleStrto` is `simple_strtoul` for an unsigned type of `w` bits, with the rest
of the string (`endp`).
-/

namespace ResQBoot

/-- A string of bytes. -/
abbrev Bytes := List UInt8

def bytes (s : String) : Bytes := s.toUTF8.data.toList

def cstr (d : Bytes) : Bytes := d.takeWhile (· ≠ 0)

def find (pat : Bytes) : Bytes → Option Nat
  | [] => if pat.isEmpty then some 0 else none
  | x :: t => if pat.isPrefixOf (x :: t) then some 0 else (find pat t).map (· + 1)

lemma find_le {pat : Bytes} : ∀ {l : Bytes} {k : Nat}, find pat l = some k → k + pat.length ≤ l.length := by
  intro l
  induction l with
  | nil =>
    intro k h
    cases pat with
    | nil => obtain rfl : 0 = k := by simpa [find] using h
             simp
    | cons => simp [find] at h
  | cons x t ih =>
    intro k h
    rw [find] at h
    split at h
    · rename_i pre
      obtain rfl : 0 = k := by simpa using h
      simpa using (List.isPrefixOf_iff_prefix.mp pre).length_le
    · obtain ⟨j, hj, rfl⟩ := Option.map_eq_some_iff.mp h
      have := ih hj
      simp only [List.length_cons]
      omega

def strstr (d : Bytes) (off : Nat) (pat : Bytes) : Option Nat :=
  (find pat (cstr (d.drop off))).map (off + ·)

def strchr (d : Bytes) (off : Nat) (c : UInt8) : Option Nat :=
  strstr d off [c]

def hasAt (d : Bytes) (off : Nat) (lit : Bytes) : Bool :=
  lit.isPrefixOf (d.drop off)

def decimal (n : Nat) : Bytes :=
  (Nat.toDigits 10 n).map fun c => UInt8.ofNat c.toNat

def isDigit (c : UInt8) : Bool := 48 ≤ c && c ≤ 57

def xdigit (c : UInt8) : Option Nat :=
  if isDigit c then some (c.toNat - 48)
  else if 97 ≤ c && c ≤ 102 then some (c.toNat - 97 + 10)
  else if 65 ≤ c && c ≤ 70 then some (c.toNat - 65 + 10)
  else none

def strtoLoop (w base : Nat) : Nat → Bytes → Nat × Bytes
  | acc, [] => (acc, [])
  | acc, c :: t =>
    match xdigit c with
    | some v => if v < base then strtoLoop w base ((acc * base + v) % 2 ^ w) t else (acc, c :: t)
    | none => (acc, c :: t)

def simpleStrto (w base : Nat) (s : Bytes) : Nat × Bytes :=
  match s with
  | 48 :: 120 :: t =>
    if (t.head?.bind xdigit).isSome then strtoLoop w 16 0 t
    else strtoLoop w (if base = 0 then 8 else base) 0 (120 :: t)
  | 48 :: t => strtoLoop w (if base = 0 then 8 else base) 0 t
  | _ => strtoLoop w (if base = 0 then 10 else base) 0 s

end ResQBoot
