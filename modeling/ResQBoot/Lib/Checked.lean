import ResQBoot.Lib.Fields

/-!
# Checked runs

A run that stops at the first access behind the end of a buffer and at the first number that leaves its type. A
program that is written with these operations and never stops makes no such access, and its result is that of the
same program without the checks.
-/

namespace ResQBoot

inductive Fault where
  | access (o n : Nat)
  | overflow
  deriving DecidableEq, Repr

abbrev Checked (α : Type) := Except Fault α

structure Buffer where
  ram : Mem
  addr : Nat
  size : Nat

namespace Buffer

def bytes (b : Buffer) : Bytes := b.ram.read b.addr b.size

def load (b : Buffer) (o n : Nat) : Checked Bytes :=
  if o + n ≤ b.size then .ok (b.ram.read (b.addr + o) n) else .error (.access o n)

def peek (b : Buffer) (a n : Nat) : Checked Bytes :=
  if b.addr ≤ a ∧ a + n ≤ b.addr + b.size then .ok (b.ram.read a n) else .error (.access a n)

def loadField (b : Buffer) (o n : Nat) : Checked Nat := do return leNat (← b.load o n)

end Buffer

namespace Checked

def sub (a b : Nat) : Checked Nat := if b ≤ a then .ok (a - b) else .error .overflow

def cast (w a : Nat) : Checked Nat := if a < 2 ^ w then .ok a else .error .overflow

def mul (w a b : Nat) : Checked Nat := cast w (a * b)

variable {a b w : Nat}

lemma sub_ok (le : b ≤ a) : sub a b = .ok (a - b) := if_pos le

lemma cast_ok (lt : a < 2 ^ w) : cast w a = .ok a := if_pos lt

lemma mul_ok (lt : a * b < 2 ^ w) : mul w a b = .ok (a * b) := if_pos lt

@[simp] lemma ok_bind {α β : Type} (x : α) (f : α → Checked β) : ((.ok x : Checked α) >>= f) = f x := rfl

end Checked

namespace Buffer

variable {b : Buffer} {o n : Nat}

@[simp] lemma length_bytes (b : Buffer) : b.bytes.length = b.size := Mem.length_read _ _ _

lemma load_ok (inside : o + n ≤ b.size) : b.load o n = .ok (slice b.bytes o n) := by
  have held : b.ram.read b.addr b.bytes.length = b.bytes := by rw [length_bytes, bytes]
  rw [load, if_pos inside, Mem.read_slice held (by rwa [length_bytes])]

lemma peek_ok {a : Nat} (inside : b.addr ≤ a ∧ a + n ≤ b.addr + b.size) : b.peek a n = .ok (b.ram.read a n) :=
  if_pos inside

lemma loadField_ok (inside : o + n ≤ b.size) : b.loadField o n = .ok (field b.bytes o n) := by
  rw [loadField, load_ok inside]
  rfl

end Buffer

end ResQBoot
