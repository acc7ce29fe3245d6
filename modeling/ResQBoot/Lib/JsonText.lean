import ResQBoot.Lib.Bytes

/-!
# The text of a JSON string

What stands between the quotes of a JSON string: plain characters, the short escapes and the escaped UTF-16 units. A
plain byte stands for itself, so a text in UTF-8 passes; a unit stands for its UTF-8 form, two surrogates for one
character.
-/

namespace ResQBoot

def shortEscape (c : UInt8) : Option UInt8 :=
  if c = 34 ∨ c = 92 ∨ c = 47 then some c
  else if c = 98 then some 8
  else if c = 102 then some 12
  else if c = 110 then some 10
  else if c = 114 then some 13
  else if c = 116 then some 9
  else none

def hexUnit (a b c d : UInt8) : Option Nat := do
  return (((← xdigit a) * 16 + (← xdigit b)) * 16 + (← xdigit c)) * 16 + (← xdigit d)

def jsonPlain (c : UInt8) : Bool := 32 ≤ c && c ≠ 34 && c ≠ 92

inductive JsonChar : Bytes → Prop where
  | plain {c : UInt8} (text : jsonPlain c = true) : JsonChar [c]
  | short {c : UInt8} (known : (shortEscape c).isSome = true) : JsonChar [92, c]
  | unit {a b c d : UInt8} (digits : ∀ x ∈ [a, b, c, d], (xdigit x).isSome = true) : JsonChar [92, 117, a, b, c, d]

def JsonText (t : Bytes) : Prop := ∃ chars : List Bytes, (∀ x ∈ chars, JsonChar x) ∧ t = chars.flatten

inductive JsonItem where
  | byte (c : UInt8)
  | unit (u : Nat)

def jsonItems : Bytes → Option (List JsonItem)
  | [] => some []
  | 92 :: 117 :: a :: b :: c :: d :: t => do
    let u ← hexUnit a b c d
    return .unit u :: (← jsonItems t)
  | 92 :: c :: t => do
    let x ← shortEscape c
    return .byte x :: (← jsonItems t)
  | c :: t => if jsonPlain c then (jsonItems t).map (.byte c :: ·) else none

def utf8 (n : Nat) : Bytes :=
  if n < 0x80 then [UInt8.ofNat n]
  else if n < 0x800 then [UInt8.ofNat (0xc0 + n / 64), UInt8.ofNat (0x80 + n % 64)]
  else if n < 0x10000 then
    [UInt8.ofNat (0xe0 + n / 4096), UInt8.ofNat (0x80 + n / 64 % 64), UInt8.ofNat (0x80 + n % 64)]
  else
    [UInt8.ofNat (0xf0 + n / 262144), UInt8.ofNat (0x80 + n / 4096 % 64), UInt8.ofNat (0x80 + n / 64 % 64),
      UInt8.ofNat (0x80 + n % 64)]

def itemBytes : List JsonItem → Option Bytes
  | [] => some []
  | .byte c :: t => (itemBytes t).map (c :: ·)
  | .unit u :: t =>
    if u < 0xd800 ∨ 0xe000 ≤ u then (itemBytes t).map (utf8 u ++ ·)
    else
      match t with
      | .unit l :: t =>
        if u < 0xdc00 ∧ 0xdc00 ≤ l ∧ l < 0xe000 then
          (itemBytes t).map (utf8 (0x10000 + (u - 0xd800) * 0x400 + (l - 0xdc00)) ++ ·)
        else none
      | _ => none

def jsonUnescape (t : Bytes) : Option Bytes := (jsonItems t).bind itemBytes

section

variable {c : UInt8} {t : Bytes}

lemma jsonItems_plain (text : jsonPlain c = true) : jsonItems (c :: t) = (jsonItems t).map (.byte c :: ·) := by
  have other : c ≠ 92 := by
    rintro rfl
    cases text
  rw [jsonItems, if_pos text]
  · intro a b x y r eq
    exact absurd eq other
  · intro a r eq
    exact absurd eq other

lemma jsonItems_short {x : UInt8} (known : shortEscape c = some x) :
    jsonItems (92 :: c :: t) = (jsonItems t).map (.byte x :: ·) := by
  have other : c ≠ 117 := by
    rintro rfl
    cases known
  rw [jsonItems, known]
  · cases jsonItems t <;> rfl
  · intro a b x y r eq
    exact absurd eq other

lemma jsonUnescape_plain (text : jsonPlain c = true) : jsonUnescape (c :: t) = (jsonUnescape t).map (c :: ·) := by
  rw [jsonUnescape, jsonUnescape, jsonItems_plain text]
  cases jsonItems t <;> rfl

lemma jsonUnescape_short {x : UInt8} (known : shortEscape c = some x) :
    jsonUnescape (92 :: c :: t) = (jsonUnescape t).map (x :: ·) := by
  rw [jsonUnescape, jsonUnescape, jsonItems_short known]
  cases jsonItems t <;> rfl

lemma jsonUnescape_unit {a b d e : UInt8} (unit : hexUnit a b d e = some c.toNat) (low : c.toNat < 0x80) :
    jsonUnescape (92 :: 117 :: a :: b :: d :: e :: t) = (jsonUnescape t).map (c :: ·) := by
  have one : utf8 c.toNat = [c] := by rw [utf8, if_pos low, UInt8.ofNat_toNat]
  rw [jsonUnescape, jsonUnescape, jsonItems, unit]
  cases jsonItems t with
  | none => rfl
  | some items =>
    have bytes : itemBytes (.unit c.toNat :: items) = (itemBytes items).map (utf8 c.toNat ++ ·) := by
      rw [itemBytes.eq_def]
      exact if_pos (.inl (by omega))
    rw [one] at bytes
    exact bytes

lemma JsonText.cons {x : Bytes} (head : JsonChar x) (tail : JsonText t) : JsonText (x ++ t) := by
  obtain ⟨chars, all, rfl⟩ := tail
  exact ⟨x :: chars, List.forall_mem_cons.mpr ⟨head, all⟩, List.flatten_cons.symm⟩

lemma shortEscape_printable (known : (shortEscape c).isSome = true) : 32 ≤ c := by
  rw [shortEscape] at known
  split_ifs at known with quote b f n r t
  · rcases quote with rfl | rfl | rfl <;> decide
  · subst b
    decide
  · subst f
    decide
  · subst n
    decide
  · subst r
    decide
  · subst t
    decide
  · cases known

lemma xdigit_printable (digit : (xdigit c).isSome = true) : 32 ≤ c := by
  rw [xdigit] at digit
  split_ifs at digit with decimal small capital
  · simp only [isDigit, Bool.and_eq_true, decide_eq_true_eq] at decimal
    exact UInt8.le_trans (by decide) decimal.1
  · simp only [Bool.and_eq_true, decide_eq_true_eq] at small
    exact UInt8.le_trans (by decide) small.1
  · simp only [Bool.and_eq_true, decide_eq_true_eq] at capital
    exact UInt8.le_trans (by decide) capital.1
  · cases digit

lemma JsonText.printable (text : JsonText t) (mem : c ∈ t) : 32 ≤ c := by
  obtain ⟨chars, all, rfl⟩ := text
  obtain ⟨x, inside, mem⟩ := List.mem_flatten.mp mem
  cases all x inside with
  | plain text =>
    obtain rfl := List.mem_singleton.mp mem
    simp only [jsonPlain, Bool.and_eq_true, decide_eq_true_eq] at text
    exact text.1.1
  | short known =>
    rcases List.mem_cons.mp mem with rfl | mem
    · decide
    · obtain rfl := List.mem_singleton.mp mem
      exact shortEscape_printable known
  | unit digits =>
    rcases List.mem_cons.mp mem with rfl | mem
    · decide
    · rcases List.mem_cons.mp mem with rfl | mem
      · decide
      · exact xdigit_printable (digits c mem)

end

end ResQBoot
