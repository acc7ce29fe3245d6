import Mathlib.Logic.Relation
import ResQBoot.Lib.Percent
import ResQBoot.Lib.Text
import ResQBoot.Failsafe.Form

/-!
# URL decoding in place

`url_decode` as the loop it is: it reads at `src` and writes at `dst` of the same buffer. `Decoder.Inv` relates the
positions to the text that has been read.
-/

namespace ResQBoot.Failsafe

structure Decoder where
  mem : Mem
  src : Nat
  dst : Nat

namespace Decoder

def put (d : Decoder) (c : UInt8) (n : Nat) : Decoder := ⟨d.mem.write d.dst [c], d.src + n, d.dst + 1⟩

def step (d : Decoder) : Option Decoder :=
  if d.mem d.src = 0 then none
  else if d.mem d.src = 37 ∧ d.mem (d.src + 1) ≠ 0 ∧ d.mem (d.src + 2) ≠ 0 then
    some (d.put (UInt8.ofNat (hexval (d.mem (d.src + 1)) * 16 + hexval (d.mem (d.src + 2)))) 3)
  else if d.mem d.src = 43 then some (d.put 32 1)
  else some (d.put (d.mem d.src) 1)

def loop : Nat → Decoder → Option Decoder
  | 0, _ => none
  | fuel + 1, d =>
    match d.step with
    | none => some d
    | some d => loop fuel d

def Comes (d d' : Decoder) : Prop := Relation.ReflTransGen (fun d d' => d.step = some d') d d'

end Decoder

def urlDecodeAt (fuel : Nat) (m : Mem) (s : Nat) : Option Mem :=
  (Decoder.loop fuel ⟨m, s, s⟩).map fun d => d.mem.write d.dst [0]

structure Holds (m : Mem) (s : Nat) (t : Bytes) : Prop where
  text : m.read s (t.length + 1) = t ++ [0]
  plain : 0 ∉ t

/-! ## The text -/

section Text

variable {enc : Encoding} {c : UInt8} {v t x : Bytes}

lemma urlDecode_cons (plain : ¬ ∃ a b r, c = 37 ∧ t = a :: b :: r) :
    urlDecode (c :: t) = (if c = 43 then 32 else c) :: urlDecode t := by
  rw [urlDecode.eq_def]
  split
  · rename_i eq
    cases eq
  · rename_i a b r eq
    exact absurd ⟨a, b, r, List.cons.inj eq⟩ plain
  · rename_i eq
    obtain ⟨rfl, rfl⟩ := List.cons.inj eq
    rfl
  · rename_i other eq
    obtain ⟨rfl, rfl⟩ := List.cons.inj eq
    rw [if_neg other]

lemma urlDecode_length (t : Bytes) : (urlDecode t).length ≤ t.length := by
  induction t using urlDecode.induct with
  | case1 => exact Nat.le_refl _
  | case2 a b t ih | case3 t ih | case4 c t escaped plus ih =>
    simp only [urlDecode, List.length_cons]
    omega

lemma urlDecode_byte (head : EncodesByte enc c x) (t : Bytes) : urlDecode (x ++ t) = c :: urlDecode t := by
  cases head with
  | kept safe =>
    obtain ⟨-, percent, -, plus, -⟩ := Encoding.safe_plain safe
    have one : ¬ ∃ a b r, c = 37 ∧ t = a :: b :: r := by
      rintro ⟨-, -, -, eq, -⟩
      exact percent eq
    rw [List.singleton_append, urlDecode_cons one, if_neg plus]
  | plus form blank =>
    rw [blank]
    rfl
  | escaped special high low =>
    have value : c.toNat / 16 * 16 + c.toNat % 16 = c.toNat := by omega
    rw [List.cons_append, List.cons_append, List.cons_append, List.nil_append, urlDecode, hexval, hexval, high, low,
      Option.getD_some, Option.getD_some, value, UInt8.ofNat_toNat]

lemma urlDecode_encodes (encodes : Encodes enc v t) : urlDecode t = v := by
  induction encodes with
  | nil => rfl
  | cons head tail ih => rw [urlDecode_byte head, ih]

end Text

/-! ## The loop -/

namespace Decoder

variable {m : Mem} {s : Nat} {t : Bytes} {d d' : Decoder}

structure Inv (m : Mem) (s : Nat) (t : Bytes) (d : Decoder) (rest : Bytes) : Prop where
  start : s ≤ d.dst
  behind : d.dst ≤ d.src
  read : d.src + rest.length = s + t.length
  decoded : d.mem.read s (d.dst - s) ++ urlDecode rest = urlDecode t
  left : d.mem.read d.src (rest.length + 1) = rest ++ [0]
  frame : ∀ a, a < s ∨ s + t.length ≤ a → d.mem a = m a

lemma inv_init (holds : Holds m s t) : Inv m s t ⟨m, s, s⟩ t where
  start := Nat.le_refl s
  behind := Nat.le_refl s
  read := rfl
  decoded := by
    rw [Nat.sub_self]
    rfl
  left := holds.text
  frame := fun _ _ => rfl

lemma Inv.at {rest : Bytes} (inv : Inv m s t d rest) {i : Nat} (inside : i ≤ rest.length) :
    some (d.mem (d.src + i)) = (rest ++ [0])[i]? := by
  rw [← inv.left, Mem.read, List.getElem?_map, List.getElem?_range (by omega)]
  rfl

lemma Inv.put {rest x : Bytes} {c : UInt8} {n : Nat} (inv : Inv m s t d (x ++ rest)) (len : x.length = n) (pos : 0 < n)
    (one : urlDecode (x ++ rest) = c :: urlDecode rest) : Inv m s t (d.put c n) rest := by
  have start := inv.start
  have behind := inv.behind
  have read := inv.read
  rw [List.length_append, len] at read
  refine ⟨?_, ?_, ?_, ?_, ?_, ?_⟩
  · exact Nat.le_succ_of_le start
  · show d.dst + 1 ≤ d.src + n
    omega
  · show d.src + n + rest.length = s + t.length
    omega
  · have grown : d.dst + 1 - s = d.dst - s + [c].length := by
      rw [List.length_singleton]
      omega
    have place : s + (d.dst - s) = d.dst := by omega
    show (d.mem.write d.dst [c]).read s (d.dst + 1 - s) ++ urlDecode rest = urlDecode t
    have appended := Mem.read_write_append d.mem s (d.dst - s) [c]
    rw [place, ← grown] at appended
    rw [appended, ← inv.decoded, one, List.append_assoc]
    rfl
  · show (d.mem.write d.dst [c]).read (d.src + n) (rest.length + 1) = rest ++ [0]
    rw [Mem.read_write_disjoint _ (by rw [List.length_singleton]; omega)]
    have left := inv.left
    rw [List.length_append, len, Nat.add_assoc, Mem.read_add, List.append_assoc] at left
    exact (List.append_inj left (by rw [Mem.length_read, len])).2
  · intro a out
    show d.mem.write d.dst [c] a = m a
    rw [Mem.write_outside (by rw [List.length_singleton]; omega)]
    exact inv.frame a out

lemma Inv.step {rest : Bytes} (inv : Inv m s t d rest) (plain : 0 ∉ rest) : rest = [] ∧ d.step = none ∨
    ∃ d' x rest', rest = x ++ rest' ∧ x ≠ [] ∧ d.step = some d' ∧ Inv m s t d' rest' := by
  cases rest with
  | nil =>
    have here : d.mem d.src = 0 := Option.some.inj (inv.at (i := 0) (Nat.zero_le _))
    exact .inl ⟨rfl, by simp only [Decoder.step, here, if_true]⟩
  | cons c rest =>
    refine .inr ?_
    have here : d.mem d.src = c := Option.some.inj (inv.at (i := 0) (Nat.zero_le _))
    have text : c ≠ 0 := fun zero => plain (zero ▸ List.mem_cons_self)
    -- a percent sign with two characters behind it
    by_cases escaped : ∃ a b r, c = 37 ∧ rest = a :: b :: r
    · obtain ⟨a, b, r, rfl, rfl⟩ := escaped
      have first : d.mem (d.src + 1) = a := Option.some.inj (inv.at (i := 1) (by simp))
      have second : d.mem (d.src + 2) = b := Option.some.inj (inv.at (i := 2) (by simp))
      have ha : a ≠ 0 := fun zero => plain (by simp [zero])
      have hb : b ≠ 0 := fun zero => plain (by simp [zero])
      refine ⟨_, [37, a, b], r, rfl, List.cons_ne_nil _ _, ?_, inv.put (x := [37, a, b]) (n := 3) rfl (by decide) rfl⟩
      simp only [Decoder.step, here, first, second, ha, hb, text, ne_eq, not_false_eq_true, and_self, if_true, if_false]
    · have short : ¬ (d.mem d.src = 37 ∧ d.mem (d.src + 1) ≠ 0 ∧ d.mem (d.src + 2) ≠ 0) := by
        rintro ⟨percent, one, two⟩
        rcases rest with _ | ⟨a, _ | ⟨b, r⟩⟩
        · exact one (Option.some.inj (inv.at (i := 1) (by simp)))
        · exact two (Option.some.inj (inv.at (i := 2) (by simp)))
        · exact escaped ⟨a, b, r, here.symm.trans percent, rfl⟩
      refine ⟨_, [c], rest, rfl, List.cons_ne_nil _ _, ?_,
        inv.put (x := [c]) (n := 1) rfl (by decide) (urlDecode_cons escaped)⟩
      rw [Decoder.step, if_neg (by rw [here]; exact text), if_neg short, here]
      split <;> rfl

lemma Comes.inv (holds : Holds m s t) (comes : Comes ⟨m, s, s⟩ d) : ∃ rest, rest <:+ t ∧ Inv m s t d rest := by
  induction comes with
  | refl => exact ⟨t, List.suffix_rfl, inv_init holds⟩
  | tail _ next ih =>
    obtain ⟨rest, sub, inv⟩ := ih
    have plain : 0 ∉ rest := fun mem => holds.plain (sub.subset mem)
    obtain ⟨-, none_⟩ | ⟨d', x, rest', rfl, -, eq, inv'⟩ := inv.step plain
    · cases none_.symm.trans next
    · cases eq.symm.trans next
      exact ⟨rest', (List.suffix_append x rest').trans sub, inv'⟩

lemma Inv.loop {fuel : Nat} : ∀ {d : Decoder} {rest : Bytes}, Inv m s t d rest → 0 ∉ rest → rest.length < fuel →
    ∃ d', Decoder.loop fuel d = some d' ∧ Inv m s t d' [] := by
  induction fuel with
  | zero => intro d rest _ _ lt; omega
  | succ fuel ih =>
    intro d rest inv plain lt
    obtain ⟨rfl, stops⟩ | ⟨d', x, rest', rfl, some_, eq, inv'⟩ := inv.step plain
    · exact ⟨d, by rw [Decoder.loop, stops], inv⟩
    · have pos := List.length_pos_iff.mpr some_
      rw [List.length_append] at lt
      obtain ⟨d'', ends, inv''⟩ := ih inv' (fun mem => plain (List.mem_append_right _ mem)) (by omega)
      exact ⟨d'', by rw [Decoder.loop, eq]; exact ends, inv''⟩

end Decoder

lemma Holds.of_read {m : Mem} {s : Nat} {x : Bytes} (stored : m.read s (x.length + 1) = x ++ [0]) :
    Holds m s (cstr x) := by
  refine ⟨?_, zero_not_mem_cstr x⟩
  have le : (cstr x).length + 1 ≤ x.length + 1 := Nat.succ_le_succ (List.takeWhile_prefix _).length_le
  rw [← Mem.take_read m s le, stored]
  obtain same | ⟨rest, eq⟩ := cstr_cases x
  · rw [same, List.take_of_length_le (by simp)]
  · nth_rewrite 2 [eq]
    rw [List.append_assoc, List.take_length_add_append]
    rfl

lemma urlDecodeAt_spec {m : Mem} {s : Nat} {t : Bytes} (holds : Holds m s t) :
    ∃ m', urlDecodeAt (t.length + 1) m s = some m' ∧ Holds m' s (cstr (urlDecode t)) := by
  obtain ⟨d, ends, inv⟩ := (Decoder.inv_init holds).loop holds.plain (Nat.lt_succ_self _)
  refine ⟨_, by rw [urlDecodeAt, ends]; rfl, Holds.of_read ?_⟩
  have decoded : d.mem.read s (d.dst - s) = urlDecode t := by
    have whole := inv.decoded
    rwa [urlDecode, List.append_nil] at whole
  have length : (urlDecode t).length = d.dst - s := by rw [← decoded, Mem.length_read]
  have start := inv.start
  rw [length, Mem.read_add, show s + (d.dst - s) = d.dst by omega, Mem.read_write_disjoint _ (.inl (by omega)), decoded]
  exact congrArg _ (Mem.read_write _ _ [0])

/-- The text at `s` is decoded in place: the output is never longer, the loop never writes in front of where it reads, and
the encodings of a text without NUL are undone. -/
theorem url_decode_inverts (m : Mem) (s : Nat) (t : Bytes) (holds : Holds m s t) :
    (∃ m' out, urlDecodeAt (t.length + 1) m s = some m' ∧ Holds m' s out ∧ out.length ≤ t.length ∧
      ∀ enc v, 0 ∉ v → Encodes enc v t → out = v) ∧
    ∀ d, Decoder.Comes ⟨m, s, s⟩ d → s ≤ d.dst ∧ d.dst ≤ d.src ∧ d.src ≤ s + t.length := by
  constructor
  · obtain ⟨m', done, text⟩ := urlDecodeAt_spec holds
    refine ⟨m', _, done, text, ?_, fun enc v plain encodes => ?_⟩
    · exact Nat.le_trans (List.takeWhile_prefix _).length_le (urlDecode_length t)
    · rw [urlDecode_encodes encodes, cstr_eq_self plain]
  · intro d comes
    obtain ⟨rest, -, inv⟩ := comes.inv holds
    exact ⟨inv.start, inv.behind, by have := inv.read; omega⟩

theorem url_decode_inverts_slash : Encodes .form [97, 32, 47] [97, 43, 37, 50, 102] ∧
    ∃ m', urlDecodeAt 6 (Mem.write (fun _ => 0) 16 [97, 43, 37, 50, 102]) 16 = some m' ∧ Holds m' 16 [97, 32, 47] := by
  have encodes : Encodes .form [97, 32, 47] [97, 43, 37, 50, 102] :=
    .cons (.kept rfl) (.cons (.plus rfl rfl) (.cons (.escaped rfl rfl rfl) .nil))
  obtain ⟨⟨m', out, done, holds, -, undone⟩, -⟩ :=
    url_decode_inverts (Mem.write (fun _ => 0) 16 [97, 43, 37, 50, 102]) 16 [97, 43, 37, 50, 102]
      ⟨by decide, by decide⟩
  rw [undone .form [97, 32, 47] (by decide) encodes] at holds
  exact ⟨encodes, m', done, holds⟩

end ResQBoot.Failsafe
