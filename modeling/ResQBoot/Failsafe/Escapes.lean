import ResQBoot.Lib.JsonText
import ResQBoot.Failsafe.Handlers
import ResQBoot.Failsafe.UrlDecode

/-!
# Escaping for the JSON reports

`json_escape` of `failsafe_httpd.c` into a buffer of any size. `jsonEscapeLoop_spec` says what stands in the buffer when
the loop ends: the escapes of all the bytes, or those of the first ones where the next escape has no room.
-/

namespace ResQBoot.Failsafe

def hexDigit (n : Nat) : UInt8 := UInt8.ofNat (if n < 10 then 48 + n else 87 + n)

def jsonRep (c : UInt8) : Bytes :=
  if c = 34 ∨ c = 92 then [92, c]
  else if c = 10 then bytes "\\n"
  else if c = 13 then bytes "\\r"
  else if c = 9 then bytes "\\t"
  else if c < 32 then bytes "\\u00" ++ [hexDigit (c.toNat / 16), hexDigit (c.toNat % 16)]
  else [c]

def jsonEscapeLoop (dst dstsz : Nat) : Mem → Bytes → Nat → Nat → Mem × Int
  | m, [], _, o => (m.write (dst + o) [0], toInt32 o)
  | m, _ :: _, 0, o => (m.write (dst + o) [0], toInt32 o)
  | m, c :: src, maxlen + 1, o =>
    if dstsz ≤ (o + (jsonRep c).length) % 2 ^ 32 then (m.write (dst + o) [0], -1)
    else jsonEscapeLoop dst dstsz (m.write (dst + o) (jsonRep c)) src maxlen (o + (jsonRep c).length)

def jsonEscape (m : Mem) (dst dstsz : Nat) (src : Option Bytes) (maxlen : Nat) : Mem × Int :=
  if dst = 0 ∨ dstsz = 0 then (m, -1) else jsonEscapeLoop dst dstsz m (src.getD []) maxlen 0

def escaped (s : Bytes) : Bytes := s.flatMap jsonRep

/-! ## The escapes -/

section Escapes

variable {c : UInt8} {s t : Bytes}

lemma xdigit_hexDigit {n : Nat} (small : n < 16) : xdigit (hexDigit n) = some n := by
  have all : ∀ n : Fin 16, xdigit (hexDigit n) = some n.val := by decide
  exact all ⟨n, small⟩

lemma jsonRep_spec (c : UInt8) : JsonChar (jsonRep c) ∧ 0 < (jsonRep c).length ∧ (jsonRep c).length ≤ 6 ∧
    ∀ t, jsonUnescape (jsonRep c ++ t) = (jsonUnescape t).map (c :: ·) := by
  rw [jsonRep]
  split_ifs with quote n r t low
  · have known : shortEscape c = some c := by
      rcases quote with rfl | rfl <;> rfl
    exact ⟨.short (by rw [known]; rfl), by simp, by simp, fun t => jsonUnescape_short known⟩
  · subst n
    exact ⟨.short rfl, by decide, by decide, fun t => jsonUnescape_short rfl⟩
  · subst r
    exact ⟨.short rfl, by decide, by decide, fun t => jsonUnescape_short rfl⟩
  · subst t
    exact ⟨.short rfl, by decide, by decide, fun t => jsonUnescape_short rfl⟩
  · have small : c.toNat < 32 := UInt8.lt_iff_toNat_lt.mp low
    have high : xdigit (hexDigit (c.toNat / 16)) = some (c.toNat / 16) := xdigit_hexDigit (by omega)
    have rest : xdigit (hexDigit (c.toNat % 16)) = some (c.toNat % 16) := xdigit_hexDigit (by omega)
    have zero : xdigit 48 = some 0 := rfl
    have unit : hexUnit 48 48 (hexDigit (c.toNat / 16)) (hexDigit (c.toNat % 16)) = some c.toNat := by
      rw [hexUnit, zero, high, rest]
      exact congrArg some (by omega : ((0 * 16 + 0) * 16 + c.toNat / 16) * 16 + c.toNat % 16 = c.toNat)
    refine ⟨.unit (a := 48) (b := 48) ?_, by simp, Nat.le_refl 6, fun t => jsonUnescape_unit unit (by omega)⟩
    simp [high, rest, zero]
  · have text : jsonPlain c = true := by
      have large : 32 ≤ c := UInt8.not_lt.mp low
      simp [jsonPlain, large, not_or.mp quote]
    exact ⟨.plain text, by simp, by simp, fun t => jsonUnescape_plain text⟩

lemma escaped_cons (c : UInt8) (s : Bytes) : escaped (c :: s) = jsonRep c ++ escaped s := List.flatMap_cons

lemma escaped_text (s : Bytes) : JsonText (escaped s) := by
  induction s with
  | nil => exact ⟨[], by simp, rfl⟩
  | cons c s ih => exact escaped_cons c s ▸ .cons (jsonRep_spec c).1 ih

lemma jsonUnescape_escaped (s : Bytes) : jsonUnescape (escaped s) = some s := by
  induction s with
  | nil => rfl
  | cons c s ih => rw [escaped_cons, (jsonRep_spec c).2.2.2, ih, Option.map_some]

end Escapes

/-! ## The loop -/

lemma jsonEscapeLoop_spec (dst dstsz : Nat) (src : Bytes) : ∀ (m : Mem) (maxlen : Nat) {o n : Nat}, o < dstsz → o ≤ 6 * n →
    n + src.length + 1 + dstsz ≤ 2 ^ 32 →
    ∃ x, (jsonEscapeLoop dst dstsz m src maxlen o).1 = m.write (dst + o) (x ++ [0]) ∧ o + x.length < dstsz ∧
      ((x = escaped (src.take maxlen) ∧ (jsonEscapeLoop dst dstsz m src maxlen o).2 = toInt32 (o + x.length)) ∨
        (jsonEscapeLoop dst dstsz m src maxlen o).2 = -1 ∧ dstsz ≤ o + (escaped (src.take maxlen)).length ∧
          ∃ k, x = escaped ((src.take maxlen).take k)) := by
  induction src with
  | nil =>
    intro m maxlen o n room few fits
    exact ⟨[], rfl, room, .inl ⟨by rw [List.take_nil]; rfl, rfl⟩⟩
  | cons c src ih =>
    intro m maxlen o n room few fits
    cases maxlen with
    | zero => exact ⟨[], rfl, room, .inl ⟨rfl, rfl⟩⟩
    | succ maxlen =>
      obtain ⟨-, -, short, -⟩ := jsonRep_spec c
      rw [List.length_cons] at fits
      have sum : (o + (jsonRep c).length) % 2 ^ 32 = o + (jsonRep c).length := Nat.mod_eq_of_lt (by omega)
      rw [jsonEscapeLoop, sum, List.take_succ_cons, escaped_cons, List.length_append]
      by_cases full : dstsz ≤ o + (jsonRep c).length
      · rw [if_pos full]
        exact ⟨[], rfl, room, .inr ⟨rfl, by omega, 0, rfl⟩⟩
      rw [if_neg full]
      obtain ⟨x, stored, inside, result⟩ := ih (m.write (dst + o) (jsonRep c)) maxlen (o := o + (jsonRep c).length)
        (n := n + 1) (by omega) (by omega) (by omega)
      rw [← Nat.add_assoc, Mem.write_append, ← List.append_assoc] at stored
      refine ⟨jsonRep c ++ x, stored, by rw [List.length_append]; omega, ?_⟩
      rw [List.length_append, ← Nat.add_assoc]
      rcases result with ⟨rfl, result⟩ | ⟨result, long, k, rfl⟩
      · exact .inl ⟨rfl, result⟩
      · exact .inr ⟨result, by omega, k + 1, by rw [List.take_succ_cons, escaped_cons]⟩

/-- `json_escape` succeeds when the escaped form of the bytes and its NUL fit the buffer, which then holds that form;
otherwise the buffer holds the escapes of the first bytes. -/
theorem json_escape_correct (m : Mem) (dst dstsz maxlen : Nat) (src : Bytes) (buffer : dst ≠ 0 ∧ 1 ≤ dstsz)
    (room : src.length + 1 + dstsz ≤ 2 ^ 32) :
    ((jsonEscape m dst dstsz (some src) maxlen).2 ≠ -1 ↔ (escaped (src.take maxlen)).length + 1 ≤ dstsz) ∧
    ((jsonEscape m dst dstsz (some src) maxlen).2 ≠ -1 →
      ∃ out, Holds (jsonEscape m dst dstsz (some src) maxlen).1 dst out ∧
        (jsonEscape m dst dstsz (some src) maxlen).2 = toInt32 out.length ∧ JsonText out ∧ (∀ c ∈ out, 32 ≤ c) ∧
        jsonUnescape out = some (src.take maxlen)) ∧
    ((jsonEscape m dst dstsz (some src) maxlen).2 = -1 →
      ∃ out k, Holds (jsonEscape m dst dstsz (some src) maxlen).1 dst out ∧ out.length + 1 ≤ dstsz ∧ JsonText out ∧
        jsonUnescape out = some ((src.take maxlen).take k)) := by
  obtain ⟨x, stored, inside, result⟩ := jsonEscapeLoop_spec dst dstsz src m maxlen (o := 0) (n := 0)
    buffer.2 (by omega) (by omega)
  have loop : jsonEscape m dst dstsz (some src) maxlen = jsonEscapeLoop dst dstsz m src maxlen 0 := if_neg (by omega)
  rw [← loop, Nat.add_zero] at stored
  rw [← loop, Nat.zero_add, Nat.zero_add] at result
  have holds : JsonText x → Holds (jsonEscape m dst dstsz (some src) maxlen).1 dst x := by
    intro text
    refine ⟨?_, fun zero => absurd (text.printable zero) (by decide)⟩
    have whole := Mem.read_write m dst (x ++ [0])
    rwa [List.length_append, ← stored] at whole
  have value : toInt32 x.length ≠ -1 := by
    rw [toInt32]
    split <;> omega
  rcases result with ⟨rfl, result⟩ | ⟨result, long, k, rfl⟩
  · rw [result]
    exact ⟨iff_of_true value (by omega), fun _ => ⟨_, holds (escaped_text _), rfl, escaped_text _,
      fun _ mem => (escaped_text _).printable mem, jsonUnescape_escaped _⟩, fun eq => absurd eq value⟩
  · rw [result]
    exact ⟨iff_of_false (by simp) (by omega), fun ne => absurd rfl ne,
      fun _ => ⟨_, k, holds (escaped_text _), by omega, escaped_text _, jsonUnescape_escaped _⟩⟩

theorem json_escape_full : ∃ out, (jsonEscape (fun _ => 1) 64 4 (some [34, 10, 65]) 8).2 = -1 ∧
    Holds (jsonEscape (fun _ => 1) 64 4 (some [34, 10, 65]) 8).1 64 out ∧ JsonText out := by
  have full : (jsonEscape (fun _ => 1) 64 4 (some [34, 10, 65]) 8).2 = -1 := by decide
  obtain ⟨out, k, holds, -, text, -⟩ := (json_escape_correct (fun _ => 1) 64 4 8 [34, 10, 65] ⟨by decide, by decide⟩
    (by decide)).2.2 full
  exact ⟨out, full, holds, text⟩

end ResQBoot.Failsafe
