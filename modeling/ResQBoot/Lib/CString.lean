import ResQBoot.Lib.Text

/-!
# Walking over a C string

The string functions as loops that read one character at a time. A walk stops at a character that is not one of the
string or its NUL, at a NULL pointer, and when it has no end.
-/

namespace ResQBoot

inductive Stop where
  | null
  | outside (p : Nat)
  | endless
  deriving DecidableEq, Repr

abbrev Walk (α : Type) := Except Stop α

@[simp] lemma Walk.ok_bind {α β : Type} (x : α) (f : α → Walk β) : ((.ok x : Walk α) >>= f) = f x := rfl

@[simp] lemma Walk.pure_eq {α : Type} (x : α) : (pure x : Walk α) = .ok x := rfl

/-- The characters in front of a NUL. -/
abbrev CString := { s : Bytes // 0 ∉ s }

namespace CString

variable (s : CString)

def length : Nat := s.1.length

def charAt (p : Nat) : Walk UInt8 :=
  if p < s.length then .ok (s.1.getD p 0)
  else if p = s.length then .ok 0
  else .error (.outside p)

def scan (stop : UInt8 → Bool) : Nat → Nat → Walk Nat
  | 0, _ => .error .endless
  | fuel + 1, p => do
    let c ← s.charAt p
    if stop c then return p
    scan stop fuel (p + 1)

def strlen (p : Nat) : Walk Nat := do
  let q ← s.scan (· = 0) (s.length + 1) p
  return q - p

def strchr (p : Nat) (c : UInt8) : Walk (Option Nat) := do
  let q ← s.scan (fun x => x = c || x = 0) (s.length + 1) p
  let x ← s.charAt q
  return if x = c then some q else none

def strncmp (p : Nat) : Bytes → Walk Bool
  | [] => return true
  | k :: key => do
    let c ← s.charAt p
    if c ≠ k then return false
    if c = 0 then return true
    strncmp (p + 1) key

def memcpy (p : Nat) : Nat → Walk Bytes
  | 0 => return []
  | n + 1 => do
    let c ← s.charAt p
    let rest ← memcpy (p + 1) n
    return c :: rest

variable {s} {p : Nat}

lemma charAt_head (inside : p ≤ s.length) : s.charAt p = .ok ((s.1.drop p).headD 0) := by
  rw [charAt]
  split
  · rename_i lt
    rw [List.drop_eq_getElem_cons lt, List.headD_cons, List.getD_eq_getElem?_getD, List.getElem?_eq_getElem lt]
    rfl
  · rw [if_pos (by omega), List.drop_eq_nil_of_le (by rw [length] at *; omega)]
    rfl

lemma rest_nil (done : s.1.drop p = []) (inside : p ≤ s.length) : p = s.length := by
  rw [List.drop_eq_nil_iff] at done
  exact Nat.le_antisymm inside done

lemma rest_cons {c : UInt8} {t : Bytes} (more : s.1.drop p = c :: t) : p < s.length ∧ s.1.drop (p + 1) = t ∧ c ≠ 0 := by
  have lt : p < s.length := by
    by_contra ge
    rw [List.drop_eq_nil_of_le (by rw [length] at ge; omega)] at more
    cases more
  refine ⟨lt, ?_, ?_⟩
  · rw [← List.drop_drop, more]
    rfl
  · rintro rfl
    exact s.2 (List.mem_of_mem_drop (more ▸ List.mem_cons_self))

lemma scan_ok (stop : UInt8 → Bool) {fuel : Nat} {a rest : Bytes} (inside : p ≤ s.length)
    (cut : s.1.drop p = a ++ rest) (before : ∀ c ∈ a, stop c = false) (ends : stop (rest.headD 0) = true)
    (enough : a.length < fuel) :
    s.scan stop fuel p = .ok (p + a.length) := by
  induction a generalizing p fuel with
  | nil =>
    obtain ⟨fuel, rfl⟩ := Nat.exists_eq_add_of_lt enough
    rw [scan, charAt_head inside, cut, Walk.ok_bind, List.nil_append, if_pos ends]
    rfl
  | cons c a ih =>
    rw [List.length_cons] at enough
    obtain ⟨fuel, rfl⟩ : ∃ n, fuel = n + 1 := ⟨fuel - 1, by omega⟩
    obtain ⟨lt, tail, -⟩ := rest_cons cut
    have here : ¬ stop c = true := by
      rw [before c List.mem_cons_self]
      exact Bool.false_ne_true
    rw [scan, charAt_head inside, cut, Walk.ok_bind, List.cons_append, List.headD_cons, if_neg here,
      ih lt tail (fun x mem => before x (List.mem_cons_of_mem c mem)) (by omega), List.length_cons]
    congr 1
    omega

lemma rest_ne_zero {c : UInt8} (mem : c ∈ s.1.drop p) : c ≠ 0 := by
  rintro rfl
  exact s.2 (List.mem_of_mem_drop mem)

lemma length_rest : (s.1.drop p).length = s.length - p := List.length_drop

lemma strlen_ok (inside : p ≤ s.length) : s.strlen p = .ok (s.length - p) := by
  have enough : (s.1.drop p).length < s.length + 1 := by
    rw [length_rest]
    omega
  have stop := scan_ok (· = 0) inside (List.append_nil _).symm (fun c mem => by simpa using rest_ne_zero mem) (by rfl)
    enough
  rw [strlen, stop, Walk.ok_bind, length_rest, Nat.add_sub_cancel_left]
  rfl

section Strchr

variable {c : UInt8} (inside : p ≤ s.length)

include inside

lemma strchr_none (text : c ≠ 0) (absent : c ∉ s.1.drop p) : s.strchr p c = .ok none := by
  have enough : (s.1.drop p).length < s.length + 1 := by
    rw [length_rest]
    omega
  have stop := scan_ok (fun x => x = c || x = 0) inside (List.append_nil _).symm
    (fun x mem => by simpa using ⟨fun eq => absent (eq ▸ mem), rest_ne_zero mem⟩) (by simp) enough
  have last : s.charAt (p + (s.length - p)) = .ok 0 := by
    rw [Nat.add_sub_cancel' inside, charAt, if_neg (Nat.lt_irrefl _), if_pos rfl]
  rw [strchr, stop, Walk.ok_bind, length_rest, last, Walk.ok_bind, if_neg text.symm]
  rfl

lemma strchr_some {a b : Bytes} (cut : s.1.drop p = a ++ c :: b) (first : c ∉ a) :
    s.strchr p c = .ok (some (p + a.length)) := by
  have long : (a ++ c :: b).length = s.length - p := by rw [← cut, length_rest]
  rw [List.length_append, List.length_cons] at long
  have enough : a.length < s.length + 1 := by omega
  have stop := scan_ok (fun x => x = c || x = 0) inside cut (fun x mem => by
      have text : x ≠ 0 := rest_ne_zero (p := p) (s := s) (by rw [cut]; exact List.mem_append_left _ mem)
      simpa using ⟨fun eq => first (eq ▸ mem), text⟩) (by simp) enough
  have here : s.charAt (p + a.length) = .ok c := by
    rw [charAt_head (by omega), ← List.drop_drop, cut, List.drop_left]
    rfl
  rw [strchr, stop, Walk.ok_bind, here, Walk.ok_bind, if_pos rfl]
  rfl

end Strchr

lemma strncmp_ok {key : Bytes} (text : 0 ∉ key) (inside : p ≤ s.length) :
    s.strncmp p key = .ok (key.isPrefixOf (s.1.drop p)) := by
  induction key generalizing p with
  | nil => rfl
  | cons k key ih =>
    have nonzero : k ≠ 0 := by
      rintro rfl
      exact text List.mem_cons_self
    rw [strncmp, charAt_head inside, Walk.ok_bind]
    cases rest : s.1.drop p with
    | nil =>
      rw [List.headD_nil, if_pos nonzero.symm]
      rfl
    | cons c t =>
      obtain ⟨lt, tail, some_⟩ := rest_cons rest
      rw [List.headD_cons, List.isPrefixOf_cons_cons]
      by_cases eq : c = k
      · rw [if_neg (not_not_intro eq), if_neg some_, ih (fun mem => text (List.mem_cons_of_mem k mem)) lt, tail, eq]
        simp
      · rw [if_pos eq]
        have other : (k == c) = false := by simpa using Ne.symm eq
        rw [other]
        rfl

lemma memcpy_ok {n : Nat} (inside : p + n ≤ s.length) : s.memcpy p n = .ok ((s.1.drop p).take n) := by
  induction n generalizing p with
  | zero => simp [memcpy]
  | succ n ih =>
    rw [memcpy, charAt_head (by omega), Walk.ok_bind, ih (by omega), Walk.ok_bind]
    cases rest : s.1.drop p with
    | nil =>
      have last := rest_nil rest (by omega)
      omega
    | cons c t =>
      obtain ⟨-, tail, -⟩ := rest_cons rest
      rw [tail]
      rfl

end CString

end ResQBoot
