import ResQBoot.Lib.Text

/-!
# Lines of a text

A text of lines that end in CR LF, and the search for a pattern in it. A pattern without CR and LF is found inside one
line, so a search goes from line to line; `behind` is what follows the first match.
-/

namespace ResQBoot

section Span

variable {p : UInt8 → Bool} {a r : Bytes}

section

variable (all : ∀ c ∈ a, p c = true) (stop : ∀ c ∈ r.head?, p c = false)
include all stop

lemma takeWhile_front : (a ++ r).takeWhile p = a := by
  rw [List.takeWhile_append_of_pos all]
  cases r with
  | nil => rw [List.takeWhile_nil, List.append_nil]
  | cons c r => rw [List.takeWhile_cons, stop c rfl, if_neg Bool.false_ne_true, List.append_nil]

lemma dropWhile_front : (a ++ r).dropWhile p = r := by
  rw [List.dropWhile_append_of_pos all]
  cases r with
  | nil => rfl
  | cons c r => rw [List.dropWhile_cons, stop c rfl, if_neg Bool.false_ne_true]

lemma front_unique {a' r' : Bytes}
    (all' : ∀ c ∈ a', p c = true) (stop' : ∀ c ∈ r'.head?, p c = false) (eq : a ++ r = a' ++ r') : a = a' ∧ r = r' := by
  refine ⟨?_, ?_⟩
  · rw [← takeWhile_front all stop, eq, takeWhile_front all' stop']
  · rw [← dropWhile_front all stop, eq, dropWhile_front all' stop']

end

end Span

lemma decimal_line_inj {m n : Nat} {r r' : Bytes} (eq : decimal m ++ 13 :: r = decimal n ++ 13 :: r') :
    m = n ∧ r = r' := by
  have stop (r : Bytes) : ∀ c ∈ (13 :: r : Bytes).head?, isDigit c = false := by
    rintro c ⟨⟩
    rfl
  obtain ⟨digits, rest⟩ := front_unique (fun _ mem => decimal_isDigit mem) (stop r)
    (fun _ mem => decimal_isDigit mem) (stop r') eq
  exact ⟨decimal_inj digits, (List.cons.inj rest).2⟩

variable {a l pat s : Bytes} {c : UInt8}

lemma find_spec : ∀ {l : Bytes} {k : Nat}, find pat l = some k → pat <+: l.drop k := by
  intro l
  induction l with
  | nil =>
    intro k found
    rw [find] at found
    split at found
    · rename_i empty
      rw [List.isEmpty_iff.mp empty]
      exact List.nil_prefix
    · cases found
  | cons x t ih =>
    intro k found
    rw [find] at found
    split at found
    · rename_i here
      cases found
      exact List.isPrefixOf_iff_prefix.mp here
    · obtain ⟨j, later, rfl⟩ := Option.map_eq_some_iff.mp found
      exact ih later

lemma find_first : ∀ {l : Bytes} {j : Nat}, pat <+: l.drop j → ∃ k ≤ j, find pat l = some k := by
  intro l
  induction l with
  | nil =>
    intro j sub
    rw [List.drop_nil, List.prefix_nil] at sub
    rw [sub]
    exact ⟨0, Nat.zero_le _, rfl⟩
  | cons x t ih =>
    intro j sub
    rw [find]
    split
    · exact ⟨0, Nat.zero_le _, rfl⟩
    rename_i other
    cases j with
    | zero => exact absurd (List.isPrefixOf_iff_prefix.mpr sub) other
    | succ j =>
      obtain ⟨k, le, found⟩ := ih (j := j) sub
      exact ⟨k + 1, by omega, by rw [found]; rfl⟩

lemma find_isSome (pat a s : Bytes) : (find pat (a ++ (pat ++ s))).isSome = true := by
  have sub : pat <+: (a ++ (pat ++ s)).drop a.length := by
    rw [List.drop_left]
    exact List.prefix_append _ _
  obtain ⟨k, -, found⟩ := find_first sub
  rw [found]
  rfl

lemma find_absent (mem : c ∈ pat) (absent : c ∉ l) : find pat l = none := by
  cases found : find pat l with
  | none => rfl
  | some k => exact absurd (List.mem_of_mem_drop ((find_spec found).subset mem)) absent

lemma find_byte (absent : c ∉ l) (s : Bytes) : find [c] (l ++ c :: s) = some l.length := by
  induction l with
  | nil => simp [find]
  | cons x l ih =>
    have other : c ≠ x := fun eq => absent (eq ▸ List.mem_cons_self)
    rw [List.cons_append, find, if_neg (by simp [other]), ih fun mem => absent (List.mem_cons_of_mem _ mem)]
    rfl

lemma find_lineEnd (line : 13 ∉ l) (s : Bytes) : find [13, 10] (l ++ 13 :: 10 :: s) = some l.length := by
  induction l with
  | nil => rfl
  | cons c l ih =>
    have other : c ≠ 13 := fun eq => line (eq ▸ List.mem_cons_self)
    rw [List.cons_append, find, if_neg (by simp [other.symm]), ih fun mem => line (List.mem_cons_of_mem _ mem)]
    rfl

def behind (pat data : Bytes) : Option Bytes := (find pat data).map fun p => data.drop (p + pat.length)

lemma behind_nil (some_ : pat ≠ []) : behind pat [] = none := by
  rw [behind, find, if_neg (by simpa using some_)]
  rfl

lemma behind_cons (pat : Bytes) (c : UInt8) (s : Bytes) : behind pat (c :: s) =
    if pat.isPrefixOf (c :: s) then some ((c :: s).drop pat.length) else behind pat s := by
  rw [behind, find]
  split
  · rw [Option.map_some, Nat.zero_add]
  · rw [behind, Option.map_map]
    refine Option.map_congr fun j found => ?_
    rw [Function.comp_apply, Nat.add_right_comm, List.drop_succ_cons]

lemma behind_more {d : Bytes} (rest : Bytes) (found : behind pat d = some s) :
    behind pat (d ++ rest) = some (s ++ rest) := by
  obtain ⟨k, at_, rfl⟩ := Option.map_eq_some_iff.mp found
  rw [behind, find_append rest at_, Option.map_some, List.drop_append_of_le_length (find_le at_)]

lemma find_of_behind (found : behind pat (a ++ (pat ++ s)) = some s) : find pat (a ++ (pat ++ s)) = some a.length := by
  obtain ⟨k, at_, rest⟩ := Option.map_eq_some_iff.mp found
  have inside := find_le at_
  have len := congrArg List.length rest
  simp only [List.length_drop, List.length_append] at len inside
  rw [at_]
  exact congrArg some (by omega)

lemma behind_self (some_ : pat ≠ []) (s : Bytes) : behind pat (pat ++ s) = some s := by
  cases pat with
  | nil => exact absurd rfl some_
  | cons c pat =>
    rw [List.cons_append, behind_cons, if_pos, ← List.cons_append, List.drop_left]
    rw [← List.cons_append, List.isPrefixOf_iff_prefix]
    exact List.prefix_append _ _

lemma cstr_drop {data : Bytes} {k : Nat} (inside : k ≤ (cstr data).length) : cstr (data.drop k) = (cstr data).drop k := by
  have plain : 0 ∉ (cstr data).drop k := fun mem => zero_not_mem_cstr data (List.mem_of_mem_drop mem)
  obtain whole | ⟨rest, cut⟩ := cstr_cases data
  · rw [whole] at plain ⊢
    exact cstr_eq_self plain
  · conv_lhs => rw [cut]
    rw [List.drop_append_of_le_length inside, cstr_append _ plain]
    simp [cstr]

lemma prefix_of_prefix_cons (absent : c ∉ pat) (sub : pat <+: a ++ c :: s) : pat <+: a := by
  by_cases short : pat.length ≤ a.length
  · exact List.prefix_of_prefix_length_le sub (List.prefix_append _ _) short
  have longer : a ++ [c] <+: pat := by
    have front : a ++ [c] <+: a ++ c :: s := ⟨s, by simp⟩
    refine List.prefix_of_prefix_length_le front sub ?_
    rw [List.length_append, List.length_singleton]
    omega
  exact absurd (longer.subset (by simp)) absent

lemma behind_append (absent : c ∉ pat) (some_ : pat ≠ []) (a s : Bytes) :
    behind pat (a ++ c :: s) = ((behind pat a).map (· ++ c :: s)).or (behind pat s) := by
  induction a with
  | nil =>
    have other : ¬ pat.isPrefixOf (c :: s) = true := by
      intro sub
      have none_ : pat <+: [] := prefix_of_prefix_cons absent (List.isPrefixOf_iff_prefix.mp sub)
      exact some_ (List.prefix_nil.mp none_)
    rw [List.nil_append, behind_cons, if_neg other, behind_nil some_]
    rfl
  | cons x a ih =>
    have same : pat.isPrefixOf (x :: a ++ c :: s) = pat.isPrefixOf (x :: a) := by
      rw [Bool.eq_iff_iff, List.isPrefixOf_iff_prefix, List.isPrefixOf_iff_prefix]
      exact ⟨prefix_of_prefix_cons absent, fun sub => sub.trans (List.prefix_append _ _)⟩
    rw [List.cons_append, behind_cons, ← List.cons_append, same, behind_cons, ih]
    split
    · rename_i sub
      have fits := (List.isPrefixOf_iff_prefix.mp sub).length_le
      rw [List.drop_append_of_le_length fits]
      rfl
    · rfl

lemma strstr_behind (data pat : Bytes) :
    (strstr data 0 pat).map (fun p => cstr (data.drop (p + pat.length))) = behind pat (cstr data) := by
  have start : strstr data 0 pat = find pat (cstr data) := by simp [strstr]
  rw [start, behind]
  exact Option.map_congr fun p found => cstr_drop (find_le found)

/-- A line: no NUL, CR or LF. -/
abbrev Line := { l : Bytes // 0 ∉ l ∧ 10 ∉ l ∧ 13 ∉ l }

def linesText (ls : List Line) : Bytes := (ls.map fun l => l.1 ++ [13, 10]).flatten

lemma linesText_cons (l : Line) (ls : List Line) (s : Bytes) :
    linesText (l :: ls) ++ s = l.1 ++ 13 :: 10 :: (linesText ls ++ s) := by
  simp [linesText]

lemma linesText_append (a b : List Line) : linesText (a ++ b) = linesText a ++ linesText b := by simp [linesText]

section Behind

variable {pat : Bytes} (plain : 10 ∉ pat ∧ 13 ∉ pat) (some_ : pat ≠ [])

include plain some_

lemma behind_line {l : Bytes} (absent : find pat l = none) (s : Bytes) :
    behind pat (l ++ 13 :: 10 :: s) = behind pat s := by
  have none_ : behind pat l = none := by rw [behind, absent, Option.map_none]
  have tail := behind_append plain.1 some_ [] s
  rw [behind_nil some_] at tail
  rw [behind_append plain.2 some_, none_, ← List.nil_append (10 :: s), tail]
  rfl

lemma behind_lines {ls : List Line} (absent : ∀ l ∈ ls, find pat l.1 = none) (s : Bytes) :
    behind pat (linesText ls ++ s) = behind pat s := by
  induction ls with
  | nil => rfl
  | cons l ls ih =>
    rw [linesText_cons, behind_line plain some_ (absent l List.mem_cons_self),
      ih fun l' mem => absent l' (List.mem_cons_of_mem _ mem)]

variable {v : Bytes} {a : List Line}

lemma behind_here {l : Line} (absent : ∀ x ∈ a, find pat x.1 = none) (here : behind pat l.1 = some v) (s : Bytes) :
    behind pat (linesText (a ++ [l]) ++ s) = some (v ++ 13 :: 10 :: s) := by
  rw [linesText_append, List.append_assoc, behind_lines plain some_ absent, linesText_cons, behind_append plain.2 some_,
    here]
  rfl

lemma behind_ended_iff {l : Line} {d more : Bytes} (absent : ∀ x ∈ a, find pat x.1 = none)
    (here : behind pat l.1 = some v) (front : d <+: linesText (a ++ [l]) ++ more) (s : Bytes) :
    behind pat d = some s ∧ (find [13, 10] s).isSome = true ↔
      ∃ tail, d = linesText (a ++ [l]) ++ tail ∧ s = v ++ 13 :: 10 :: tail := by
  constructor
  · rintro ⟨found, ends⟩
    obtain ⟨rest, whole⟩ := front
    have same : s ++ rest = v ++ [13, 10] ++ more := by
      have longer := behind_more rest found
      rw [whole, behind_here plain some_ absent here] at longer
      simpa using (Option.some.inj longer).symm
    have inner : 10 ∉ v := by
      obtain ⟨k, -, rfl⟩ := Option.map_eq_some_iff.mp here
      exact fun mem => l.2.2.1 (List.mem_of_mem_drop mem)
    -- what is no longer than the line with its CR has no LF
    have long : v.length + 2 ≤ s.length := by
      by_contra short
      have line : v ++ [13] <+: v ++ [13, 10] ++ more := ⟨10 :: more, by simp⟩
      have sub : s <+: v ++ [13] := by
        refine List.prefix_of_prefix_length_le ⟨rest, same⟩ line ?_
        rw [List.length_append, List.length_singleton]
        omega
      rw [find_absent (c := 10) (by decide) fun mem => ?_] at ends
      · cases ends
      · rcases List.mem_append.mp (sub.subset mem) with mem | mem
        · exact inner mem
        · revert mem
          decide
    obtain ⟨tail, rfl⟩ : v ++ [13, 10] <+: s :=
      List.prefix_of_prefix_length_le (List.prefix_append _ more) ⟨rest, same⟩ (by rw [List.length_append]; exact long)
    rw [List.append_assoc, List.append_right_inj] at same
    refine ⟨tail, ?_, by simp⟩
    rw [← same, ← List.append_assoc, List.append_left_inj] at whole
    exact whole
  · rintro ⟨tail, rfl, rfl⟩
    exact ⟨behind_here plain some_ absent here tail, find_isSome [13, 10] v tail⟩

end Behind

lemma linesText_plain (ls : List Line) : 0 ∉ linesText ls := by
  intro mem
  obtain ⟨t, line, mem⟩ := List.mem_flatten.mp mem
  obtain ⟨l, -, rfl⟩ := List.mem_map.mp line
  rcases List.mem_append.mp mem with mem | mem
  · exact l.2.1 mem
  · simp at mem

end ResQBoot
