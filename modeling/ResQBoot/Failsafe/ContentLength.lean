import ResQBoot.Failsafe.Upload
import ResQBoot.Lib.Lines
import ResQBoot.Lib.Numeral

/-!
# Which Content-Length is read

`httpd_parse_content_length` looks for `Content-Length:` anywhere in the segment. Where the first such text is the
header itself it reads its value, unless that is hexadecimal or wraps around at 64 bits.
-/

namespace ResQBoot.Failsafe

structure HeaderField where
  name : Line
  value : Line
  colon : 58 ∉ name.1

def HeaderField.line (f : HeaderField) : Line :=
  ⟨f.name.1 ++ 58 :: f.value.1, by
    have name := f.name.2
    have value := f.value.2
    simp [name, value]⟩

structure Head where
  line : Line
  fields : List HeaderField

def Head.text (h : Head) : Bytes := linesText (h.line :: h.fields.map HeaderField.line) ++ [13, 10]

def lowerCase (c : UInt8) : UInt8 := if 65 ≤ c ∧ c ≤ 90 then c + 32 else c

def HeaderField.isLength (f : HeaderField) : Bool := f.name.1.map lowerCase = bytes "content-length"

def Denotes (v : Bytes) (n : Nat) : Prop :=
  ∃ a t c, v = a ++ t ++ c ∧ (∀ x ∈ a, isBlank x = true) ∧ (∀ x ∈ c, isBlank x = true) ∧
    t ≠ [] ∧ (∀ x ∈ t, isDigit x = true) ∧ numeral 10 t = n

def Head.Declares (h : Head) (n : Nat) : Prop :=
  ∃ f, h.fields.find? HeaderField.isLength = some f ∧ Denotes f.value.1 n ∧ 1 ≤ n ∧ n < 2 ^ 32

/-! ## What is read -/

def lengthName : Bytes := bytes "Content-Length:"

def LooseNumeral (m : Bytes) (value : Nat) : Prop :=
  (m ≠ [] ∧ (∀ x ∈ m, isDigit x = true) ∧ value = numeral 10 m) ∨
    ∃ t, m = 48 :: 120 :: t ∧ t ≠ [] ∧ (∀ x ∈ t, isDigitOf 16 x = true) ∧ value = numeral 16 t

def Reads (s : Bytes) (n : Nat) : Prop :=
  ∃ a m c r value, s = a ++ (m ++ (c ++ r)) ∧ (∀ x ∈ a, isBlank x = true) ∧ (∀ x ∈ c, isBlank x = true) ∧
    LooseNumeral m value ∧ (r.head? = some 13 ∨ r.head? = some 10) ∧ (find [13, 10] (m ++ (c ++ r))).isSome = true ∧
    n = value % 2 ^ 64 ∧ 1 ≤ n ∧ n < 2 ^ 32

def lengthAt (s : Bytes) : Option Nat :=
  let num := s.dropWhile isBlank
  match find (bytes "\r\n") num with
  | none => none
  | some _ =>
    let (n, rest) := simpleStrto 64 10 num
    let after := rest.dropWhile isBlank
    if after.length = num.length ∨ (after.head? ≠ some 13 ∧ after.head? ≠ some 10) ∨ n = 0 ∨ 0xFFFFFFFF < n then none
    else some n

lemma parse_eq (data : Bytes) : httpdParseContentLength data = (behind lengthName (cstr data)).bind lengthAt := by
  rw [← strstr_behind, lengthName, httpdParseContentLength]
  cases strstr data 0 (bytes "Content-Length:") <;> rfl

section Read

variable {m a s : Bytes} {value n : Nat}

lemma isBlank_iff {c : UInt8} : isBlank c = true ↔ c = 32 ∨ c = 9 := by simp [isBlank]

lemma LooseNumeral.solid (num : LooseNumeral m value) : m ≠ [] ∧ ∀ x ∈ m, isBlank x = false ∧ x ≠ 13 ∧ x ≠ 10 := by
  have digit {x : UInt8} (dig : isDigitOf 16 x = true) : isBlank x = false ∧ x ≠ 13 ∧ x ≠ 10 := by
    refine ⟨?_, ?_, ?_⟩
    · rw [Bool.eq_false_iff, ne_eq, isBlank_iff]
      rintro (rfl | rfl) <;> cases dig
    · rintro rfl
      cases dig
    · rintro rfl
      cases dig
  obtain ⟨some_, digits, -⟩ | ⟨t, rfl, some_, digits, -⟩ := num
  · exact ⟨some_, fun x mem => digit (isDigit_hex (digits x mem))⟩
  refine ⟨List.cons_ne_nil _ _, fun x mem => ?_⟩
  rcases List.mem_cons.mp mem with rfl | mem
  · decide
  rcases List.mem_cons.mp mem with rfl | mem
  · decide
  · exact digit (digits x mem)

lemma strto_loose (s : Bytes) : ∃ m value, s = m ++ (simpleStrto 64 10 s).2 ∧
    (simpleStrto 64 10 s).1 = value % 2 ^ 64 ∧ (value = 0 ∨ LooseNumeral m value) := by
  rw [simpleStrto_ten]
  split
  · rename_i hex
    obtain ⟨c, t, rfl, digit⟩ := hexPrefixed_iff.mp hex
    rw [← isDigitOf_sixteen] at digit
    refine ⟨48 :: 120 :: (c :: t).takeWhile (isDigitOf 16), _, ?_, rfl, .inr (.inr ⟨_, rfl, ?_, ?_, rfl⟩)⟩
    · exact congrArg (fun l => 48 :: 120 :: l) List.takeWhile_append_dropWhile.symm
    · rw [List.takeWhile_cons, if_pos digit]
      exact List.cons_ne_nil _ _
    · exact fun x mem => List.mem_takeWhile_imp mem
  · refine ⟨s.takeWhile isDigit, _, List.takeWhile_append_dropWhile.symm, rfl, ?_⟩
    by_cases none_ : s.takeWhile isDigit = []
    · rw [none_]
      exact .inl rfl
    · exact .inr (.inl ⟨none_, fun x mem => List.mem_takeWhile_imp mem, rfl⟩)

lemma strto_numeral (num : LooseNumeral m value) (ends : ∀ x ∈ s.head?, isDigitOf 16 x = false ∧ x ≠ 120) :
    simpleStrto 64 10 (m ++ s) = (value % 2 ^ 64, s) := by
  rw [simpleStrto_ten]
  obtain ⟨some_, digits, rfl⟩ | ⟨t, rfl, some_, digits, rfl⟩ := num
  · have decimal_ : hexPrefixed (m ++ s) = false := by
      rw [Bool.eq_false_iff]
      intro hex
      unfold hexPrefixed at hex
      split at hex
      · rename_i c t eq
        -- the `x` would be a digit of the numeral, or the byte behind it
        cases m with
        | nil => exact some_ rfl
        | cons d m =>
          have tail := (List.cons.inj eq).2
          cases m with
          | nil =>
            have head : s.head? = some 120 := congrArg List.head? tail
            exact (ends 120 head).2 rfl
          | cons e m =>
            have digit := digits e (by simp)
            rw [(List.cons.inj tail).1] at digit
            cases digit
      · cases hex
    have stop : ∀ x ∈ s.head?, isDigit x = false := by
      intro x mem
      rw [Bool.eq_false_iff]
      exact fun digit => absurd (isDigit_hex digit) (by rw [(ends x mem).1]; exact Bool.false_ne_true)
    rw [decimal_, if_neg Bool.false_ne_true, takeWhile_front digits stop, dropWhile_front digits stop]
  · have hex : hexPrefixed (48 :: 120 :: t ++ s) = true := by
      cases t with
      | nil => exact absurd rfl some_
      | cons c t =>
        have digit := digits c List.mem_cons_self
        rwa [isDigitOf_sixteen] at digit
    have stop : ∀ x ∈ s.head?, isDigitOf 16 x = false := fun x mem => (ends x mem).1
    rw [hex, if_pos rfl]
    change (numeral 16 ((t ++ s).takeWhile _) % _, (t ++ s).dropWhile _) = _
    rw [takeWhile_front digits stop, dropWhile_front digits stop]

lemma blank_or_end {c r : Bytes} (blanks : ∀ x ∈ c, isBlank x = true)
    (ends : r.head? = some 13 ∨ r.head? = some 10) : ∀ x ∈ (c ++ r).head?, isDigitOf 16 x = false ∧ x ≠ 120 := by
  intro x mem
  cases c with
  | nil =>
    rw [List.nil_append] at mem
    rcases ends with cr | lf
    · cases cr.symm.trans mem
      decide
    · cases lf.symm.trans mem
      decide
  | cons y c =>
    obtain rfl : y = x := Option.some.inj mem
    rcases isBlank_iff.mp (blanks y List.mem_cons_self) with rfl | rfl <;> decide

lemma lengthAt_iff : lengthAt s = some n ↔ Reads s n := by
  constructor
  · intro read
    obtain ⟨m, value, cut, number, num⟩ := strto_loose (s.dropWhile isBlank)
    simp only [lengthAt] at read
    cases crlf : find (bytes "\r\n") (s.dropWhile isBlank) with
    | none =>
      rw [crlf] at read
      cases read
    | some k =>
      rw [crlf] at read
      simp only at read
      split at read
      · cases read
      rename_i good
      cases read
      simp only [not_or, not_and_or, not_not, Nat.not_lt] at good
      obtain ⟨-, ends, pos, small⟩ := good
      rw [number] at pos small
      have parts : s.dropWhile isBlank = m ++ (((simpleStrto 64 10 (s.dropWhile isBlank)).2.takeWhile isBlank) ++
          ((simpleStrto 64 10 (s.dropWhile isBlank)).2.dropWhile isBlank)) := by
        rw [List.takeWhile_append_dropWhile]
        exact cut
      refine ⟨s.takeWhile isBlank, m, (simpleStrto 64 10 (s.dropWhile isBlank)).2.takeWhile isBlank, _, value, ?_, fun x mem => List.mem_takeWhile_imp mem,
        fun x mem => List.mem_takeWhile_imp mem, ?_, ends, ?_, number, by omega, by omega⟩
      · rw [← parts, List.takeWhile_append_dropWhile]
      · rcases num with zero | num
        · rw [zero] at pos
          exact absurd rfl pos
        · exact num
      · rw [← parts]
        change (find (bytes "\r\n") _).isSome = true
        rw [crlf]
        rfl
  · rintro ⟨a, m, c, r, value, rfl, front, back, num, ends, crlf, rfl, pos, small⟩
    obtain ⟨some_, solid⟩ := num.solid
    have stop : ∀ x ∈ (m ++ (c ++ r)).head?, isBlank x = false := by
      intro x mem
      cases m with
      | nil => exact absurd rfl some_
      | cons y m =>
        obtain rfl : y = x := Option.some.inj mem
        exact (solid y List.mem_cons_self).1
    have stop' : ∀ x ∈ r.head?, isBlank x = false := by
      intro x mem
      rcases ends with cr | lf
      · cases cr.symm.trans mem
        rfl
      · cases lf.symm.trans mem
        rfl
    obtain ⟨k, found⟩ := Option.isSome_iff_exists.mp crlf
    have found' : find (bytes "\r\n") (m ++ (c ++ r)) = some k := found
    have longer : m.length ≠ 0 := fun zero => some_ (List.length_eq_zero_iff.mp zero)
    simp only [lengthAt, dropWhile_front front stop, found', strto_numeral num (blank_or_end back ends),
      dropWhile_front back stop']
    rw [if_neg]
    rw [List.length_append, List.length_append]
    rintro (same | ⟨noCr, noLf⟩ | zero | large)
    · omega
    · rcases ends with cr | lf
      · exact noCr cr
      · exact noLf lf
    · omega
    · omega

end Read

/-! ## The value of a header -/

def ReadsValue (v : Bytes) (n : Nat) : Prop :=
  ∃ a m c value, v = a ++ (m ++ c) ∧ (∀ x ∈ a, isBlank x = true) ∧ (∀ x ∈ c, isBlank x = true) ∧
    LooseNumeral m value ∧ n = value % 2 ^ 64 ∧ 1 ≤ n ∧ n < 2 ^ 32

def Misread (v : Bytes) : Prop :=
  ∃ a m c, v = a ++ (m ++ c) ∧ (∀ x ∈ a, isBlank x = true) ∧ (∀ x ∈ c, isBlank x = true) ∧
    ((m ≠ [] ∧ (∀ x ∈ m, isDigit x = true) ∧ 2 ^ 64 ≤ numeral 10 m ∧
        1 ≤ numeral 10 m % 2 ^ 64 ∧ numeral 10 m % 2 ^ 64 < 2 ^ 32) ∨
      ∃ t, m = 48 :: 120 :: t ∧ t ≠ [] ∧ (∀ x ∈ t, isDigitOf 16 x = true) ∧
        1 ≤ numeral 16 t % 2 ^ 64 ∧ numeral 16 t % 2 ^ 64 < 2 ^ 32)

section Value

variable {v : Bytes}

lemma reads_value {n : Nat} (line : 10 ∉ v ∧ 13 ∉ v) (more : Bytes) :
    Reads (v ++ 13 :: 10 :: more) n ↔ ReadsValue v n := by
  constructor
  · rintro ⟨a, m, c, r, value, eq, front, back, num, ends, -, number, range⟩
    have text {l : Bytes} (blanks : ∀ x ∈ l, isBlank x = true) : ∀ x ∈ l, (x ≠ 13 && x ≠ 10) = true := by
      intro x mem
      rcases isBlank_iff.mp (blanks x mem) with rfl | rfl <;> rfl
    have solid : ∀ x ∈ a ++ (m ++ c), (x ≠ 13 && x ≠ 10) = true := by
      intro x mem
      rcases List.mem_append.mp mem with mem | mem
      · exact text front x mem
      rcases List.mem_append.mp mem with mem | mem
      · simpa using (num.solid.2 x mem).2
      · exact text back x mem
    have stop : ∀ x ∈ r.head?, (x ≠ 13 && x ≠ 10) = false := by
      intro x mem
      rcases ends with cr | lf
      · cases cr.symm.trans mem
        rfl
      · cases lf.symm.trans mem
        rfl
    have plain : ∀ x ∈ v, (x ≠ 13 && x ≠ 10) = true := by
      intro x mem
      have ne : x ≠ 13 ∧ x ≠ 10 := ⟨fun eq => line.2 (eq ▸ mem), fun eq => line.1 (eq ▸ mem)⟩
      simpa using ne
    have cut : v ++ 13 :: 10 :: more = (a ++ (m ++ c)) ++ r := by simp [eq]
    obtain ⟨rfl, -⟩ := front_unique plain (by simp) solid stop cut
    exact ⟨a, m, c, value, rfl, front, back, num, number, range⟩
  · rintro ⟨a, m, c, value, rfl, front, back, num, number, range⟩
    have crlf := find_isSome [13, 10] (m ++ c) more
    rw [List.append_assoc] at crlf
    exact ⟨a, m, c, 13 :: 10 :: more, value, by simp, front, back, num, .inl rfl, crlf, number, range⟩

lemma middle_unique {a m c a' m' c' : Bytes} (front : ∀ x ∈ a, isBlank x = true) (back : ∀ x ∈ c, isBlank x = true)
    (front' : ∀ x ∈ a', isBlank x = true) (back' : ∀ x ∈ c', isBlank x = true) (some_ : m ≠ []) (some' : m' ≠ [])
    (solid : ∀ x ∈ m, isBlank x = false) (solid' : ∀ x ∈ m', isBlank x = false)
    (eq : a ++ (m ++ c) = a' ++ (m' ++ c')) : m = m' := by
  have head {m c : Bytes} (some_ : m ≠ []) (solid : ∀ x ∈ m, isBlank x = false) :
      ∀ x ∈ (m ++ c).head?, isBlank x = false := by
    intro x mem
    cases m with
    | nil => exact absurd rfl some_
    | cons y m =>
      obtain rfl : y = x := Option.some.inj mem
      exact solid y List.mem_cons_self
  have tail {c : Bytes} (back : ∀ x ∈ c, isBlank x = true) : ∀ x ∈ c.head?, (!isBlank x) = false := by
    intro x mem
    rw [back x (List.mem_of_head? mem)]
    rfl
  have rest := (front_unique front (head some_ solid) front' (head some' solid') eq).2
  exact (front_unique (p := fun x => !isBlank x) (fun x mem => by rw [solid x mem]; rfl) (tail back)
    (fun x mem => by rw [solid' x mem]; rfl) (tail back') rest).1

lemma readsValue_iff (v : Bytes) : (∀ n, ReadsValue v n ↔ Denotes v n ∧ 1 ≤ n ∧ n < 2 ^ 32) ↔ ¬ Misread v := by
  constructor
  · rintro same ⟨a, m, c, rfl, front, back, wrong⟩
    obtain ⟨value, num, low, high, differs⟩ : ∃ value, LooseNumeral m value ∧ 1 ≤ value % 2 ^ 64 ∧
        value % 2 ^ 64 < 2 ^ 32 ∧ ((∀ x ∈ m, isDigit x = true) → value % 2 ^ 64 ≠ numeral 10 m) := by
      obtain ⟨some_, digits, large, low, high⟩ | ⟨t, rfl, some_, digits, low, high⟩ := wrong
      · exact ⟨_, .inl ⟨some_, digits, rfl⟩, low, high, fun _ => by omega⟩
      · refine ⟨_, .inr ⟨t, rfl, some_, digits, rfl⟩, low, high, fun decimal_ => ?_⟩
        cases decimal_ 120 (by simp)
    obtain ⟨⟨a', t, c', eq, front', back', some', digits', number⟩, -⟩ :=
      (same (value % 2 ^ 64)).mp ⟨a, m, c, value, rfl, front, back, num, rfl, low, high⟩
    rw [List.append_assoc] at eq
    obtain rfl := middle_unique front back front' back' num.solid.1 some' (fun x mem => (num.solid.2 x mem).1)
      (fun x mem => ((LooseNumeral.solid (.inl ⟨some', digits', rfl⟩)).2 x mem).1) eq
    exact differs digits' number.symm
  · intro right n
    constructor
    · rintro ⟨a, m, c, value, rfl, front, back, num, rfl, low, high⟩
      obtain ⟨some_, digits, rfl⟩ | ⟨t, rfl, some_, digits, rfl⟩ := num
      · have small : numeral 10 m < 2 ^ 64 := by
          by_contra large
          exact right ⟨a, m, c, rfl, front, back, .inl ⟨some_, digits, Nat.not_lt.mp large, low, high⟩⟩
        rw [Nat.mod_eq_of_lt small] at low high ⊢
        exact ⟨⟨a, m, c, (List.append_assoc _ _ _).symm, front, back, some_, digits, rfl⟩, low, high⟩
      · exact absurd ⟨a, _, c, rfl, front, back, .inr ⟨t, rfl, some_, digits, low, high⟩⟩ right
    · rintro ⟨⟨a, t, c, rfl, front, back, some_, digits, rfl⟩, low, high⟩
      refine ⟨a, t, c, _, List.append_assoc _ _ _, front, back, .inl ⟨some_, digits, rfl⟩, ?_, low, high⟩
      rw [Nat.mod_eq_of_lt (by omega)]

lemma not_misread {a t c : Bytes} (front : ∀ x ∈ a, isBlank x = true) (back : ∀ x ∈ c, isBlank x = true)
    (some_ : t ≠ []) (digits : ∀ x ∈ t, isDigit x = true) (small : numeral 10 t < 2 ^ 64) :
    ¬ Misread (a ++ (t ++ c)) := by
  have solid := (LooseNumeral.solid (.inl ⟨some_, digits, rfl⟩)).2
  rintro ⟨a', m, c', eq, front', back', ⟨some', digits', large, -⟩ | ⟨h, rfl, some', digits', -⟩⟩
  · have solid' := (LooseNumeral.solid (.inl ⟨some', digits', rfl⟩)).2
    obtain rfl := middle_unique front back front' back' some_ some' (fun x mem => (solid x mem).1)
      (fun x mem => (solid' x mem).1) eq
    omega
  · have solid' := (LooseNumeral.solid (.inr ⟨h, rfl, some', digits', rfl⟩)).2
    obtain rfl := middle_unique front back front' back' some_ (List.cons_ne_nil _ _) (fun x mem => (solid x mem).1)
      (fun x mem => (solid' x mem).1) eq
    cases digits 120 (by simp)

end Value

/-! ## The header itself -/

def Head.Located (h : Head) (f : HeaderField) : Prop :=
  ∃ before after, h.fields = before ++ f :: after ∧ f.name.1 = bytes "Content-Length" ∧
    find lengthName h.line.1 = none ∧ ∀ g ∈ before, find lengthName g.line.1 = none ∧ g.isLength = false

section Located

variable {h : Head} {f : HeaderField}

lemma Head.Located.behind (at' : h.Located f) (rest : Bytes) :
    ∃ more, behind lengthName (h.text ++ rest) = some (f.value.1 ++ 13 :: 10 :: more) := by
  obtain ⟨before, after, fields, name, line, absent⟩ := at'
  have plain : 10 ∉ lengthName ∧ 13 ∉ lengthName := by decide
  have some_ : lengthName ≠ [] := by decide
  have own : f.line.1 = lengthName ++ f.value.1 := by
    change f.name.1 ++ 58 :: f.value.1 = _
    rw [name]
    rfl
  have text : h.text ++ rest = linesText (h.line :: before.map HeaderField.line) ++
      (lengthName ++ (f.value.1 ++ 13 :: 10 :: (linesText (after.map HeaderField.line) ++ 13 :: 10 :: rest))) := by
    rw [Head.text, fields, List.map_append, ← List.cons_append, linesText_append, List.append_assoc, List.append_assoc]
    refine congrArg (linesText (h.line :: before.map HeaderField.line) ++ ·) ?_
    rw [List.map_cons, linesText_cons, own, List.append_assoc]
    rfl
  have pass : ∀ l ∈ h.line :: before.map HeaderField.line, find lengthName l.1 = none := by
    intro l mem
    rcases List.mem_cons.mp mem with rfl | mem
    · exact line
    · obtain ⟨g, here, rfl⟩ := List.mem_map.mp mem
      exact (absent g here).1
  exact ⟨_, by rw [text, behind_lines plain some_ pass, behind_self some_]⟩

lemma Head.Located.first (at' : h.Located f) : h.fields.find? HeaderField.isLength = some f := by
  obtain ⟨before, after, fields, name, -, absent⟩ := at'
  have own : f.isLength = true := by
    rw [HeaderField.isLength, name]
    decide
  rw [fields, List.find?_append, List.find?_eq_none.mpr fun g mem => by rw [(absent g mem).2]; exact Bool.false_ne_true]
  simp [own]

end Located

lemma Head.text_plain (h : Head) : 0 ∉ h.text := by
  intro mem
  rcases List.mem_append.mp mem with mem | mem
  · exact linesText_plain _ mem
  · simp at mem

lemma parse_iff (h : Head) (rest : Bytes) (n : Nat) : httpdParseContentLength (h.text ++ rest) = some n ↔
    ∃ s, behind lengthName (h.text ++ cstr rest) = some s ∧ Reads s n := by
  rw [parse_eq, cstr_append _ h.text_plain, Option.bind_eq_some_iff]
  exact exists_congr fun s => and_congr_right fun _ => lengthAt_iff

/-- Where the first text `Content-Length:` is the header itself, the parser reads the number that it declares exactly
if the value is not misread. Elsewhere it reads what stands behind the first such text. -/
theorem contentLength_iff (h : Head) (rest : Bytes) :
    (∀ f, h.Located f →
      ((∀ n, httpdParseContentLength (h.text ++ rest) = some n ↔ h.Declares n) ↔ ¬ Misread f.value.1)) ∧
    ((∀ f, ¬ h.Located f) →
      ((∀ n, httpdParseContentLength (h.text ++ rest) = some n ↔ h.Declares n) ↔
        ∀ n, (∃ s, behind lengthName (h.text ++ cstr rest) = some s ∧ Reads s n) ↔ h.Declares n)) := by
  refine ⟨fun f at' => ?_, fun _ => forall_congr' fun n => by rw [parse_iff]⟩
  rw [← readsValue_iff]
  refine forall_congr' fun n => ?_
  obtain ⟨more, found⟩ := at'.behind (cstr rest)
  have read : httpdParseContentLength (h.text ++ rest) = some n ↔ ReadsValue f.value.1 n := by
    rw [parse_iff, found, ← reads_value f.value.2.2 more]
    simp
  have declared : h.Declares n ↔ Denotes f.value.1 n ∧ 1 ≤ n ∧ n < 2 ^ 32 := by
    rw [Head.Declares, at'.first]
    simp
  rw [read, declared]

def lengthHead (value : Line) : Head where
  line := ⟨bytes "POST /upload HTTP/1.1", by decide⟩
  fields := [⟨⟨bytes "Host", by decide⟩, ⟨bytes " 192.168.1.1", by decide⟩, by decide⟩,
    ⟨⟨bytes "Content-Length", by decide⟩, value, by decide⟩]

lemma lengthHead_located (value : Line) :
    (lengthHead value).Located ⟨⟨bytes "Content-Length", by decide⟩, value, by decide⟩ := by
  refine ⟨[⟨⟨bytes "Host", by decide⟩, ⟨bytes " 192.168.1.1", by decide⟩, by decide⟩], [], rfl, rfl, ?_, ?_⟩
  · change find lengthName (bytes "POST /upload HTTP/1.1") = none
    decide
  intro g mem
  rw [List.mem_singleton.mp mem]
  decide

theorem contentLength_decimal : httpdParseContentLength (lengthHead ⟨bytes " 10240 ", by decide⟩).text = some 10240 := by
  have plain : ¬ Misread (bytes " 10240 ") :=
    not_misread (a := bytes " ") (t := bytes "10240") (c := bytes " ") (by decide +kernel)
      (by decide +kernel) (by decide +kernel) (by decide +kernel) (by decide +kernel)
  have read := ((contentLength_iff (lengthHead ⟨bytes " 10240 ", by decide⟩) []).1 _ (lengthHead_located _)).mpr plain
  rw [List.append_nil] at read
  refine (read 10240).mpr ⟨_, rfl, ⟨bytes " ", bytes "10240", bytes " ", ?_⟩, by decide, by decide⟩
  decide +kernel

/-- A hexadecimal value is read. -/
theorem contentLength_hex :
    httpdParseContentLength (lengthHead ⟨bytes " 0x10", by decide⟩).text = some 16 ∧
      ∀ n, ¬ (lengthHead ⟨bytes " 0x10", by decide⟩).Declares n := by
  refine ⟨by decide, ?_⟩
  rintro n ⟨f, first, ⟨a, t, c, eq, front, back, -, digits, -⟩, -⟩
  obtain rfl : _ = f := Option.some.inj first
  -- the `x` is neither a blank nor a digit
  have mem : 120 ∈ a ++ t ++ c := eq ▸ (by decide : 120 ∈ bytes " 0x10")
  rcases List.mem_append.mp mem with mem | mem
  · rcases List.mem_append.mp mem with mem | mem
    · cases front 120 mem
    · cases digits 120 mem
  · cases back 120 mem

end ResQBoot.Failsafe
