import ResQBoot.Failsafe.ContentLength
import ResQBoot.Failsafe.UploadStore

/-!
# The form as it is posted

The request that the pages send for an upload, what the server reads in a front of it, and in which pieces of it the
start of the file is found.
-/

namespace ResQBoot.Failsafe

/-! ## The body -/

structure Hidden where
  name : Line
  value : Bytes

structure Form where
  boundary : Line
  fields : List Hidden
  entry : UploadType
  known : entry ∈ uploadTypes
  filename : Line
  extra : List Line
  file : Bytes

def Form.delimiter (f : Form) : Bytes := bytes "--" ++ f.boundary.1

def Hidden.part (delimiter : Bytes) (x : Hidden) : Bytes :=
  delimiter ++ bytes "\r\nContent-Disposition: form-data; name=\"" ++ x.name.1 ++ bytes "\"\r\n\r\n" ++ x.value ++
    bytes "\r\n"

def Form.fileHead (f : Form) : Bytes :=
  f.delimiter ++ bytes "\r\nContent-Disposition: form-data; " ++ f.entry.name ++ bytes "; filename=\"" ++ f.filename.1 ++
    bytes "\"\r\n" ++ linesText f.extra ++ bytes "\r\n"

def Form.front (f : Form) : Bytes := (f.fields.map (Hidden.part f.delimiter)).flatten ++ f.fileHead

def Form.closing (f : Form) : Bytes := bytes "\r\n" ++ f.delimiter ++ bytes "--\r\n"

def Form.body (f : Form) : Bytes := f.front ++ (f.file ++ f.closing)

section Body

variable (f : Form)

lemma Form.length_closing : f.closing.length = f.delimiter.length + 6 := by
  have crlf : (bytes "\r\n").length = 2 := by decide
  have ends : (bytes "--\r\n").length = 4 := by decide
  simp only [Form.closing, List.length_append, crlf, ends]
  omega

lemma Form.length_body : f.body.length = f.front.length + f.file.length + f.delimiter.length + 6 := by
  rw [Form.body, List.length_append, List.length_append, f.length_closing]
  omega

lemma Form.front_starts : ∃ rest, f.front = f.delimiter ++ rest := by
  have part (x : Hidden) : ∃ rest, x.part f.delimiter = f.delimiter ++ rest :=
    ⟨_, by simp only [Hidden.part, List.append_assoc]; rfl⟩
  cases fields : f.fields with
  | nil => exact ⟨_, by simp only [Form.front, Form.fileHead, fields, List.append_assoc]; rfl⟩
  | cons x t =>
    obtain ⟨rest, eq⟩ := part x
    exact ⟨_, by simp only [Form.front, fields, List.map_cons, List.flatten_cons, eq, List.append_assoc]; rfl⟩

lemma Form.length_front : 4 ≤ f.front.length := by
  have quote : (bytes "\"\r\n").length = 3 := by decide
  have crlf : (bytes "\r\n").length = 2 := by decide
  simp only [Form.front, Form.fileHead, List.length_append, quote, crlf]
  omega

lemma Form.delimiter_plain : 0 ∉ f.delimiter ∧ 10 ∉ f.delimiter ∧ 13 ∉ f.delimiter := by
  have dashes : 0 ∉ bytes "--" ∧ 10 ∉ bytes "--" ∧ 13 ∉ bytes "--" := by decide
  have line := f.boundary.2
  simp only [Form.delimiter, List.mem_append]
  tauto

lemma Form.delimiter_dash : 45 ∈ f.delimiter :=
  List.mem_append_left _ (by decide)

lemma Form.delimiter_some : f.delimiter ≠ [] :=
  List.ne_nil_of_mem f.delimiter_dash

def Form.lengthLine : Line :=
  ⟨bytes "Content-Length: " ++ decimal f.body.length, by
    have text : 0 ∉ bytes "Content-Length: " ∧ 10 ∉ bytes "Content-Length: " ∧ 13 ∉ bytes "Content-Length: " := by
      decide
    have digits (c : UInt8) (other : isDigit c = false) : c ∉ decimal f.body.length := fun mem => by
      rw [decimal_isDigit mem] at other
      cases other
    simp only [List.mem_append, not_or]
    exact ⟨⟨text.1, digits 0 rfl⟩, ⟨text.2.1, digits 10 rfl⟩, text.2.2, digits 13 rfl⟩⟩

def Form.typeLine : Line :=
  ⟨bytes "Content-Type: multipart/form-data; boundary=" ++ f.boundary.1, by
    have text : 0 ∉ bytes "Content-Type: multipart/form-data; boundary=" ∧
        10 ∉ bytes "Content-Type: multipart/form-data; boundary=" ∧
        13 ∉ bytes "Content-Type: multipart/form-data; boundary=" := by decide
    have line := f.boundary.2
    simp only [List.mem_append, not_or]
    exact ⟨⟨text.1, line.1⟩, ⟨text.2.1, line.2.1⟩, text.2.2, line.2.2⟩⟩

end Body

/-! ## The request -/

def boundaryName : Bytes := bytes "boundary="

def requestLine : Line := ⟨bytes "POST / HTTP/1.1", by decide⟩

structure FormPost extends Form where
  before : List Line
  between : List Line
  after : List Line
  typeFirst : Bool
  short : toForm.body.length < 2 ^ 32
  oneLength : ∀ l ∈ toForm.typeLine :: (before ++ between), find lengthName l.1 = none
  oneBoundary : ∀ l ∈ before ++ between, find boundaryName l.1 = none
  apart : ∀ l ∈ toForm.lengthLine :: toForm.typeLine :: (before ++ between ++ after), find toForm.delimiter l.1 = none

namespace FormPost

variable (p : FormPost)

def upToLength : List Line :=
  requestLine :: (if p.typeFirst then p.before ++ p.typeLine :: p.between else p.before)

def upToType : List Line :=
  requestLine :: (if p.typeFirst then p.before else p.before ++ p.lengthLine :: p.between)

def opening : List Line := if p.typeFirst then p.upToLength ++ [p.lengthLine] else p.upToType ++ [p.typeLine]

def head : Bytes := linesText (p.opening ++ p.after) ++ [13, 10]

def text : Bytes := p.head ++ p.body

def Announced (d : Bytes) : Prop := linesText p.opening <+: d

instance (d : Bytes) : Decidable (p.Announced d) := inferInstanceAs (Decidable (_ <+: _))

/-! ## What is announced -/

section Announced

lemma upToLength_apart : ∀ l ∈ p.upToLength, find lengthName l.1 = none := by
  intro l mem
  have lone := p.oneLength l
  have first : find lengthName requestLine.1 = none := by decide
  rcases List.mem_cons.mp mem with rfl | mem
  · exact first
  split at mem <;> simp only [List.mem_append, List.mem_cons] at mem lone <;> tauto

lemma upToType_apart : ∀ l ∈ p.upToType, find boundaryName l.1 = none := by
  intro l mem
  have lone := p.oneBoundary l
  have first : find boundaryName requestLine.1 = none := by decide
  have other : find boundaryName p.lengthLine.1 = none := by
    refine find_absent (c := 98) (by decide) fun mem => ?_
    rcases List.mem_append.mp mem with mem | mem
    · revert mem
      decide
    · cases decimal_isDigit mem
  rcases List.mem_cons.mp mem with rfl | mem
  · exact first
  split at mem
  · exact lone (List.mem_append_left _ mem)
  rcases List.mem_append.mp mem with mem | mem
  · exact lone (List.mem_append_left _ mem)
  · rcases List.mem_cons.mp mem with rfl | mem
    · exact other
    · exact lone (List.mem_append_right _ mem)

lemma announced_iff (d : Bytes) : p.Announced d ↔
    linesText (p.upToLength ++ [p.lengthLine]) <+: d ∧ linesText (p.upToType ++ [p.typeLine]) <+: d := by
  have earlier {a b : List Line} (sub : a <+: b) : linesText a <+: linesText b := by
    obtain ⟨c, rfl⟩ := sub
    rw [linesText_append]
    exact List.prefix_append _ _
  rw [Announced, opening]
  split
  · rename_i first
    have sub : p.upToType ++ [p.typeLine] <+: p.upToLength ++ [p.lengthLine] :=
      ⟨p.between ++ [p.lengthLine], by simp [upToType, upToLength, first]⟩
    exact ⟨fun all => ⟨all, (earlier sub).trans all⟩, And.left⟩
  · rename_i first
    have sub : p.upToLength ++ [p.lengthLine] <+: p.upToType ++ [p.typeLine] :=
      ⟨p.between ++ [p.typeLine], by simp [upToType, upToLength, first]⟩
    exact ⟨fun all => ⟨(earlier sub).trans all, all⟩, And.right⟩

lemma text_announced : p.Announced p.text :=
  ⟨linesText p.after ++ [13, 10] ++ p.body, by simp [text, head, linesText_append]⟩

lemma lines_cstr (ls : List Line) (d : Bytes) : linesText ls <+: cstr d ↔ linesText ls <+: d := by
  refine ⟨fun sub => sub.trans (List.takeWhile_prefix _), ?_⟩
  rintro ⟨rest, rfl⟩
  rw [cstr_append _ (linesText_plain ls)]
  exact List.prefix_append _ _

variable {p} {d : Bytes}

lemma parseLength_iff (front : d <+: p.text) (n : Nat) : httpdParseContentLength d = some n ↔
    linesText (p.upToLength ++ [p.lengthLine]) <+: d ∧ n = p.body.length := by
  have plain : 10 ∉ lengthName ∧ 13 ∉ lengthName := by decide
  have some_ : lengthName ≠ [] := by decide
  have here : behind lengthName p.lengthLine.1 = some (32 :: decimal p.body.length) := by
    have text : p.lengthLine.1 = lengthName ++ 32 :: decimal p.body.length := rfl
    rw [text, behind_self some_]
  obtain ⟨more, whole⟩ := ((p.announced_iff p.text).mp p.text_announced).1
  have sub : cstr d <+: linesText (p.upToLength ++ [p.lengthLine]) ++ more :=
    whole ▸ (List.takeWhile_prefix _).trans front
  have ended := behind_ended_iff plain some_ p.upToLength_apart here sub
  have value (tail : Bytes) (m : Nat) : lengthAt (32 :: decimal p.body.length ++ 13 :: 10 :: tail) = some m ↔
      m = p.body.length := by
    have reads : Reads (32 :: decimal p.body.length ++ 13 :: 10 :: tail) p.body.length := by
      refine ⟨[32], decimal p.body.length, [], 13 :: 10 :: tail, p.body.length, rfl, by simp [isBlank], by simp, ?_, .inl rfl,
        find_isSome [13, 10] (decimal p.body.length) tail, ?_, ?_, p.short⟩
      · exact .inl ⟨decimal_ne_nil _, fun _ mem => decimal_isDigit mem, (numeral_decimal _).symm⟩
      · exact (Nat.mod_eq_of_lt (by have := p.short; omega)).symm
      · rw [p.length_body]
        omega
    rw [lengthAt_iff.mpr reads, Option.some.injEq]
    exact eq_comm
  rw [parse_eq, Option.bind_eq_some_iff, ← lines_cstr]
  constructor
  · rintro ⟨s, found, read⟩
    have ends : (find [13, 10] s).isSome = true := by
      obtain ⟨a, m, c, r, v, rfl, -, -, -, -, crlf, -⟩ := lengthAt_iff.mp read
      obtain ⟨k, at_⟩ := Option.isSome_iff_exists.mp crlf
      obtain ⟨rest, eq⟩ := find_spec at_
      have cut := List.take_append_drop k (m ++ (c ++ r))
      rw [← cut, ← eq, ← List.append_assoc]
      exact find_isSome _ _ _
    obtain ⟨tail, cut, rfl⟩ := (ended s).mp ⟨found, ends⟩
    exact ⟨⟨tail, cut.symm⟩, (value tail n).mp read⟩
  · rintro ⟨⟨tail, cut⟩, rfl⟩
    exact ⟨_, ((ended _).mpr ⟨tail, cut.symm, rfl⟩).1, (value tail _).mpr rfl⟩

lemma parseBoundary_eq (ok : Bool) (d : Bytes) : httpdParseBoundary ok d = (behind boundaryName (cstr d)).bind fun s =>
    (find [13, 10] s).bind fun n => if ok then some (bytes "--" ++ s.take n) else none := by
  have crlf : bytes "\r\n" = [13, 10] := by decide
  have len : boundaryName.length = 9 := by decide
  rw [← strstr_behind, len, httpdParseBoundary, crlf, ← boundaryName]
  cases at_ : strstr d 0 boundaryName with
  | none => rfl
  | some k =>
    simp only [Option.map_some, Option.bind_some]
    cases ends : find [13, 10] (cstr (d.drop (k + 9))) with
    | none => rfl
    | some n =>
      have inside : n ≤ (cstr (d.drop (k + 9))).length := by
        have := find_le ends
        omega
      have same : (d.drop (k + 9)).take n = (cstr (d.drop (k + 9))).take n := by
        obtain ⟨rest, cut⟩ : cstr (d.drop (k + 9)) <+: d.drop (k + 9) := List.takeWhile_prefix _
        conv_lhs => rw [← cut]
        rw [List.take_append_of_le_length inside]
      simp only [Option.bind_some, same]

lemma parseBoundary_iff (front : d <+: p.text) (ok : Bool) (v : Bytes) : httpdParseBoundary ok d = some v ↔
    ok = true ∧ linesText (p.upToType ++ [p.typeLine]) <+: d ∧ v = p.delimiter := by
  have plain : 10 ∉ boundaryName ∧ 13 ∉ boundaryName := by decide
  have some_ : boundaryName ≠ [] := by decide
  have here : behind boundaryName p.typeLine.1 = some p.boundary.1 := by
    have text : p.typeLine.1 = bytes "Content-Type: multipart/form-data; boundary=" ++ p.boundary.1 := rfl
    have found : behind boundaryName (bytes "Content-Type: multipart/form-data; boundary=") = some [] := by
      decide
    rw [text, behind_more _ found]
    rfl
  obtain ⟨more, whole⟩ := ((p.announced_iff p.text).mp p.text_announced).2
  have sub : cstr d <+: linesText (p.upToType ++ [p.typeLine]) ++ more :=
    whole ▸ (List.takeWhile_prefix _).trans front
  have ended := behind_ended_iff plain some_ p.upToType_apart here sub
  have value (tail : Bytes) : find [13, 10] (p.boundary.1 ++ 13 :: 10 :: tail) = some p.boundary.1.length :=
    find_lineEnd p.boundary.2.2.2 tail
  rw [parseBoundary_eq, Option.bind_eq_some_iff, ← lines_cstr]
  simp only [Option.bind_eq_some_iff, Option.ite_none_right_eq_some, Option.some.injEq]
  constructor
  · rintro ⟨s, found, n, ends, memory, rfl⟩
    obtain ⟨tail, cut, rfl⟩ := (ended s).mp ⟨found, by rw [ends]; rfl⟩
    rw [value, Option.some.injEq] at ends
    refine ⟨memory, ⟨tail, cut.symm⟩, ?_⟩
    rw [← ends, List.take_left, Form.delimiter]
  · rintro ⟨memory, ⟨tail, cut⟩, rfl⟩
    refine ⟨_, ((ended _).mpr ⟨tail, cut.symm, rfl⟩).1, _, value tail, memory, ?_⟩
    rw [List.take_left, Form.delimiter]

end Announced

/-! ## Where the file is found -/

section Piece

variable {p} {x d y : Bytes}

lemma head_plain : 0 ∉ p.head := by
  have lines := linesText_plain (p.opening ++ p.after)
  simp [head, lines]

lemma opening_apart : ∀ l ∈ p.opening ++ p.after, find p.delimiter l.1 = none := by
  intro l mem
  have apart := p.apart l
  have first : find p.delimiter requestLine.1 = none := find_absent p.delimiter_dash (by decide)
  simp only [opening, upToLength, upToType, List.cons_append] at mem
  split at mem <;> simp only [List.mem_append, List.mem_cons, List.not_mem_nil, or_false] at mem apart <;> grind

lemma find_delimiter : find p.delimiter p.text = some p.head.length := by
  obtain ⟨rest, front⟩ := p.front_starts
  have plain : 10 ∉ p.delimiter ∧ 13 ∉ p.delimiter := p.delimiter_plain.2
  have body : p.text = p.head ++ (p.delimiter ++ (rest ++ (p.file ++ p.closing))) := by
    rw [text, Form.body, front, List.append_assoc]
  rw [body]
  refine find_of_behind ?_
  rw [head, List.append_assoc, behind_lines plain p.delimiter_some opening_apart]
  have blank := behind_line plain p.delimiter_some (l := []) (find_absent p.delimiter_dash (by simp))
    (p.delimiter ++ (rest ++ (p.file ++ p.closing)))
  exact blank.trans (behind_self p.delimiter_some _)

lemma head_le_delimiter (cut : x ++ d ++ y = p.text) {k : Nat} (at_ : p.delimiter <+: d.drop k) :
    p.head.length ≤ x.length + k := by
  have sub : p.delimiter <+: p.text.drop (x.length + k) := by
    rw [← cut, List.append_assoc, ← List.drop_drop, List.drop_left]
    by_cases inside : k ≤ d.length
    · rw [List.drop_append_of_le_length inside]
      exact at_.trans (List.prefix_append _ _)
    · rw [List.drop_eq_nil_of_le (by omega), List.prefix_nil] at at_
      exact absurd at_ p.delimiter_some
  obtain ⟨j, le, found⟩ := find_first sub
  rw [find_delimiter, Option.some.injEq] at found
  omega

def frontEnd (p : FormPost) : Nat := p.head.length + p.front.length

lemma piece_split (cut : x ++ d ++ y = p.text) (early : x.length ≤ p.head.length)
    (all : p.frontEnd ≤ x.length + d.length) :
    d = p.head.drop x.length ++ (p.front ++ d.drop (p.frontEnd - x.length)) := by
  have rest : d ++ y = p.head.drop x.length ++ p.front ++ (p.file ++ p.closing) := by
    have dropped := congrArg (List.drop x.length) cut
    rw [List.append_assoc, List.drop_left, text, List.drop_append_of_le_length early, Form.body] at dropped
    rw [dropped, List.append_assoc]
  have len : (p.head.drop x.length ++ p.front).length = p.frontEnd - x.length := by
    rw [List.length_append, List.length_drop, frontEnd]
    omega
  have sub : p.head.drop x.length ++ p.front <+: d := by
    refine List.prefix_of_prefix_length_le ⟨_, rest.symm⟩ (List.prefix_append d y) ?_
    omega
  obtain ⟨more, rfl⟩ := sub
  rw [← len, List.drop_left, List.append_assoc]

lemma filePart_piece (cut : x ++ d ++ y = p.text) (early : x.length ≤ p.head.length)
    (all : p.frontEnd ≤ x.length + d.length) :
    filePart p.delimiter d = (findUploadType (cstr (p.front ++ d.drop (p.frontEnd - x.length)))).bind fun t =>
        (fileHeaderEnd t (cstr (p.front ++ d.drop (p.frontEnd - x.length)))).map fun e =>
          (t, p.head.length - x.length, e) := by
  have split := piece_split cut early all
  have len : (p.head.drop x.length).length = p.head.length - x.length := List.length_drop
  have text : cstr d = p.head.drop x.length ++ cstr (p.front ++ d.drop (p.frontEnd - x.length)) := by
    conv_lhs => rw [split]
    exact cstr_append _ fun mem => head_plain (List.mem_of_mem_drop mem)
  have found : strstr d 0 p.delimiter = some (p.head.length - x.length) := by
    have start : strstr d 0 p.delimiter = find p.delimiter (cstr d) := by simp [strstr]
    have here : p.delimiter <+: (cstr d).drop (p.head.length - x.length) := by
      obtain ⟨rest, front⟩ := p.front_starts
      rw [text, ← len, List.drop_left, front, List.append_assoc, cstr_append _ p.delimiter_plain.1]
      exact List.prefix_append _ _
    obtain ⟨k, le, at_⟩ := find_first here
    have later : p.head.length ≤ x.length + k := by
      refine head_le_delimiter cut ((find_spec at_).trans ?_)
      obtain ⟨rest, whole⟩ : cstr d <+: d := List.takeWhile_prefix _
      have inside := find_le at_
      conv_rhs => rw [← whole]
      rw [List.drop_append_of_le_length (by omega)]
      exact List.prefix_append _ _
    rw [start, at_]
    exact congrArg some (by omega)
  have start : d.drop (p.head.length - x.length) = p.front ++ d.drop (p.frontEnd - x.length) := by
    conv_lhs => rw [split]
    rw [← len, List.drop_left]
  rw [filePart, found, Option.bind_some, start]

def Right (p : FormPost) (x : Bytes) (st e : Nat) : Prop := x.length + st = p.head.length ∧ e + 4 = p.front.length

def Finds (p : FormPost) (more : Bytes) (t : UploadType) : Prop :=
  findUploadType (cstr (p.front ++ more)) = some t ∧
    fileHeaderEnd t (cstr (p.front ++ more)) = some (p.front.length - 4)

lemma filePart_late (cut : x ++ d ++ y = p.text) {t : UploadType} {st e : Nat}
    (part : filePart p.delimiter d = some (t, st, e)) : p.head.length ≤ x.length + st := by
  simp only [filePart, Option.bind_eq_some_iff, Option.map_eq_some_iff, Prod.mk.injEq] at part
  obtain ⟨k, found, -, -, -, -, -, rfl, -⟩ := part
  rw [strstr_zero_iff] at found
  exact head_le_delimiter cut (find_spec found.1)

lemma filePart_right_iff (cut : x ++ d ++ y = p.text) (t : UploadType) :
    (∃ st e, filePart p.delimiter d = some (t, st, e) ∧ p.Right x st e) ↔
      x.length ≤ p.head.length ∧ p.frontEnd ≤ x.length + d.length ∧ p.Finds (d.drop (p.frontEnd - x.length)) t := by
  have four := p.length_front
  constructor
  · rintro ⟨st, e, part, start, ends⟩
    have le := filePart_le part
    have early : x.length ≤ p.head.length := by omega
    have all : p.frontEnd ≤ x.length + d.length := by
      rw [frontEnd]
      omega
    rw [filePart_piece cut early all] at part
    simp only [Option.bind_eq_some_iff, Option.map_eq_some_iff, Prod.mk.injEq] at part
    obtain ⟨t', type, e', blank, rfl, -, rfl⟩ := part
    refine ⟨early, all, type, ?_⟩
    rw [blank]
    exact congrArg some (by omega)
  · rintro ⟨early, all, type, blank⟩
    refine ⟨p.head.length - x.length, p.front.length - 4, ?_, by omega, by omega⟩
    rw [filePart_piece cut early all, type, Option.bind_some, blank]
    rfl

end Piece

end FormPost

end ResQBoot.Failsafe
