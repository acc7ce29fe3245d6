import ResQBoot.Lib.Fields
import ResQBoot.Lib.Numeral

/-!
# ustar archives

An archive is a row of entries, each a header of 512 bytes and its data, filled up to whole blocks; two blocks of zeros
end it. The header is kept as its fields, so that a name, a size or the type of an entry can be read from it.
-/

namespace ResQBoot.Tar

def SizeField (n : Nat) (s : Bytes) : Prop :=
  s.length = 12 ∧ ∃ k digits tail, s = List.replicate k 32 ++ (digits ++ tail) ∧ digits ≠ [] ∧
    (∀ c ∈ digits, isDigitOf 8 c = true) ∧ numeral 8 digits = n ∧ ∀ c ∈ tail.head?, c = 32 ∨ c = 0

structure Entry where
  name : Bytes
  mode : Bytes
  size : Bytes
  info : Bytes
  owner : Bytes
  data : Bytes
  pad : Bytes
  name_fits : name ≠ [] ∧ name.length ≤ 100 ∧ 0 ∉ name
  mode_length : mode.length = 24
  size_field : SizeField data.length size
  info_length : info.length = 121
  owner_length : owner.length = 250
  pad_length : data.length + pad.length = roundUp data.length 512

namespace Entry

def header (e : Entry) : Bytes :=
  e.name ++ (List.replicate (100 - e.name.length) 0 ++ (e.mode ++ (e.size ++ (e.info ++ (bytes "ustar" ++ e.owner)))))

def block (e : Entry) : Bytes := e.header ++ (e.data ++ e.pad)

def typeflag (e : Entry) : UInt8 := e.info.getD 20 0

def path (e : Entry) : Bytes :=
  let pre := cstr (slice e.owner 83 155)
  if pre.isEmpty then e.name else pre ++ 47 :: e.name

variable (e : Entry)

lemma header_length : e.header.length = 512 := by
  have name := e.name_fits.2.1
  have size := e.size_field.1
  have mode := e.mode_length
  have info := e.info_length
  have owner := e.owner_length
  have magic : (bytes "ustar").length = 5 := by decide
  simp only [header, List.length_append, List.length_replicate]
  omega

lemma block_length : e.block.length = 512 + roundUp e.data.length 512 := by
  rw [block, List.length_append, List.length_append, header_length, e.pad_length]

lemma header_slice {a f b : Bytes} {o n : Nat} (parts : e.header = a ++ (f ++ b)) (front : a.length = o) (own : f.length = n) :
    slice e.header o n = f := by
  rw [parts, slice, ← front, List.drop_left, ← own, List.take_left]

lemma header_name : slice e.header 0 100 = e.name ++ List.replicate (100 - e.name.length) 0 := by
  have name := e.name_fits.2.1
  refine e.header_slice (a := []) (b := e.mode ++ (e.size ++ (e.info ++ (bytes "ustar" ++ e.owner)))) ?_ rfl ?_
  · rw [header, List.nil_append, List.append_assoc]
  · rw [List.length_append, List.length_replicate]
    omega

lemma cstr_name : cstr (slice e.header 0 100) = e.name := by
  rw [header_name, cstr_append _ e.name_fits.2.2]
  cases 100 - e.name.length with
  | zero | succ n => exact List.append_nil _

lemma header_size : slice e.header 124 12 = e.size := by
  have name := e.name_fits.2.1
  refine e.header_slice (a := e.name ++ (List.replicate (100 - e.name.length) 0 ++ e.mode))
    (b := e.info ++ (bytes "ustar" ++ e.owner)) ?_ ?_ e.size_field.1
  · simp only [header, List.append_assoc]
  · simp only [List.length_append, List.length_replicate, e.mode_length]
    omega

lemma header_magic : slice e.header 257 5 = bytes "ustar" := by
  have name := e.name_fits.2.1
  refine e.header_slice (a := e.name ++ (List.replicate (100 - e.name.length) 0 ++ (e.mode ++ (e.size ++ e.info))))
    (b := e.owner) ?_ ?_ (by decide)
  · simp only [header, List.append_assoc]
  · simp only [List.length_append, List.length_replicate, e.mode_length, e.size_field.1, e.info_length]
    omega

end Entry

def blocks (es : List Entry) : Bytes := es.flatMap Entry.block

lemma blocks_cons (e : Entry) (es : List Entry) : blocks (e :: es) = e.block ++ blocks es := List.flatMap_cons

section Placed

variable {α : Type} (f : α → Entry)

def placed : Nat → List α → List (Nat × α)
  | _, [] => []
  | pos, x :: l => (pos + 512, x) :: placed (pos + (f x).block.length) l

lemma placed_above {pos : Nat} {l : List α} {x : Nat × α} (mem : x ∈ placed f pos l) : pos < x.1 := by
  induction l generalizing pos with
  | nil => cases mem
  | cons e l ih =>
    rcases List.mem_cons.mp mem with rfl | mem
    · exact Nat.lt_add_of_pos_right (by decide)
    · exact Nat.lt_of_le_of_lt (Nat.le_add_right _ _) (ih mem)

lemma placed_inj {pos : Nat} {l : List α} {x y : Nat × α} (hx : x ∈ placed f pos l) (hy : y ∈ placed f pos l)
    (same : x.1 = y.1) : x = y := by
  induction l generalizing pos with
  | nil => cases hx
  | cons e l ih =>
    have block := (f e).block_length
    rcases List.mem_cons.mp hx with rfl | hx
    · rcases List.mem_cons.mp hy with rfl | hy
      · rfl
      · have above := placed_above f hy
        dsimp only at same
        omega
    · rcases List.mem_cons.mp hy with rfl | hy
      · have above := placed_above f hx
        dsimp only at same
        omega
      · exact ih hx hy

lemma placed_map (pos : Nat) (l : List α) : (placed f pos l).map Prod.snd = l := by
  induction l generalizing pos with
  | nil => rfl
  | cons e l ih => exact congrArg (e :: ·) (ih _)

end Placed

end ResQBoot.Tar
