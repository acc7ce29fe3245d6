import ResQBoot.Failsafe.Form
import ResQBoot.Lib.CString

/-!
# The lookup of a form field

`httpd_form_value` as the loop over pointers that it is. Every character it reads is one of the body, as long as its
pointer is not NULL.
-/

namespace ResQBoot.Failsafe

def fieldIs (body key : CString) (p len : Nat) : Walk Bool := do
  if len > key.length then
    let same ← body.strncmp p key.1
    if same then
      let c ← body.charAt (p + key.length)
      return c = 61
    return false
  return false

def copyValue (body key : CString) (outSize p len : Nat) : Walk (Option Bytes) := do
  let vlen := len - key.length - 1
  if vlen ≥ outSize then return none
  let out ← body.memcpy (p + key.length + 1) vlen
  return some (urlDecode out)

def formWalk (body key : CString) (outSize : Nat) : Nat → Option Nat → Walk (Option Bytes)
  | 0, _ => .error .endless
  | _ + 1, none => .error .null
  | fuel + 1, some p => do
    let c ← body.charAt p
    if c = 0 then return none
    let amp ← body.strchr p 38
    let len ← match amp with
      | some a => pure (a - p)
      | none => body.strlen p
    if ← fieldIs body key p len then copyValue body key outSize p len
    else formWalk body key outSize fuel (amp.map (· + 1))

def formValueWalk (body key : CString) (outSize : Nat) : Walk (Option Bytes) :=
  if outSize = 0 then return none else formWalk body key outSize (body.length + 2) (some 0)

/-! ## What is looked for -/

def isNamed (key f : Bytes) : Bool := (key ++ [61]).isPrefixOf f

def fieldValue (key body : Bytes) : Option Bytes :=
  ((body.splitOn 38).find? (isNamed key)).map (·.drop (key.length + 1))

def formSpec (body key : Bytes) (outSize : Nat) : Option Bytes :=
  ((fieldValue key body).filter (·.length < outSize)).map urlDecode

def endsOpen (body : Bytes) : Bool := body.isEmpty || body.getLast? = some 38

section Fields

variable {key a b : Bytes}

lemma isNamed_iff {f : Bytes} : isNamed key f = true ↔
    key.length < f.length ∧ key.isPrefixOf f = true ∧ f.getD key.length 0 = 61 := by
  rw [isNamed, List.isPrefixOf_iff_prefix, List.isPrefixOf_iff_prefix]
  constructor
  · rintro ⟨v, rfl⟩
    refine ⟨by simp, ⟨61 :: v, by simp⟩, by simp⟩
  rintro ⟨long, ⟨t, rfl⟩, sep⟩
  cases t with
  | nil => simp at long
  | cons c t =>
    have is : c = 61 := by simpa using sep
    exact ⟨t, by simp [is]⟩

lemma fieldValue_last (single : 38 ∉ a) :
    fieldValue key a = if isNamed key a then some (a.drop (key.length + 1)) else none := by
  rw [fieldValue, List.splitOn_eq_singleton single, List.find?_singleton]
  split <;> rfl

lemma fieldValue_cons (first : 38 ∉ a) : fieldValue key (a ++ 38 :: b) =
    if isNamed key a then some (a.drop (key.length + 1)) else fieldValue key b := by
  rw [fieldValue, List.splitOn_append_cons_self_of_not_mem first, List.find?_cons]
  split <;> simp_all [fieldValue]

lemma endsOpen_cons : endsOpen (a ++ 38 :: b) = endsOpen b := by
  cases b with
  | nil => simp [endsOpen]
  | cons c b => simp [endsOpen, List.getLast?_append, List.getLast?_cons_cons]

lemma endsOpen_last (some_ : a ≠ []) (single : 38 ∉ a) : endsOpen a = false := by
  have last : a.getLast? ≠ some 38 := fun eq => single (List.mem_of_getLast? eq)
  simp [endsOpen, some_, last]

lemma first_field (body : Bytes) : 38 ∉ body ∨ ∃ a b, body = a ++ 38 :: b ∧ 38 ∉ a := by
  by_cases mem : 38 ∈ body
  · exact .inr (List.eq_append_cons_of_mem mem)
  · exact .inl mem

lemma fields_induction {P : Bytes → Prop} (last : ∀ a, 38 ∉ a → P a)
    (cons : ∀ a b, 38 ∉ a → P b → P (a ++ 38 :: b)) (body : Bytes) : P body := by
  induction len : body.length using Nat.strong_induction_on generalizing body with
  | _ n ih =>
    obtain single | ⟨a, b, rfl, first⟩ := first_field body
    · exact last body single
    · refine cons a b first (ih b.length ?_ b rfl)
      rw [List.length_append, List.length_cons] at len
      omega

lemma mem_of_fieldValue {v : Bytes} {c : UInt8} (found : fieldValue key b = some v) (mem : c ∈ v) : c ∈ b := by
  induction b using fields_induction with
  | last a single =>
    rw [fieldValue_last single] at found
    split at found
    · cases found
      exact List.mem_of_mem_drop mem
    · cases found
  | cons a b first ih =>
    rw [fieldValue_cons first] at found
    split at found
    · cases found
      exact List.mem_append_left _ (List.mem_of_mem_drop mem)
    · exact List.mem_append_right _ (List.mem_cons_of_mem _ (ih found))

end Fields

/-! ## The loop -/

section Walk

variable {body key : CString} {outSize p : Nat} {a rest : Bytes}

lemma fieldIs_ok (inside : p ≤ body.length) (cut : body.1.drop p = a ++ rest) :
    fieldIs body key p a.length = .ok (isNamed key.1 a) := by
  have long : a.length + rest.length = body.length - p := by
    rw [← List.length_append, ← cut, CString.length_rest]
  rw [fieldIs]
  split
  · rename_i longer
    have place : (body.1.drop (p + key.length)).headD 0 = a.getD key.length 0 := by
      rw [← List.drop_drop, cut, List.drop_append_of_le_length (Nat.le_of_lt longer), List.drop_eq_getElem_cons longer,
        List.getD_eq_getElem?_getD, List.getElem?_eq_getElem longer]
      rfl
    have head : key.1.isPrefixOf (a ++ rest) = key.1.isPrefixOf a := by
      rw [Bool.eq_iff_iff, List.isPrefixOf_iff_prefix, List.isPrefixOf_iff_prefix]
      refine ⟨fun sub => ?_, fun sub => sub.trans (List.prefix_append _ _)⟩
      exact List.prefix_of_prefix_length_le sub (List.prefix_append _ _) (Nat.le_of_lt longer)
    rw [CString.strncmp_ok key.2 inside, Walk.ok_bind, cut, head]
    rw [CString.charAt_head (by omega), Walk.ok_bind, place]
    have named : isNamed key.1 a = (key.1.isPrefixOf a && decide (a.getD key.length 0 = 61)) := by
      rw [Bool.eq_iff_iff, isNamed_iff]
      simp only [Bool.and_eq_true, decide_eq_true_eq]
      exact ⟨fun h => h.2, fun h => ⟨longer, h⟩⟩
    rw [named]
    cases key.1.isPrefixOf a <;> rfl
  · rename_i short
    have other : isNamed key.1 a = false := by
      rw [Bool.eq_false_iff]
      exact fun named => short (isNamed_iff.mp named).1
    rw [other]
    rfl

lemma copyValue_ok (inside : p ≤ body.length) (cut : body.1.drop p = a ++ rest) (named : isNamed key.1 a = true) :
    copyValue body key outSize p a.length =
      .ok (((some (a.drop (key.length + 1))).filter (·.length < outSize)).map urlDecode) := by
  have longer : key.length < a.length := (isNamed_iff.mp named).1
  have long : a.length + rest.length = body.length - p := by
    rw [← List.length_append, ← cut, CString.length_rest]
  have value : body.memcpy (p + key.length + 1) (a.length - key.length - 1) = .ok (a.drop (key.length + 1)) := by
    rw [CString.memcpy_ok (by omega), Nat.add_assoc, ← List.drop_drop, cut, List.drop_append_of_le_length longer,
      Nat.sub_sub, ← List.length_drop, List.take_left]
  rw [copyValue]
  by_cases fits : (a.drop (key.length + 1)).length < outSize
  · have room : ¬ a.length - key.length - 1 ≥ outSize := by
      rw [List.length_drop] at fits
      omega
    rw [if_neg room, value, Option.filter_some, if_pos (by simpa using fits)]
    rfl
  · have large : a.length - key.length - 1 ≥ outSize := by
      rw [List.length_drop] at fits
      omega
    rw [if_pos large, Option.filter_some, if_neg (by simpa using fits)]
    rfl

lemma formWalk_eq {fuel : Nat} (inside : p ≤ body.length) (at' : body.1.drop p = rest) (enough : rest.length + 2 ≤ fuel) :
    formWalk body key outSize fuel (some p) =
      if (fieldValue key.1 rest).isSome || endsOpen rest then .ok (formSpec rest key.1 outSize) else .error .null := by
  induction fuel generalizing p rest with
  | zero => omega
  | succ fuel ih =>
    rw [formWalk, CString.charAt_head inside, at', Walk.ok_bind, formSpec]
    by_cases done : rest = []
    · rw [done]
      have none_ : fieldValue key.1 [] = none := by
        rw [fieldValue_last (by simp), if_neg]
        simp [isNamed]
      rw [none_, if_pos (by rfl)]
      rfl
    have text : rest.headD 0 ≠ 0 := by
      cases rest with
      | nil => exact absurd rfl done
      | cons c t => exact (CString.rest_cons at').2.2
    rw [if_neg text]
    obtain single | ⟨a, b, rfl, first⟩ := first_field rest
    · -- the last field: the pointer is NULL behind it
      have len : body.length - p = rest.length := by rw [← at', CString.length_rest]
      rw [CString.strchr_none inside (by decide) (by rw [at']; exact single), Walk.ok_bind]
      simp only [CString.strlen_ok inside, Walk.ok_bind, len]
      rw [fieldIs_ok inside (at'.trans (List.append_nil _).symm), Walk.ok_bind, fieldValue_last single,
        endsOpen_last done single]
      cases named : isNamed key.1 rest with
      | true =>
        simp only [if_true]
        rw [copyValue_ok inside (at'.trans (List.append_nil _).symm) named]
        rfl
      | false =>
        obtain ⟨n, rfl⟩ : ∃ n, fuel = n + 1 := ⟨fuel - 1, by omega⟩
        rfl
    · have long : a.length + (38 :: b).length = body.length - p := by
        rw [← List.length_append, ← at', CString.length_rest]
      rw [List.length_cons] at long
      rw [CString.strchr_some inside at' first, Walk.ok_bind]
      simp only [Walk.pure_eq, Walk.ok_bind, Nat.add_sub_cancel_left]
      rw [fieldIs_ok inside at', Walk.ok_bind, fieldValue_cons first, endsOpen_cons]
      cases named : isNamed key.1 a with
      | true =>
        simp only [if_true]
        rw [copyValue_ok inside at' named]
        rfl
      | false =>
        have next : body.1.drop (p + a.length + 1) = b := by
          rw [Nat.add_assoc, ← List.drop_drop, at', ← List.drop_drop, List.drop_left]
          rfl
        simp only [Bool.false_eq_true, if_false, Option.map_some]
        rw [ih (by omega) next (by rw [List.length_append, List.length_cons] at enough; omega), formSpec]

lemma formValueWalk_eq (room : 1 ≤ outSize) : formValueWalk body key outSize =
    if (fieldValue key.1 body.1).isSome || endsOpen body.1 then .ok (formSpec body.1 key.1 outSize)
    else .error .null := by
  rw [formValueWalk, if_neg (by omega)]
  exact formWalk_eq (Nat.zero_le _) List.drop_zero (Nat.le_refl _)

end Walk

/-- The lookup returns the decoded value of the first field of the name if it fits, and -1 otherwise, reading only the
body, exactly if there is such a field, or the last field is empty. -/
theorem formValue_iff (body key : CString) (outSize : Nat) (room : 1 ≤ outSize) :
    formValueWalk body key outSize = .ok (formSpec body.1 key.1 outSize) ↔
      (∃ f ∈ body.1.splitOn 38, isNamed key.1 f) ∨ body.1 = [] ∨ body.1.getLast? = some 38 := by
  have some_ : (fieldValue key.1 body.1).isSome = true ↔ ∃ f ∈ body.1.splitOn 38, isNamed key.1 f := by
    rw [fieldValue, Option.isSome_map, List.find?_isSome]
  rw [formValueWalk_eq room, ← some_]
  have open_ : endsOpen body.1 = true ↔ body.1 = [] ∨ body.1.getLast? = some 38 := by simp [endsOpen]
  rw [← open_, ← Bool.or_eq_true]
  split
  · rename_i found
    exact iff_of_true rfl found
  · rename_i missing
    refine iff_of_false ?_ missing
    rintro ⟨⟩

theorem formValue_second :
    formValueWalk ⟨bytes "x=1&iface=eth%30&mac=", by decide⟩ ⟨bytes "iface", by decide⟩ 16 = .ok (some (bytes "eth0")) :=
  (formValue_iff _ _ 16 (by decide)).mpr (.inl ⟨bytes "iface=eth%30", by decide, by decide⟩)

/-- A body without the field: the loop reads through NULL. -/
theorem formValue_null :
    formValueWalk ⟨bytes "mac=1", by decide⟩ ⟨bytes "iface", by decide⟩ 16 = .error .null := by decide

/-! ## The lookup of the request handlers -/

def FormValue.of (v : Option Bytes) : FormValue := (v.map fun out => FormValue.found (cstr out)).getD .failed

lemma formField_eq (key f : Bytes) (outSize : Nat) : formField key outSize f = if isNamed key f then
    some (FormValue.of (((some (f.drop (key.length + 1))).filter (·.length < outSize)).map urlDecode)) else none := by
  rw [formField]
  by_cases named : isNamed key f = true
  · rw [if_pos named, if_pos (isNamed_iff.mp named), Option.filter_some]
    simp only
    by_cases fits : (f.drop (key.length + 1)).length < outSize
    · rw [if_neg (Nat.not_le.mpr fits), if_pos (by simpa using fits)]
      rfl
    · rw [if_pos (Nat.not_lt.mp fits), if_neg (by simpa using fits)]
      rfl
  · rw [if_neg named, if_neg fun h => named (isNamed_iff.mpr h)]

lemma formLoop_cons {key f : Bytes} {outSize : Nat} {rest : List Bytes} (more : rest ≠ []) :
    formLoop key outSize (f :: rest) = (formField key outSize f).getD (formLoop key outSize rest) := by
  cases rest with
  | nil => exact absurd rfl more
  | cons g rest => rfl

lemma formLoop_eq (key body : Bytes) (outSize : Nat) : formLoop key outSize (body.splitOn 38) =
    if (fieldValue key body).isSome || endsOpen body then FormValue.of (formSpec body key outSize)
    else .nullDeref := by
  induction body using fields_induction with
  | last body single =>
    rw [List.splitOn_eq_singleton single, formLoop, formField_eq, formSpec, fieldValue_last single]
    by_cases done : body = []
    · rw [done]
      simp [isNamed, endsOpen, FormValue.of]
    · rw [endsOpen_last done single, if_neg (by simpa using done)]
      cases isNamed key body <;> rfl
  | cons a b first ih =>
    rw [List.splitOn_append_cons_self_of_not_mem first, formLoop_cons (List.splitOn_ne_nil _ _), formField_eq, ih,
      formSpec, formSpec, fieldValue_cons first, endsOpen_cons]
    cases isNamed key a <;> rfl

lemma httpdFormValue_eq (body key : Bytes) (outSize : Nat) : httpdFormValue body key outSize =
    if (fieldValue key (cstr body)).isSome || endsOpen (cstr body) then
      FormValue.of (formSpec (cstr body) key outSize)
    else .nullDeref :=
  formLoop_eq key (cstr body) outSize

lemma httpdFormValue_walk (body : Bytes) (key : CString) {outSize : Nat} (room : 1 ≤ outSize) :
    formValueWalk ⟨cstr body, zero_not_mem_cstr body⟩ key outSize = .error .null ∧
        httpdFormValue body key.1 outSize = .nullDeref ∨
      ∃ v, formValueWalk ⟨cstr body, zero_not_mem_cstr body⟩ key outSize = .ok v ∧
        httpdFormValue body key.1 outSize = FormValue.of v := by
  rw [formValueWalk_eq room, httpdFormValue_eq]
  split
  · exact .inr ⟨_, rfl, rfl⟩
  · exact .inl ⟨rfl, rfl⟩

end ResQBoot.Failsafe
