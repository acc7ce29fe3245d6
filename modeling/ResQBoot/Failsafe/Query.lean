import ResQBoot.Failsafe.Backup
import ResQBoot.Failsafe.FormFields
import ResQBoot.Lib.Lines
import ResQBoot.Lib.Numeral

/-!
# Where the parameters of a backup come from

`httpd_handle_backup` looks for `?`, `raw=1`, `flash=` and `size=` in the whole request, not only in its target.
`backupParams_request` says what each part of a request gives.
-/

namespace ResQBoot.Failsafe

structure BackupParams where
  name : Bytes
  raw : Bool
  flash : Option (Option FlashSel)
  size : Nat
  deriving DecidableEq, Repr

def queryParams (query : Bytes) : Option BackupParams :=
  if hasAt query 0 (bytes "part=") then
    some ⟨backupPartName (query.drop 5), contains (bytes "raw=1") query, flashOverride query, backupSize query⟩
  else none

def backupParams (data : Bytes) : Option BackupParams := (behind [63] (cstr (data.drop 4))).bind queryParams

def flashNamed (v : Bytes) : Option (Option FlashSel) :=
  if v = bytes "emmc" then some (some .emmc)
  else if v = bytes "nand" then some (some .nand)
  else if v = bytes "nor" then some (some .nor)
  else none

def exactParams (target : Bytes) : Option BackupParams :=
  (behind [63] target).bind fun query =>
    if hasAt query 0 (bytes "part=") then
      some ⟨backupPartName (query.drop 5),
        (query.splitOn 38).any (hasAt · 0 (bytes "raw=1")),
        ((fieldValue (bytes "flash") query).map flashNamed).getD (some none),
        ((fieldValue (bytes "size") query).map fun v => (simpleStrto 64 10 v).1).getD 0⟩
    else none

/-- A request target. -/
abbrev Uri := { t : Bytes // 0 ∉ t ∧ 10 ∉ t ∧ 13 ∉ t ∧ 32 ∉ t }

def getRequest (target : Uri) (rest : Bytes) : Bytes := bytes "GET " ++ target.1 ++ 32 :: rest

/-! ## The two parts of a request -/

def flashText (t : Bytes) : Bytes := t.takeWhile fun c => c ≠ 38 ∧ c ≠ 13 ∧ c ≠ 10 ∧ c ≠ 32

def numberAt (t : Bytes) : Nat := (simpleStrto 64 10 t).1

lemma flashOverride_eq (query : Bytes) :
    flashOverride query = ((flashParam 63 query).map fun t => flashNamed (flashText t)).getD (some none) := by
  rw [flashOverride]
  cases flashParam 63 query <;> rfl

lemma backupSize_eq (query : Bytes) : backupSize query = ((behind (bytes "size=") query).map numberAt).getD 0 := by
  rw [backupSize, behind]
  cases find (bytes "size=") query <;> rfl

lemma contains_eq (pat text : Bytes) : contains pat text = (behind pat text).isSome := by
  rw [contains, behind, Option.isSome_map]

lemma behind_none {pat text : Bytes} (absent : contains pat text = false) : behind pat text = none := by
  rw [contains_eq] at absent
  exact Option.not_isSome_iff_eq_none.mp (Bool.eq_false_iff.mp absent)

def splitParams (query rest : Bytes) : Option BackupParams :=
  if hasAt query 0 (bytes "part=") then
    some ⟨backupPartName (query.drop 5),
      contains (bytes "raw=1") query || contains (bytes "raw=1") rest,
      (((flashParam 63 query).or (flashParam 32 rest)).map fun t => flashNamed (flashText t)).getD (some none),
      (((behind (bytes "size=") query).or (behind (bytes "size=") rest)).map numberAt).getD 0⟩
  else none

section Split

variable {query rest : Bytes}

lemma takeWhile_stop {p : UInt8 → Bool} {c : UInt8} (stop : p c = false) (a s : Bytes) :
    (a ++ c :: s).takeWhile p = a.takeWhile p := by
  induction a with
  | nil => rw [List.nil_append, List.takeWhile_cons, stop, if_neg Bool.false_ne_true, List.takeWhile_nil]
  | cons x a ih => rw [List.cons_append, List.takeWhile_cons, List.takeWhile_cons, ih]

/-- A blank ends the target, and an `&` ends a field. -/
def Separates (c : UInt8) : Prop := c = 32 ∨ c = 38

variable {c : UInt8}

lemma flashText_stop (sep : Separates c) (t s : Bytes) : flashText (t ++ c :: s) = flashText t :=
  takeWhile_stop (by rcases sep with rfl | rfl <;> decide) t s

lemma numberAt_stop (sep : Separates c) (t s : Bytes) : numberAt (t ++ c :: s) = numberAt t := by
  rw [numberAt, numberAt, simpleStrto_ten, simpleStrto_ten,
    hexPrefixed_append (by rcases sep with rfl | rfl <;> decide)]
  split
  · rename_i hex
    obtain ⟨d, u, rfl, -⟩ := hexPrefixed_iff.mp hex
    exact congrArg (fun l => numeral 16 l % 2 ^ 64)
      (takeWhile_stop (by rcases sep with rfl | rfl <;> decide) (d :: u) s)
  · rw [takeWhile_stop (by rcases sep with rfl | rfl <;> decide)]

lemma hasAt_stop {lit : Bytes} (plain : c ∉ lit) (a s : Bytes) : hasAt (a ++ c :: s) 0 lit = hasAt a 0 lit := by
  rw [hasAt, hasAt, List.drop_zero, List.drop_zero, Bool.eq_iff_iff, List.isPrefixOf_iff_prefix,
    List.isPrefixOf_iff_prefix]
  exact ⟨prefix_of_prefix_cons plain, fun sub => sub.trans (List.prefix_append _ _)⟩

lemma flashParam_blank (prev : UInt8) (a s : Bytes) : flashParam prev (a ++ 32 :: s) =
    ((flashParam prev a).map (· ++ 32 :: s)).or (flashParam 32 s) := by
  induction a generalizing prev with
  | nil =>
    have other : hasAt (32 :: s) 0 (bytes "flash=") = false := hasAt_stop (by decide) [] s
    rw [List.nil_append, flashParam.eq_def]
    simp only [other, Bool.false_and, Bool.false_eq_true, if_false]
    rfl
  | cons c a ih =>
    rw [List.cons_append, flashParam, ← List.cons_append, hasAt_stop (by decide), flashParam, ih]
    split
    · rename_i here
      have fits : 6 ≤ (c :: a).length :=
        (List.isPrefixOf_iff_prefix.mp (Bool.and_eq_true_iff.mp here).1).length_le
      rw [List.drop_append_of_le_length fits]
      rfl
    · rfl

lemma backupPartName_blank (x s : Bytes) : backupPartName (x ++ 32 :: s) = backupPartName x := by
  have trimmed : strTrimCrlf ((x ++ 32 :: s).take 63) = strTrimCrlf (x.take 63) := by
    rw [List.take_append, strTrimCrlf, strTrimCrlf]
    cases 63 - x.length with
    | zero => rw [List.take_zero, List.append_nil]
    | succ n => rw [List.take_succ_cons, takeWhile_stop (by decide)]
  rw [backupPartName, backupPartName, trimmed]

lemma or_map_congr {α β : Type} {f : α → α} {g : α → β} (same : ∀ x, g (f x) = g x) (o o' : Option α) :
    ((o.map f).or o').map g = (o.or o').map g := by
  cases o with
  | none => rfl
  | some x => exact congrArg some (same x)

lemma queryParams_blank (query rest : Bytes) : queryParams (query ++ 32 :: rest) = splitParams query rest := by
  rw [queryParams, splitParams, hasAt_stop (by decide)]
  split
  · rename_i part
    have fits : 5 ≤ query.length := (List.isPrefixOf_iff_prefix.mp part).length_le
    have flash := or_map_congr (g := fun t => flashNamed (flashText t)) (fun t => by rw [flashText_stop (.inl rfl) t rest])
      (flashParam 63 query) (flashParam 32 rest)
    have size := or_map_congr (fun t => numberAt_stop (.inl rfl) t rest) (behind (bytes "size=") query) (behind (bytes "size=") rest)
    rw [List.drop_append_of_le_length fits, backupPartName_blank, flashOverride_eq, flashParam_blank, flash, backupSize_eq,
      behind_append (by decide) (by decide), size, contains_eq, behind_append (by decide) (by decide), contains_eq,
      contains_eq, Option.isSome_or, Option.isSome_map]
  · rfl

lemma backupParams_request (target : Uri) (rest : Bytes) : backupParams (getRequest target rest) =
    ((behind [63] target.1).map fun query => splitParams query (cstr rest)).getD
      ((behind [63] (cstr rest)).bind queryParams) := by
  have text : cstr ((getRequest target rest).drop 4) = target.1 ++ 32 :: cstr rest := by
    have cut : (getRequest target rest).drop 4 = target.1 ++ 32 :: rest := by
      rw [getRequest, List.append_assoc]
      rfl
    rw [cut, cstr_append _ target.2.1]
    rfl
  rw [backupParams, text, behind_append (by decide) (by decide)]
  cases behind [63] target.1 with
  | none => rfl
  | some query => exact queryParams_blank query (cstr rest)

lemma contains_of_hasAt {pat a : Bytes} (here : hasAt a 0 pat = true) : contains pat a = true := by
  obtain ⟨t, rfl⟩ := List.isPrefixOf_iff_prefix.mp here
  exact find_isSome pat [] t

lemma contains_of_field {pat : Bytes} (plain : 38 ∉ pat) (some_ : pat ≠ [])
    (field : (query.splitOn 38).any (hasAt · 0 pat) = true) : contains pat query = true := by
  induction query using fields_induction with
  | last a single =>
    rw [List.splitOn_eq_singleton single] at field
    exact contains_of_hasAt (by simpa using field)
  | cons a b first ih =>
    rw [List.splitOn_append_cons_self_of_not_mem first, List.any_cons, Bool.or_eq_true] at field
    rw [contains_eq, behind_append plain some_, Option.isSome_or, Option.isSome_map, Bool.or_eq_true, ← contains_eq,
      ← contains_eq]
    exact field.imp contains_of_hasAt ih

end Split

/-! ## The fields of the query -/

section Fields

variable {a b query : Bytes} {prev : UInt8}

lemma contains_cons {pat : Bytes} (none : contains pat (prev :: a) = false) :
    pat.isPrefixOf (prev :: a) = false ∧ contains pat a = false := by
  rw [contains_eq, behind_cons] at none
  rw [contains_eq]
  split at none
  · cases none
  · rename_i other
    exact ⟨Bool.eq_false_iff.mpr other, none⟩

lemma contains_pieces {pat : Bytes} (plain : 38 ∉ pat) (some_ : pat ≠ []) (none : contains pat (a ++ 38 :: b) = false) :
    contains pat a = false ∧ contains pat b = false := by
  rw [contains_eq, behind_append plain some_, Option.isSome_or, Option.isSome_map, Bool.or_eq_false_iff] at none
  rwa [contains_eq, contains_eq]

/-- Inside a field a `flash=` counts only behind a `?`. -/
lemma flashParam_inner (inner : prev ≠ 38) (single : 38 ∉ a) (clean : contains (bytes "?flash=") (prev :: a) = false) :
    flashParam prev a = none ∧ flashParam prev (a ++ 38 :: b) = flashParam 38 b := by
  induction a generalizing prev with
  | nil =>
    refine ⟨rfl, ?_⟩
    rw [List.nil_append, flashParam, show hasAt (38 :: b) 0 (bytes "flash=") = false from hasAt_stop (by decide) [] b]
    rfl
  | cons c a ih =>
    obtain ⟨here, later⟩ := contains_cons clean
    have skip : (hasAt (c :: a) 0 (bytes "flash=") && (prev = 63 || prev = 38)) = false := by
      by_cases mark : prev = 63
      · subst mark
        have none : hasAt (c :: a) 0 (bytes "flash=") = false := here
        rw [none, Bool.false_and]
      · simp [mark, inner]
    obtain ⟨none, next⟩ := ih (List.ne_of_not_mem_cons single).symm (List.not_mem_of_not_mem_cons single) later
    rw [flashParam, List.cons_append, flashParam, ← List.cons_append, hasAt_stop (by decide), skip]
    exact ⟨none, next⟩

lemma flashParam_first (first : 38 ∉ a) (clean : contains (bytes "?flash=") a = false) :
    flashParam 38 a = (if isNamed (bytes "flash") a then some (a.drop 6) else none) ∧
      flashParam 38 (a ++ 38 :: b) =
        if isNamed (bytes "flash") a then some (a.drop 6 ++ 38 :: b) else flashParam 38 b := by
  cases a with
  | nil =>
    refine ⟨rfl, ?_⟩
    rw [List.nil_append, flashParam, show hasAt (38 :: b) 0 (bytes "flash=") = false from hasAt_stop (by decide) [] b]
    rfl
  | cons c a =>
    obtain ⟨none, next⟩ := flashParam_inner (b := b) (List.ne_of_not_mem_cons first).symm
      (List.not_mem_of_not_mem_cons first) clean
    rw [List.cons_append, flashParam, flashParam, ← List.cons_append, hasAt_stop (by decide), none, next]
    have named : hasAt (c :: a) 0 (bytes "flash=") = isNamed (bytes "flash") (c :: a) := rfl
    cases here : isNamed (bytes "flash") (c :: a) with
    | false =>
      rw [named, here]
      exact ⟨rfl, rfl⟩
    | true =>
      have long : 6 ≤ (c :: a).length := (List.isPrefixOf_iff_prefix.mp here).length_le
      rw [named, here, List.drop_append_of_le_length long]
      exact ⟨rfl, rfl⟩

lemma flashText_whole {v : Bytes} (single : 38 ∉ a) (plain : 10 ∉ a ∧ 13 ∉ a ∧ 32 ∉ a) (sub : v ⊆ a) : flashText v = v := by
  refine List.takeWhile_eq_self_iff.mpr fun c mem => ?_
  have : c ≠ 38 ∧ c ≠ 13 ∧ c ≠ 10 ∧ c ≠ 32 := by
    refine ⟨?_, ?_, ?_, ?_⟩ <;> rintro rfl
    · exact single (sub mem)
    · exact plain.2.1 (sub mem)
    · exact plain.1 (sub mem)
    · exact plain.2.2 (sub mem)
  simpa using this

lemma flashParam_field (clean : contains (bytes "?flash=") query = false) (plain : 10 ∉ query ∧ 13 ∉ query ∧ 32 ∉ query) :
    (flashParam 38 query).map flashText = fieldValue (bytes "flash") query := by
  induction query using fields_induction with
  | last a single =>
    rw [fieldValue_last single, (flashParam_first (b := []) single clean).1]
    split
    · exact congrArg some (flashText_whole single plain (List.drop_subset _ _))
    · rfl
  | cons a b first ih =>
    obtain ⟨here, later⟩ := contains_pieces (by decide) (by decide) clean
    simp only [List.mem_append, List.mem_cons, not_or] at plain
    rw [fieldValue_cons first, (flashParam_first first here).2]
    split
    · refine congrArg some ((flashText_stop (.inr rfl) _ _).trans ?_)
      exact flashText_whole first ⟨plain.1.1, plain.2.1.1, plain.2.2.1⟩ (List.drop_subset _ _)
    · exact ih later ⟨plain.1.2.2, plain.2.1.2.2, plain.2.2.2.2⟩

lemma size_field (starts : ∀ f, (query.splitOn 38).find? (contains (bytes "size=")) = some f →
      hasAt f 0 (bytes "size=") = true) :
    (behind (bytes "size=") query).map numberAt = (fieldValue (bytes "size") query).map numberAt := by
  have value {a : Bytes} (here : hasAt a 0 (bytes "size=") = true) : behind (bytes "size=") a = some (a.drop 5) := by
    obtain ⟨t, rfl⟩ := List.isPrefixOf_iff_prefix.mp here
    exact behind_self (by decide) t
  have other {a : Bytes} (absent : contains (bytes "size=") a = false) :
      behind (bytes "size=") a = none ∧ isNamed (bytes "size") a = false := by
    refine ⟨behind_none absent, Bool.eq_false_iff.mpr fun named => ?_⟩
    rw [show contains (bytes "size=") a = true from contains_of_hasAt named] at absent
    cases absent
  induction query using fields_induction with
  | last a single =>
    rw [List.splitOn_eq_singleton single, List.find?_singleton] at starts
    rw [fieldValue_last single]
    cases here : contains (bytes "size=") a with
    | false => rw [(other here).1, (other here).2]; rfl
    | true =>
      have first := starts a (if_pos here)
      rw [value first, show isNamed (bytes "size") a = true from first]
      rfl
  | cons a b single ih =>
    rw [List.splitOn_append_cons_self_of_not_mem single, List.find?_cons] at starts
    rw [fieldValue_cons single, behind_append (by decide) (by decide)]
    cases here : contains (bytes "size=") a with
    | false =>
      rw [here] at starts
      rw [(other here).1, (other here).2]
      exact ih starts
    | true =>
      rw [here] at starts
      have first := starts a rfl
      rw [value first, show isNamed (bytes "size") a = true from first]
      exact congrArg some (numberAt_stop (.inr rfl) _ _)

end Fields

/-! ## Where the parameters come from -/

/-- The rest has no query of its own. -/
def NoQuery (rest : Bytes) : Prop := ∀ query, behind [63] rest = some query → hasAt query 0 (bytes "part=") = false

/-- Where the texts that the server looks for may stand. `raw=1`: at the start of a query field, or nowhere. `flash=`: in
the query not behind a `?` other than the first one, and in the rest not behind a `?` or `&` if no query field has the name.
`size=`: the first query field that has the text starts with it; if there is none, the rest has none either. -/
def FromQuery (target rest : Bytes) : Prop :=
  match behind [63] target with
  | none => NoQuery rest
  | some query => hasAt query 0 (bytes "part=") = true →
    ((query.splitOn 38).any (hasAt · 0 (bytes "raw=1")) = true ∨
      contains (bytes "raw=1") query = false ∧ contains (bytes "raw=1") rest = false) ∧
    (contains (bytes "?flash=") query = false ∧
      ((query.splitOn 38).any (isNamed (bytes "flash")) = true ∨ flashParam 32 rest = none)) ∧
    match (query.splitOn 38).find? (contains (bytes "size=")) with
    | some f => hasAt f 0 (bytes "size=") = true
    | none => contains (bytes "size=") rest = false

/-- Each of the texts stands in the query, or in neither of the two rests. -/
def RestsSilent (target rest rest' : Bytes) : Prop :=
  match behind [63] target with
  | none => NoQuery rest ∧ NoQuery rest'
  | some query => hasAt query 0 (bytes "part=") = true →
    (contains (bytes "raw=1") query = true ∨ contains (bytes "raw=1") rest = false ∧ contains (bytes "raw=1") rest' = false) ∧
    ((flashParam 63 query).isSome = true ∨ flashParam 32 rest = none ∧ flashParam 32 rest' = none) ∧
    (contains (bytes "size=") query = true ∨ contains (bytes "size=") rest = false ∧ contains (bytes "size=") rest' = false)

section Sources

variable {target : Uri} {rest rest' : Bytes} {query : Bytes}

lemma noQuery_params (silent : NoQuery rest) : (behind [63] rest).bind queryParams = none := by
  refine Option.bind_eq_none_iff.mpr fun query found => ?_
  rw [queryParams, silent query found]
  rfl

lemma raw_exact (clean : (query.splitOn 38).any (hasAt · 0 (bytes "raw=1")) = true ∨
      contains (bytes "raw=1") query = false ∧ contains (bytes "raw=1") rest = false) :
    (contains (bytes "raw=1") query || contains (bytes "raw=1") rest) =
      (query.splitOn 38).any (hasAt · 0 (bytes "raw=1")) := by
  have field : (query.splitOn 38).any (hasAt · 0 (bytes "raw=1")) = true → contains (bytes "raw=1") query = true :=
    contains_of_field (by decide) (by decide)
  rcases clean with here | ⟨none, none'⟩
  · rw [here, field here]
    rfl
  · rw [none, none', Bool.or_false, eq_comm, Bool.eq_false_iff]
    exact fun here => absurd (field here) (by rw [none]; exact Bool.false_ne_true)

lemma flash_exact (plain : 10 ∉ query ∧ 13 ∉ query ∧ 32 ∉ query) (mark : contains (bytes "?flash=") query = false)
    (clean : (query.splitOn 38).any (isNamed (bytes "flash")) = true ∨ flashParam 32 rest = none) :
    (((flashParam 63 query).or (flashParam 32 rest)).map fun t => flashNamed (flashText t)) =
      (fieldValue (bytes "flash") query).map flashNamed := by
  have start : flashParam 63 query = flashParam 38 query := by
    cases query <;> simp [flashParam]
  have field := flashParam_field mark plain
  rw [← field, start, Option.map_map]
  cases found : flashParam 38 query with
  | some t => rfl
  | none =>
    rw [found, fieldValue, eq_comm, Option.map_none, Option.map_eq_none_iff, List.find?_eq_none] at field
    rcases clean with here | none
    · obtain ⟨f, mem, named⟩ := List.any_eq_true.mp here
      exact absurd named (field f mem)
    · rw [none]
      rfl

lemma size_exact (clean : match (query.splitOn 38).find? (contains (bytes "size=")) with
      | some f => hasAt f 0 (bytes "size=") = true
      | none => contains (bytes "size=") rest = false) :
    ((behind (bytes "size=") query).or (behind (bytes "size=") rest)).map numberAt =
      (fieldValue (bytes "size") query).map numberAt := by
  cases first : (query.splitOn 38).find? (contains (bytes "size=")) with
  | none =>
    rw [first] at clean
    rw [behind_none clean, Option.or_none]
    exact size_field fun f found => absurd (first.symm.trans found) (by simp)
  | some f =>
    rw [first] at clean
    have field : (behind (bytes "size=") query).map numberAt = (fieldValue (bytes "size") query).map numberAt :=
        size_field fun f' found => by
      rw [← Option.some.inj (first.symm.trans found)]
      exact clean
    have here : contains (bytes "size=") query = true :=
      contains_of_field (by decide) (by decide) (List.any_eq_true.mpr ⟨f, List.mem_of_find?_eq_some first, clean⟩)
    rw [contains_eq] at here
    obtain ⟨t, found⟩ := Option.isSome_iff_exists.mp here
    rw [← field, found]
    rfl

lemma FromQuery.exact (clean : FromQuery target.1 (cstr rest)) :
    backupParams (getRequest target rest) = exactParams target.1 := by
  rw [FromQuery] at clean
  rw [backupParams_request, exactParams]
  cases found : behind [63] target.1 with
  | none =>
    rw [found] at clean
    exact noQuery_params clean
  | some query =>
    rw [found] at clean
    simp only [Option.map_some, Option.getD_some, Option.bind_some, splitParams]
    cases part : hasAt query 0 (bytes "part=") with
    | false => rfl
    | true =>
      obtain ⟨raw, ⟨mark, flash⟩, size⟩ := clean part
      have inside {c : UInt8} (mem : c ∈ query) : c ∈ target.1 := by
        obtain ⟨k, -, rfl⟩ := Option.map_eq_some_iff.mp found
        exact List.mem_of_mem_drop mem
      have plain : 10 ∉ query ∧ 13 ∉ query ∧ 32 ∉ query :=
        ⟨mt inside target.2.2.1, mt inside target.2.2.2.1, mt inside target.2.2.2.2⟩
      rw [if_pos rfl, if_pos rfl, raw_exact raw, flash_exact plain mark flash, size_exact size]
      rfl

lemma RestsSilent.same (silent : RestsSilent target.1 (cstr rest) (cstr rest')) :
    backupParams (getRequest target rest) = backupParams (getRequest target rest') := by
  rw [RestsSilent] at silent
  rw [backupParams_request, backupParams_request]
  cases found : behind [63] target.1 with
  | none =>
    rw [found] at silent
    exact (noQuery_params silent.1).trans (noQuery_params silent.2).symm
  | some query =>
    rw [found] at silent
    simp only [Option.map_some, Option.getD_some, splitParams]
    cases part : hasAt query 0 (bytes "part=") with
    | false => rfl
    | true =>
      obtain ⟨raw, flash, size⟩ := silent part
      have raw' : (contains (bytes "raw=1") query || contains (bytes "raw=1") (cstr rest)) =
          (contains (bytes "raw=1") query || contains (bytes "raw=1") (cstr rest')) := by
        rcases raw with here | ⟨none, none'⟩
        · rw [here, Bool.true_or, Bool.true_or]
        · rw [none, none']
      have flash' : (flashParam 63 query).or (flashParam 32 (cstr rest)) =
          (flashParam 63 query).or (flashParam 32 (cstr rest')) := by
        rcases flash with here | ⟨none, none'⟩
        · rw [Option.or_of_isSome here, Option.or_of_isSome here]
        · rw [none, none']
      have size' : (behind (bytes "size=") query).or (behind (bytes "size=") (cstr rest)) =
          (behind (bytes "size=") query).or (behind (bytes "size=") (cstr rest')) := by
        rcases size with here | ⟨none, none'⟩
        · rw [contains_eq] at here
          rw [Option.or_of_isSome here, Option.or_of_isSome here]
        · rw [behind_none none, behind_none none']
      rw [raw', flash', size']

end Sources

end ResQBoot.Failsafe
