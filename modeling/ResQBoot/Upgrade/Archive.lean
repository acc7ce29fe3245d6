import ResQBoot.Lib.Tar
import ResQBoot.Upgrade.Image

/-!
# The members of a sysupgrade archive

`tarLoop` takes the first entry with data and a kernel word in its name, and the first of the others with data and a
rootfs word. A board name that has such a word, or an extended header, comes before the member.
-/

namespace ResQBoot.Upgrade

inductive Role where
  | directory
  | control
  | kernel
  | root
  | extended
  deriving DecidableEq, Repr

def memberPath (board : Bytes) : Role → Bytes
  | .directory => bytes "sysupgrade-" ++ board ++ bytes "/"
  | .control => bytes "sysupgrade-" ++ board ++ bytes "/CONTROL"
  | .kernel => bytes "sysupgrade-" ++ board ++ bytes "/kernel"
  | .root => bytes "sysupgrade-" ++ board ++ bytes "/root"
  | .extended => []

def Role.types : Role → List UInt8
  | .directory => [53]
  | .extended => [120, 103, 76, 75]
  | .control => [48, 0]
  | .kernel => [48, 0]
  | .root => [48, 0]

structure Archive (board : Bytes) where
  entries : List (Role × Tar.Entry)
  rest : Bytes
  members : ((entries.map Prod.fst).filter (· ≠ .extended)).Perm [.directory, .control, .kernel, .root]
  types : ∀ x ∈ entries, x.2.typeflag ∈ x.1.types
  directory : ∀ x ∈ entries, x.1 = .directory → x.2.data = []
  paths : ∀ l x l', entries = l ++ x :: l' → x.1 ≠ .extended →
    x.2.path = memberPath board x.1 ∨ ∃ e, l.getLast? = some (.extended, e)

namespace Archive

variable {board : Bytes} (a : Archive board)

def image : Bytes := Tar.blocks (a.entries.map Prod.snd) ++ (List.replicate 1024 0 ++ a.rest)

def locate (base : Nat) (role : Role) : Option (Nat × Nat) :=
  ((Tar.placed Prod.snd base a.entries).find? fun x => x.2.1 = role).map fun x => (x.1, x.2.2.data.length)

end Archive

def kernelNamed (e : Tar.Entry) : Bool := 0 < e.data.length && tarIsKernelName e.name

def rootfsNamed (e : Tar.Entry) : Bool := 0 < e.data.length && tarIsRootfsName e.name

def Archive.Unambiguous {board : Bytes} (a : Archive board) : Prop :=
  (((a.entries.take 32).find? fun x => kernelNamed x.2).map Prod.fst = some .kernel) ∧
    ((((a.entries.take 32).eraseP fun x => kernelNamed x.2).find? fun x => rootfsNamed x.2).map Prod.fst = some .root)

instance {board : Bytes} (a : Archive board) : Decidable a.Unambiguous := inferInstanceAs (Decidable (_ ∧ _))

/-! ## The choice -/

section Choice

variable {p : Members} {l : List (Nat × Role × Tar.Entry)}

def spot (x : Nat × Role × Tar.Entry) : Nat × Nat := (x.1, x.2.2.data.length)

def Members.addAll (p : Members) (l : List (Nat × Role × Tar.Entry)) : Members :=
  l.foldl (fun p x => p.add x.2.2.name x.1 x.2.2.data.length) p

lemma Members.addAll_cons (p : Members) (x : Nat × Role × Tar.Entry) (l : List (Nat × Role × Tar.Entry)) :
    p.addAll (x :: l) = (p.add x.2.2.name x.1 x.2.2.data.length).addAll l := rfl

lemma Members.add_entry (p : Members) (x : Nat × Role × Tar.Entry) : p.add x.2.2.name x.1 x.2.2.data.length =
    if p.kernel = none ∧ kernelNamed x.2.2 = true then { p with kernel := some (spot x) }
    else if p.rootfs = none ∧ rootfsNamed x.2.2 = true then { p with rootfs := some (spot x) }
    else p := by
  rw [Members.add]
  simp only [kernelNamed, rootfsNamed, Bool.and_eq_true, decide_eq_true_eq, and_left_comm, spot]

lemma Members.addAll_found {k : Nat × Nat} (found : p.kernel = some k) :
    p.addAll l = { kernel := some k, rootfs := p.rootfs.or ((l.find? fun x => rootfsNamed x.2.2).map spot) } := by
  induction l generalizing p with
  | nil =>
    rw [← found, List.find?_nil, Option.map_none, Option.or_none]
    rfl
  | cons x l ih =>
    rw [addAll_cons, add_entry, if_neg (by rw [found]; rintro ⟨⟨⟩, -⟩), List.find?_cons]
    cases named : rootfsNamed x.2.2 with
    | false =>
      rw [if_neg (by rintro ⟨-, ⟨⟩⟩)]
      exact ih found
    | true =>
      cases other : p.rootfs with
      | none =>
        rw [if_pos ⟨rfl, rfl⟩]
        exact ih (p := ⟨p.kernel, some (spot x)⟩) found
      | some r =>
        rw [if_neg (by rintro ⟨⟨⟩, -⟩), ih found, other]
        rfl

lemma Members.addAll_eq (none_ : p.kernel = none) : p.addAll l =
    { kernel := (l.find? fun x => kernelNamed x.2.2).map spot,
      rootfs := p.rootfs.or (((l.eraseP fun x => kernelNamed x.2.2).find? fun x => rootfsNamed x.2.2).map spot) } := by
  induction l generalizing p with
  | nil =>
    rw [List.find?_nil, List.eraseP_nil, List.find?_nil, Option.map_none, Option.or_none, ← none_]
    rfl
  | cons x l ih =>
    rw [addAll_cons, add_entry, List.find?_cons, List.eraseP_cons]
    cases kernel : kernelNamed x.2.2 with
    | true =>
      rw [if_pos ⟨none_, rfl⟩]
      exact addAll_found rfl
    | false =>
      rw [if_neg (by rintro ⟨-, ⟨⟩⟩), cond_false, List.find?_cons]
      cases named : rootfsNamed x.2.2 with
      | false =>
        rw [if_neg (by rintro ⟨-, ⟨⟩⟩)]
        exact ih none_
      | true =>
        cases other : p.rootfs with
        | none =>
          rw [if_pos ⟨rfl, rfl⟩]
          exact ih (p := ⟨p.kernel, some (spot x)⟩) none_
        | some r =>
          rw [if_neg (by rintro ⟨⟨⟩, -⟩), ih none_, other]
          rfl

end Choice

/-! ## The loop -/

lemma tarSizeLoop_blank (k : Nat) (s : Bytes) : tarSizeLoop 0 false (List.replicate k 32 ++ s) = tarSizeLoop 0 false s := by
  induction k with
  | zero => rfl
  | succ k ih =>
    rw [List.replicate_succ, List.cons_append, tarSizeLoop, if_pos (.inl rfl), if_neg Bool.false_ne_true]
    exact ih

lemma octal_digit {c : UInt8} (octal : isDigitOf 8 c = true) :
    48 ≤ c.toNat ∧ c.toNat ≤ 55 ∧ (xdigit c).getD 0 = c.toNat - 48 := by
  rw [isDigitOf] at octal
  rw [xdigit] at octal ⊢
  split_ifs at octal ⊢ with decimal small capital
  · simp only [Option.map_some, Option.getD_some, decide_eq_true_eq] at octal
    simp only [isDigit, Bool.and_eq_true, decide_eq_true_eq] at decimal
    have low := UInt8.le_iff_toNat_le.mp decimal.1
    change 48 ≤ c.toNat at low
    exact ⟨low, by omega, rfl⟩
  · simp only [Option.map_some, Option.getD_some, decide_eq_true_eq] at octal
    omega
  · simp only [Option.map_some, Option.getD_some, decide_eq_true_eq] at octal
    omega
  · cases octal

lemma tarSizeLoop_digits {digits tail : Bytes} (octal : ∀ c ∈ digits, isDigitOf 8 c = true)
    (ends : ∀ c ∈ tail.head?, c = 32 ∨ c = 0) {val : Nat} {seen : Bool} (some_ : seen = true ∨ digits ≠ [])
    (small : numeralFrom 8 val digits < 2 ^ 61) :
    tarSizeLoop val seen (digits ++ tail) = some (numeralFrom 8 val digits) := by
  induction digits generalizing val seen with
  | nil =>
    have seen : seen = true := some_.resolve_right fun ne => ne rfl
    cases tail with
    | nil => rfl
    | cons c tail =>
      rw [List.nil_append, tarSizeLoop, if_pos (ends c rfl), if_pos seen]
      rfl
  | cons c digits ih =>
    obtain ⟨low, high, value⟩ := octal_digit (octal c List.mem_cons_self)
    have next : numeralFrom 8 val (c :: digits) = numeralFrom 8 (val * 8 + (c.toNat - 48)) digits := by
      rw [← value]
      rfl
    have grows := le_numeralFrom (by decide : 0 < 8) (val * 8 + (c.toNat - 48)) digits
    have blank : ¬ (c = 32 ∨ c = 0) := by
      rintro (rfl | rfl) <;> exact absurd low (by decide)
    have digit : ¬ (c < 48 ∨ 55 < c) := by
      simp only [UInt8.lt_iff_toNat_lt, UInt8.reduceToNat]
      omega
    rw [next] at small ⊢
    rw [List.cons_append, tarSizeLoop, if_neg blank, if_neg digit, if_neg (by omega)]
    exact ih (fun c mem => octal c (List.mem_cons_of_mem _ mem)) (.inl rfl) small

lemma tarParseSize_field {n : Nat} {s : Bytes} (field : Tar.SizeField n s) : tarParseSize s = some n := by
  obtain ⟨length, k, digits, tail, rfl, some_, octal, rfl, ends⟩ := field
  have few : digits.length ≤ 12 := by
    simp only [List.length_append] at length
    omega
  have small : numeralFrom 8 0 digits < 2 ^ 61 :=
    calc numeralFrom 8 0 digits < (0 + 1) * 8 ^ digits.length := numeralFrom_lt octal 0
      _ ≤ 1 * 8 ^ 12 := Nat.mul_le_mul_left _ (Nat.pow_le_pow_right (by decide) few)
      _ < 2 ^ 61 := by decide
  rw [tarParseSize, tarSizeLoop_blank]
  exact tarSizeLoop_digits octal ends (.inr some_) small

lemma header_held {m : Mem} {pos : Nat} {e : Tar.Entry} (held : m.read pos e.block.length = e.block) :
    m pos ≠ 0 ∧ isUstar m pos = true ∧ tarParseSize (m.read (pos + 124) 12) = some e.data.length ∧
      cstr (m.read pos 100) = e.name := by
  have length := e.block_length
  have header {o n : Nat} (inside : o + n ≤ 512) : m.read (pos + o) n = slice e.header o n := by
    rw [Mem.read_slice held (by omega), Tar.Entry.block, slice_append_left (by rw [e.header_length]; exact inside)]
  have name : m.read pos 100 = slice e.header 0 100 := header (o := 0) (by decide)
  refine ⟨?_, ?_, ?_, ?_⟩
  · have first : m.read pos 1 = slice e.header 0 1 := header (o := 0) (by decide)
    obtain ⟨some_, -, plain⟩ := e.name_fits
    cases eq : e.name with
    | nil => exact absurd eq some_
    | cons c t =>
      have head : slice e.header 0 1 = [c] := by
        rw [Tar.Entry.header, eq]
        rfl
      rw [head] at first
      rw [Mem.held_head (t := []) first]
      rintro rfl
      exact plain (eq ▸ List.mem_cons_self)
  · rw [isUstar, header (by decide), e.header_magic, decide_eq_true rfl]
  · rw [header (by decide), e.header_size]
    exact tarParseSize_field e.size_field
  · rw [name, e.cstr_name]

lemma tarLoop_blocks {m : Mem} {t : Bytes} {n pos : Nat} {l : List (Role × Tar.Entry)} {p : Members}
    (held : m.read pos (Tar.blocks (l.map Prod.snd) ++ 0 :: t).length = Tar.blocks (l.map Prod.snd) ++ 0 :: t) :
    tarLoop m (pos + (Tar.blocks (l.map Prod.snd) ++ 0 :: t).length) n pos p =
      some (p.addAll ((Tar.placed Prod.snd pos l).take n)) := by
  induction n generalizing pos l p with
  | zero => rfl
  | succ n ih =>
    cases l with
    | nil =>
      rw [tarLoop, if_pos (.inr (.inl (Mem.held_head held)))]
      rfl
    | cons x l =>
      rw [List.map_cons, Tar.blocks_cons, List.append_assoc] at held
      obtain ⟨block, behind⟩ := Mem.held_append held
      obtain ⟨first, magic, size, name⟩ := header_held block
      have length := x.2.block_length
      have step : pos + 512 + roundUp x.2.data.length 512 = pos + x.2.block.length := by omega
      have rest := ih (p := p.add x.2.name (pos + 512) x.2.data.length) behind
      rw [tarLoop, List.map_cons, Tar.blocks_cons, List.append_assoc, List.length_append,
        if_neg (by simp only [first, magic, Bool.not_true, Bool.false_eq_true, or_false]; omega), size]
      dsimp only
      rw [if_neg (by omega), name, step, ← Nat.add_assoc, rest]
      rfl

/-! ## The parser -/

section Parser

variable {board : Bytes} {a : Archive board} {m : Mem} {base : Nat}

def Archive.kernelEntry (a : Archive board) (base : Nat) : Option (Nat × Role × Tar.Entry) :=
  ((Tar.placed Prod.snd base a.entries).take 32).find? fun x => kernelNamed x.2.2

def Archive.rootfsEntry (a : Archive board) (base : Nat) : Option (Nat × Role × Tar.Entry) :=
  (((Tar.placed Prod.snd base a.entries).take 32).eraseP fun x => kernelNamed x.2.2).find? fun x => rootfsNamed x.2.2

lemma Archive.entries_ne_nil (a : Archive board) : a.entries ≠ [] := by
  intro empty
  have members := a.members.length_eq
  rw [empty] at members
  cases members

lemma parseSysupgrade_archive (held : m.read base a.image.length = a.image) :
    parseSysupgrade m base a.image.length = (a.kernelEntry base).bind fun k => (a.rootfsEntry base).map fun r =>
      ⟨k.1, k.2.2.data.length, r.1, r.2.2.data.length⟩ := by
  have zeros : a.image = Tar.blocks (a.entries.map Prod.snd) ++ 0 :: (List.replicate 1023 0 ++ a.rest) := rfl
  obtain ⟨x, l, entries⟩ := List.exists_cons_of_ne_nil a.entries_ne_nil
  have first : a.image = x.2.block ++ (Tar.blocks (l.map Prod.snd) ++ (List.replicate 1024 0 ++ a.rest)) := by
    rw [Archive.image, entries, List.map_cons, Tar.blocks_cons, List.append_assoc]
  have magic : isUstar m base = true := by
    rw [first] at held
    exact (header_held (Mem.held_append held).1).2.1
  have long : 512 ≤ a.image.length := by
    have block := x.2.block_length
    rw [first, List.length_append]
    omega
  have loop : tarLoop m (base + a.image.length) 32 base {} =
      some (Members.addAll {} ((Tar.placed Prod.snd base a.entries).take 32)) := by
    rw [zeros] at held ⊢
    exact tarLoop_blocks held
  rw [parseSysupgrade, if_neg (by omega), if_pos magic]
  dsimp only
  rw [if_neg (by omega), magic, Bool.or_true, if_pos rfl, Nat.add_zero, loop, Option.bind_some, Members.addAll_eq rfl]
  change Members.parts { kernel := (a.kernelEntry base).map spot, rootfs := (a.rootfsEntry base).map spot } = _
  cases kernel : a.kernelEntry base with
  | none => rfl
  | some k =>
    cases rootfs : a.rootfsEntry base with
    | none => rfl
    | some r =>
      have kernelSize := List.find?_some kernel
      have rootfsSize := List.find?_some rootfs
      simp only [kernelNamed, rootfsNamed, Bool.and_eq_true, decide_eq_true_eq] at kernelSize rootfsSize
      exact if_neg (by rintro (zero | zero) <;> omega)

lemma Archive.member_once (a : Archive board) (base : Nat) (role : Role) (known : role ≠ .extended) :
    ∃ x ∈ Tar.placed Prod.snd base a.entries, x.2.1 = role ∧ a.locate base role = some (spot x) ∧
      ∀ y ∈ Tar.placed Prod.snd base a.entries, y.2.1 = role → y = x := by
  have once : (a.entries.map Prod.fst).count role = 1 := by
    rw [← List.count_filter (p := (· ≠ .extended)) (decide_eq_true known), a.members.count_eq]
    revert known
    cases role <;> decide
  have roles : a.entries.map Prod.fst = (Tar.placed Prod.snd base a.entries).map fun x => x.2.1 := by
    nth_rewrite 1 [← Tar.placed_map Prod.snd base a.entries]
    rw [List.map_map]
    rfl
  have single : ((Tar.placed Prod.snd base a.entries).filter fun x => x.2.1 = role).length = 1 := by
    rw [roles, List.count, List.countP_map, List.countP_eq_length_filter] at once
    exact once
  obtain ⟨x, only⟩ := List.length_eq_one_iff.mp single
  have mem {y : Nat × Role × Tar.Entry} : y ∈ Tar.placed Prod.snd base a.entries ∧ y.2.1 = role ↔ y = x := by
    rw [← List.mem_singleton (b := x), ← only, List.mem_filter, decide_eq_true_eq]
  have own := mem.mpr rfl
  refine ⟨x, own.1, own.2, ?_, fun y inside has => mem.mp ⟨inside, has⟩⟩
  rw [Archive.locate, ← List.head?_filter, only]
  rfl

lemma Archive.entries_take (a : Archive board) (base : Nat) :
    a.entries.take 32 = ((Tar.placed Prod.snd base a.entries).take 32).map Prod.snd := by
  rw [List.map_take, Tar.placed_map]

lemma Archive.unambiguous_iff (a : Archive board) (base : Nat) : a.Unambiguous ↔
    (a.kernelEntry base).map (·.2.1) = some .kernel ∧ (a.rootfsEntry base).map (·.2.1) = some .root := by
  rw [Archive.Unambiguous, a.entries_take base, List.eraseP_map, List.find?_map, List.find?_map, Option.map_map,
    Option.map_map]
  rfl

lemma Archive.kernelEntry_mem {x : Nat × Role × Tar.Entry} (found : a.kernelEntry base = some x) :
    x ∈ Tar.placed Prod.snd base a.entries := List.mem_of_mem_take (List.mem_of_find?_eq_some found)

lemma Archive.rootfsEntry_mem {x : Nat × Role × Tar.Entry} (found : a.rootfsEntry base = some x) :
    x ∈ Tar.placed Prod.snd base a.entries :=
  List.mem_of_mem_take (List.mem_of_mem_eraseP (List.mem_of_find?_eq_some found))

end Parser

/-- The parser returns the data of the kernel and of the root exactly when no other entry with data has a word of theirs
in its name field and comes first. -/
theorem sysupgrade_members_iff (board : Bytes) (a : Archive board) (m : Mem) (base : Nat)
    (held : m.read base a.image.length = a.image) :
    ∃ k r, a.locate base .kernel = some k ∧ a.locate base .root = some r ∧
      (parseSysupgrade m base a.image.length = some ⟨k.1, k.2, r.1, r.2⟩ ↔ a.Unambiguous) := by
  obtain ⟨k, kIn, kRole, kAt, kOnly⟩ := a.member_once base .kernel (by decide)
  obtain ⟨r, rIn, rRole, rAt, rOnly⟩ := a.member_once base .root (by decide)
  refine ⟨spot k, spot r, kAt, rAt, ?_⟩
  rw [parseSysupgrade_archive held, a.unambiguous_iff base]
  cases kernel : a.kernelEntry base with
  | none => simp
  | some k' =>
    cases rootfs : a.rootfsEntry base with
    | none => simp
    | some r' =>
      have kIn' := Archive.kernelEntry_mem kernel
      have rIn' := Archive.rootfsEntry_mem rootfs
      rw [Option.bind_some, Option.map_some, Option.map_some, Option.map_some, Option.some.injEq, Option.some.injEq,
        Option.some.injEq, Parts.mk.injEq]
      constructor
      · rintro ⟨kernelAt, -, rootAt, -⟩
        obtain rfl := Tar.placed_inj Prod.snd kIn' kIn kernelAt
        obtain rfl := Tar.placed_inj Prod.snd rIn' rIn rootAt
        exact ⟨kRole, rRole⟩
      · rintro ⟨kernelRole, rootRole⟩
        obtain rfl := kOnly k' kIn' kernelRole
        obtain rfl := rOnly r' rIn' rootRole
        exact ⟨rfl, rfl, rfl, rfl⟩

/-! ## Two archives -/

lemma octal_few : ∀ n : Fin 8, (∀ c ∈ bytes "0000000000" ++ [UInt8.ofNat (48 + n)], isDigitOf 8 c = true) ∧
    numeral 8 (bytes "0000000000" ++ [UInt8.ofNat (48 + n)]) = n := by decide +kernel

abbrev Named (board : Bytes) (role : Role) : Prop :=
  memberPath board role ≠ [] ∧ (memberPath board role).length ≤ 100 ∧ 0 ∉ memberPath board role

def plainEntry (board : Bytes) (role : Role) (data : Bytes) (named : Named board role) (few : data.length < 8) :
    Tar.Entry where
  name := memberPath board role
  mode := List.replicate 24 0
  size := bytes "0000000000" ++ [UInt8.ofNat (48 + data.length), 0]
  info := List.replicate 20 0 ++ (if role = .directory then 53 else 48) :: List.replicate 100 0
  owner := List.replicate 250 0
  data := data
  pad := List.replicate (roundUp data.length 512 - data.length) 0
  name_fits := named
  mode_length := rfl
  size_field := by
    obtain ⟨digits, value⟩ := octal_few ⟨data.length, few⟩
    refine ⟨rfl, 0, _, [0], rfl, List.append_ne_nil_of_right_ne_nil _ (List.cons_ne_nil _ _), digits, value, ?_⟩
    rintro c ⟨⟩
    exact .inr rfl
  info_length := rfl
  owner_length := rfl
  pad_length := by
    rw [List.length_replicate]
    exact Nat.add_sub_of_le (le_roundUp (Nat.succ_pos _))

lemma path_plain (e : Tar.Entry) (owner : e.owner = List.replicate 250 0) : e.path = e.name := by
  have none_ : cstr (slice (List.replicate 250 0) 83 155) = [] := by decide
  rw [Tar.Entry.path, owner, none_]
  rfl

def plainArchive (board : Bytes) (named : ∀ role ∈ [Role.directory, .control, .kernel, .root], Named board role) :
    Archive board where
  entries := [
    (.directory, plainEntry board .directory [] (named _ (by decide)) (by decide)),
    (.control, plainEntry board .control [1] (named _ (by decide)) (by decide)),
    (.kernel, plainEntry board .kernel [2, 2] (named _ (by decide)) (by decide)),
    (.root, plainEntry board .root [3] (named _ (by decide)) (by decide))]
  rest := []
  members := List.Perm.refl _
  types := by
    intro x mem
    simp only [List.mem_cons, List.not_mem_nil, or_false] at mem
    rcases mem with rfl | rfl | rfl | rfl <;> exact List.mem_cons_self
  directory := by
    intro x mem
    simp only [List.mem_cons, List.not_mem_nil, or_false] at mem
    rcases mem with rfl | rfl | rfl | rfl <;> rintro ⟨⟩
    rfl
  paths := by
    intro l x l' eq _
    have mem : x ∈ l ++ x :: l' := List.mem_append_right l List.mem_cons_self
    rw [← eq] at mem
    simp only [List.mem_cons, List.not_mem_nil, or_false] at mem
    rcases mem with rfl | rfl | rfl | rfl <;> exact .inl (path_plain _ rfl)

def usualArchive : Archive (bytes "ax6") := plainArchive (bytes "ax6") (by decide)

theorem sysupgrade_members_usual :
    parseSysupgrade (Mem.write (fun _ => 0) 0x4B000000 usualArchive.image) 0x4B000000 usualArchive.image.length =
      some ⟨0x4B000800, 2, 0x4B000c00, 1⟩ := by
  obtain ⟨k, r, kAt, rAt, exactly⟩ := sysupgrade_members_iff (bytes "ax6") usualArchive
    (Mem.write (fun _ => 0) 0x4B000000 usualArchive.image) 0x4B000000 (Mem.read_write _ _ _)
  have kernel : usualArchive.locate 0x4B000000 .kernel = some (0x4B000800, 2) := by decide +kernel
  have root : usualArchive.locate 0x4B000000 .root = some (0x4B000c00, 1) := by decide +kernel
  cases kAt.symm.trans kernel
  cases rAt.symm.trans root
  exact exactly.mpr (by decide)

def fitArchive : Archive (bytes "fitlet") := plainArchive (bytes "fitlet") (by decide)

/-- On a board with a kernel word in its name CONTROL is taken for the kernel. -/
theorem sysupgrade_control_taken :
    parseSysupgrade (Mem.write (fun _ => 0) 0x4B000000 fitArchive.image) 0x4B000000 fitArchive.image.length =
      some ⟨0x4B000400, 1, 0x4B000c00, 1⟩ ∧
    fitArchive.locate 0x4B000000 .control = some (0x4B000400, 1) ∧
    fitArchive.locate 0x4B000000 .kernel = some (0x4B000800, 2) := by
  refine ⟨?_, by decide +kernel, by decide +kernel⟩
  rw [parseSysupgrade_archive (Mem.read_write _ _ _)]
  decide +kernel

end ResQBoot.Upgrade
