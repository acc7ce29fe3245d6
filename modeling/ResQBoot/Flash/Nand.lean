import ResQBoot.Flash.Write

/-!
# The NAND commands

`check_skip_len` accepts a length exactly where the good blocks up to the end of the chip hold it. A write that succeeds
has verified each piece, so the addresses hold the data.
-/

namespace ResQBoot.Flash

variable {ps : List (Nat × Nat)}

namespace Chip

variable (c : Chip)

def goods (a n : Nat) : List Nat := Skip.good c.erasesize c.bad a n

def moved (off len : Nat) : List Nat :=
  if ∀ x ∈ List.range' off len, c.bad (x / c.erasesize) = false then List.range' off len
  else (Skip.good c.erasesize c.seen off (c.size - off)).take len

structure Skimmed (offset left used : Nat) (skip : Bool) (r : Bool × Nat) : Prop where
  room : left ≤ (c.goods offset (c.size - offset)).length
  used_le : r.2 ≤ used + (c.size - offset)
  keeps : skip = true → r.1 = true
  clean : r.1 = false → ∀ x, offset ≤ x → x < offset + left → c.bad (x / c.erasesize) = false
  dirty : r.1 = true → skip = true ∨ ∃ x, offset ≤ x ∧ x < offset + left ∧ c.bad (x / c.erasesize) = true

def Skims (offset length excl used : Nat) (skip : Bool) : Option (Bool × Nat) → Prop
  | none => excl + (c.goods offset (c.size - offset)).length < length
  | some r => c.Skimmed offset (length - excl) used skip r

variable {c}

variable {skip : Bool} {blockLen excl len length off offset used x : Nat}

lemma block_rest (inside : offset < c.size) :
    ∃ q blockLen, offset / c.erasesize = q ∧ c.erasesize - offset % c.erasesize = blockLen ∧ 0 < blockLen ∧
      q * c.erasesize ≤ offset ∧ offset + blockLen = (q + 1) * c.erasesize ∧
      offset + blockLen ≤ c.size ∧ (offset + blockLen) / c.erasesize = q + 1 := by
  have pos := c.erasesize_pos
  have split := Nat.div_add_mod offset c.erasesize
  have lt := Nat.mod_lt offset pos
  obtain ⟨k, size⟩ := c.blocks
  have next : offset + (c.erasesize - offset % c.erasesize) = (offset / c.erasesize + 1) * c.erasesize := by
    rw [Nat.succ_mul, Nat.mul_comm]
    omega
  refine ⟨_, _, rfl, rfl, by omega, Nat.div_mul_le_self _ _, next, ?_, ?_⟩
  · have : offset / c.erasesize < k := by
      rw [Nat.div_lt_iff_lt_mul pos, Nat.mul_comm]
      omega
    rw [next, size, Nat.mul_comm c.erasesize]
    exact Nat.mul_le_mul_right _ this
  · rw [next, Nat.mul_div_cancel _ pos]

lemma goods_cut (le : offset + blockLen ≤ c.size) : c.goods offset (c.size - offset) =
      c.goods offset blockLen ++ c.goods (offset + blockLen) (c.size - (offset + blockLen)) := by
  have cut : c.goods offset (blockLen + (c.size - (offset + blockLen))) = _ := Skip.good_add _ _ _
  rwa [show blockLen + (c.size - (offset + blockLen)) = c.size - offset by omega] at cut

lemma Skims.bad {r : Option (Bool × Nat)} (le : offset + blockLen ≤ c.size)
    (none : c.goods offset blockLen = []) (more : excl < length) (isBad : c.bad (offset / c.erasesize) = true)
    (later : c.Skims (offset + blockLen) length excl (used + blockLen) true r) :
    c.Skims offset length excl used skip r := by
  have cut := goods_cut le
  rw [none, List.nil_append] at cut
  cases r with
  | none =>
    rw [Skims, cut]
    exact later
  | some r =>
    have room := later.room
    have used_le := later.used_le
    rw [← cut] at room
    refine ⟨room, by omega, fun _ => later.keeps rfl, fun isClean => ?_, fun _ => ?_⟩
    · rw [later.keeps rfl] at isClean
      cases isClean
    · exact .inr ⟨offset, by omega, by omega, isBad⟩

lemma Skims.good {r : Option (Bool × Nat)}
    (le : offset + blockLen ≤ c.size) (all : c.goods offset blockLen = List.range' offset blockLen)
    (isGood : ∀ x, offset ≤ x → x < offset + blockLen → c.bad (x / c.erasesize) = false)
    (later : c.Skims (offset + blockLen) length (excl + blockLen) (used + blockLen) skip r) :
    c.Skims offset length excl used skip r := by
  have count : (c.goods offset (c.size - offset)).length =
      blockLen + (c.goods (offset + blockLen) (c.size - (offset + blockLen))).length := by
    rw [goods_cut le, all, List.length_append, List.length_range']
  cases r with
  | none =>
    have later : excl + blockLen + _ < length := later
    rw [Skims, count]
    omega
  | some r =>
    have room := later.room
    have used_le := later.used_le
    refine ⟨by omega, by omega, later.keeps, fun isClean x above below => ?_, fun isDirty => ?_⟩
    · rcases Nat.lt_or_ge x (offset + blockLen) with here | after
      · exact isGood x above here
      · exact later.clean isClean x after (by omega)
    · rcases later.dirty isDirty with before | ⟨x, above, below, xBad⟩
      · exact .inl before
      · exact .inr ⟨x, by omega, by omega, xBad⟩

lemma checkSkipLen_skims {fuel : Nat} (inside : offset ≤ c.size)
    (enough : c.size / c.erasesize < offset / c.erasesize + fuel) :
    c.Skims offset length excl used skip (c.checkSkipLen fuel offset length excl used skip) := by
  induction fuel generalizing offset excl used skip with
  | zero =>
    have := Nat.div_le_div_right (c := c.erasesize) inside
    omega
  | succ fuel ih =>
    rw [checkSkipLen]
    by_cases more : excl < length
    · rw [if_pos more]
      by_cases past : offset ≥ c.size
      · rw [if_pos past, Skims, show c.size - offset = 0 by omega]
        exact more
      rw [if_neg past]
      obtain ⟨q, blockLen, quot, rest, pos, low, next, le, nextQuot⟩ := block_rest (Nat.lt_of_not_le past)
      simp only [quot, rest]
      by_cases isBad : c.bad q = true
      · rw [if_pos isBad]
        have none : c.goods offset blockLen = [] := Skip.good_of_bad low (Nat.le_of_eq next) isBad
        exact Skims.bad le none more (by rw [quot]; exact isBad) (ih le (by omega))
      rw [if_neg isBad]
      have isGood : c.bad q = false := by simpa using isBad
      have all : c.goods offset blockLen = List.range' offset blockLen :=
        Skip.good_of_good low (Nat.le_of_eq next) isGood
      refine Skims.good le all (fun x above below => ?_) (ih le (by omega))
      rw [Nat.div_eq_of_lt_le (k := q) (by omega) (by omega)]
      exact isGood
    · rw [if_neg more]
      have none : length - excl = 0 := by omega
      rw [Skims, none]
      refine ⟨by omega, ?_, fun skipped => skipped, fun _ x above below => by omega,
        fun skipped => .inl skipped⟩
      simp only
      split <;> omega

lemma skipBad_spec (page : off % c.writesize = 0) (inside : off ≤ c.size) :
    c.skipBad off len (c.size - off) = none ∧ (c.goods off (c.size - off)).length < len ∨
      ∃ ps, c.skipBad off len (c.size - off) = some ps ∧ len ≤ (c.goods off (c.size - off)).length ∧
        Skip.cells ps = c.moved off len := by
  have pos := c.erasesize_pos
  have skims : c.Skims off len 0 0 false (c.checkSkipLen (c.size / c.erasesize + 1) off len 0 0 false) :=
    checkSkipLen_skims inside (Nat.lt_add_left _ (Nat.lt_succ_self _))
  rw [skipBad, if_neg (by omega)]
  cases found : c.checkSkipLen (c.size / c.erasesize + 1) off len 0 0 false with
  | none =>
    rw [found, Skims, Nat.zero_add] at skims
    exact .inl ⟨rfl, skims⟩
  | some r =>
    obtain ⟨needSkip, used⟩ := r
    rw [found, Skims, Nat.sub_zero] at skims
    have used_le := skims.used_le
    rw [Nat.zero_add] at used_le
    right
    simp only
    rw [if_neg (Nat.not_lt_of_le used_le), moved]
    cases needSkip with
    | true =>
      have isDirty : ¬ ∀ x ∈ List.range' off len, c.bad (x / c.erasesize) = false := by
        intro clean
        rcases skims.dirty rfl with before | ⟨x, above, below, xBad⟩
        · cases before
        · rw [clean x (List.mem_range'_1.mpr ⟨above, below⟩)] at xBad
          cases xBad
      have blocks : c.size = (off / c.erasesize + (c.size / c.erasesize - off / c.erasesize)) * c.erasesize := by
        have := Nat.div_le_div_right (c := c.erasesize) inside
        rw [Nat.add_sub_cancel' this, Nat.div_mul_cancel c.blocks]
      rw [if_neg isDirty]
      exact ⟨_, rfl, skims.room, Skip.cells_pieces pos blocks inside⟩
    | false =>
      have isClean : ∀ x ∈ List.range' off len, c.bad (x / c.erasesize) = false := by
        intro x mem
        rw [List.mem_range'_1] at mem
        exact skims.clean rfl x mem.1 mem.2
      rw [if_pos isClean]
      exact ⟨_, rfl, skims.room, by simp⟩

lemma mem_moved (mem : x ∈ c.moved off len) : off ≤ x := by
  rw [moved] at mem
  split at mem
  · exact (List.mem_range'_1.mp mem).1
  · exact (Skip.mem_good.mp (List.mem_of_mem_take mem)).1.1

lemma nodup_moved (off len : Nat) : (c.moved off len).Nodup := by
  rw [moved]
  split
  · exact List.nodup_range'
  · exact (Skip.nodup_good _ _).sublist (List.take_sublist _ _)

lemma length_moved_le (off len : Nat) : (c.moved off len).length ≤ len := by
  rw [moved]
  split
  · exact Nat.le_of_eq List.length_range'
  · exact List.length_take_le _ _

lemma moved_eq (sees : ∀ x < c.size, c.seen (x / c.erasesize) = c.bad (x / c.erasesize))
    (inside : off ≤ c.size) (room : len ≤ (c.goods off (c.size - off)).length) :
    c.moved off len = (c.goods off (c.size - off)).take len := by
  rw [moved]
  split
  · rename_i clean
    have le : (c.goods off (c.size - off)).length ≤ c.size - off := by
      rw [goods, Skip.good]
      exact Nat.le_trans (List.length_filter_le _ _) (Nat.le_of_eq List.length_range')
    have all : c.goods off len = List.range' off len :=
      List.filter_eq_self.mpr fun x mem => by simp [clean x mem]
    rw [goods_cut (show off + len ≤ c.size by omega), all, List.take_append_of_le_length (by simp),
      List.take_of_length_le (by simp)]
  · congr 1
    refine List.filter_congr fun x mem => ?_
    rw [List.mem_range'_1] at mem
    rw [sees x (by omega)]

lemma seen_eq (low : x < 2 ^ 32) : c.seen (x / c.erasesize) = c.bad (x / c.erasesize) := by
  have := Nat.div_mul_le_self x c.erasesize
  rw [seen, Nat.mod_eq_of_lt (by omega), Nat.mul_div_cancel _ c.erasesize_pos]

end Chip

/-! ### The pieces of a transfer -/

namespace Chip

variable {io : Io} {m : Mem} {data : Bytes} {ps : List (Nat × Nat)}

lemma writePieces_log (ps : List (Nat × Nat)) (data : Bytes) (m : Mem) : (writePieces io ps data m).2.2 <+: ps := by
  induction ps generalizing data m with
  | nil => exact List.prefix_rfl
  | cons p ps ih =>
    obtain ⟨off, len⟩ := p
    rw [writePieces]
    simp only
    split
    · exact List.cons_prefix_cons.mpr ⟨rfl, ih _ _⟩
    · exact List.cons_prefix_cons.mpr ⟨rfl, List.nil_prefix⟩

lemma writePieces_frame {x : Nat} (ps : List (Nat × Nat)) (data : Bytes) (m : Mem) (out : x ∉ Skip.cells ps) :
    (writePieces io ps data m).2.1 x = m x := by
  induction ps generalizing data m with
  | nil => rfl
  | cons p ps ih =>
    obtain ⟨off, len⟩ := p
    rw [Skip.cells_cons, List.mem_append, not_or, List.mem_range'_1] at out
    have here : m.program off (data.take len) x = m x := by
      rw [Mem.program, if_neg]
      rw [List.length_take]
      omega
    rw [writePieces]
    simp only
    split
    · exact (ih _ _ out.2).trans here
    · exact here

lemma map_range' (m : Mem) (a n : Nat) : (List.range' a n).map m = m.read a n := by
  rw [Mem.read, List.range'_eq_map_range, List.map_map]
  rfl

lemma readPieces_eq (m : Mem) (ps : List (Nat × Nat)) : readPieces m ps = (Skip.cells ps).map m := by
  induction ps with
  | nil => rfl
  | cons p ps ih =>
    rw [readPieces, List.flatMap_cons, ← readPieces, ih, Skip.cells_cons, List.map_append, map_range']

lemma writePieces_stored (ps : List (Nat × Nat)) (data : Bytes) (m : Mem) (nodup : (Skip.cells ps).Nodup)
    (ok : (writePieces io ps data m).1 = true) : (Skip.cells ps).map (writePieces io ps data m).2.1 = data := by
  induction ps generalizing data m with
  | nil =>
    have empty : data = [] := by simpa [writePieces] using ok
    simp [empty]
  | cons p ps ih =>
    obtain ⟨off, len⟩ := p
    rw [Skip.cells_cons, List.nodup_append] at nodup
    obtain ⟨-, rest, apart⟩ := nodup
    rw [writePieces] at ok ⊢
    simp only at ok ⊢
    split at ok
    · rename_i done
      rw [if_pos done]
      simp only [Bool.and_eq_true, decide_eq_true_eq] at done
      have kept : (List.range' off len).map (writePieces io ps (data.drop len)
          (m.program off (data.take len))).2.1 = data.take len := by
        refine Eq.trans (List.map_congr_left fun x mem => ?_) ((map_range' _ off len).trans done.2)
        exact writePieces_frame _ _ _ fun later => apart x mem x later rfl
      rw [Skip.cells_cons, List.map_append, kept]
      have := ih (data.drop len) (m.program off (data.take len)) rest ok
      rw [this, List.take_append_drop]
    · cases ok

end Chip

/-! ### The command lines -/

def Cmd.Quiet (cmd : Cmd) : Prop := cmd = .nandDevice ∨ (∃ layout, cmd = .ipqNand layout) ∨ cmd = .sfProbe

section Line

variable {b : Board} {io : Io} {c : Chip} {addr off part size : Nat} {w : World}

variable {cmd : Cmd} {layout : Layout} {len : Nat} {ft : SmemBoot}

lemma exec_quiet (quiet : cmd.Quiet) (w : World) : ∃ ok, exec b io cmd w = (ok, { w with log := w.log ++ [cmd] }) := by
  rw [exec]
  split
  · rcases quiet with rfl | ⟨layout, rfl⟩ | rfl <;> exact ⟨_, rfl⟩
  · exact ⟨_, rfl⟩

lemma exec_ok {w : World} : (exec b io cmd w).1 = true ↔
    io.ok w.log.length = true ∧ (effect b io cmd { w with log := w.log ++ [cmd] }).1 = true := by
  rw [exec]
  split
  · rename_i works
    exact ⟨fun done => ⟨works, done⟩, And.right⟩
  · rename_i fails
    exact ⟨by rintro ⟨⟩, fun done => absurd done.1 fails⟩

lemma runCommand_cons (cmd : Cmd) (t : List Cmd) (w : World) : runCommand b io (cmd :: t) w =
    if (exec b io cmd w).1 then runCommand b io t (exec b io cmd w).2 else (false, (exec b io cmd w).2) := by
  rw [runCommand]
  split <;> rename_i eq <;> simp [eq]

lemma runCommand_singleton (cmd : Cmd) (w : World) : runCommand b io [cmd] w = exec b io cmd w := by
  rw [runCommand]
  split <;> rename_i eq
  · rw [eq]
    rfl
  · rw [eq]

lemma runCommand_quiet (io : Io) {pre : List Cmd} (rest : List Cmd) (quiet : ∀ cmd ∈ pre, cmd.Quiet) (w : World) :
    ∃ l, runCommand b io (pre ++ rest) w = (false, { w with log := l }) ∨
      runCommand b io (pre ++ rest) w = runCommand b io rest { w with log := l } := by
  induction pre generalizing w with
  | nil => exact ⟨w.log, .inr rfl⟩
  | cons cmd pre ih =>
    obtain ⟨ok, eq⟩ := exec_quiet (b := b) (quiet cmd List.mem_cons_self) w
    rw [List.cons_append, runCommand_cons, eq]
    cases ok with
    | false => exact ⟨_, .inl rfl⟩
    | true => exact ih (fun x mem => quiet x (List.mem_cons_of_mem cmd mem)) _

lemma runCommand_cons_true {cs : List Cmd} (ok : (runCommand b io (cmd :: cs) w).1 = true) :
    (effect b io cmd { w with log := w.log ++ [cmd] }).1 = true ∧ runCommand b io (cmd :: cs) w =
        runCommand b io cs (effect b io cmd { w with log := w.log ++ [cmd] }).2 := by
  rw [runCommand_cons] at ok ⊢
  split at ok
  · rename_i done
    rw [if_pos done]
    rw [exec] at done ⊢
    split at done
    · rename_i works
      rw [if_pos works]
      exact ⟨done, rfl⟩
    · cases done
  · cases ok

lemma runCommand_log_true (cs : List Cmd) (w : World) (ok : (runCommand b io cs w).1 = true) :
    (runCommand b io cs w).2.log = w.log ++ cs := by
  induction cs generalizing w with
  | nil => simp [runCommand]
  | cons cmd cs ih =>
    obtain ⟨-, eq⟩ := runCommand_cons_true ok
    rw [eq] at ok ⊢
    rw [ih _ ok, effect_log]
    simp

lemma effect_quiet (quiet : cmd.Quiet) (w : World) : (effect b io cmd w).2 = w := by
  rcases quiet with rfl | ⟨layout, rfl⟩ | rfl <;> rfl

lemma runCommand_quiet_true (pre : List Cmd) {rest : List Cmd} (quiet : ∀ cmd ∈ pre, cmd.Quiet) (w : World)
    (ok : (runCommand b io (pre ++ rest) w).1 = true) :
    runCommand b io (pre ++ rest) w = runCommand b io rest { w with log := w.log ++ pre } := by
  induction pre generalizing w with
  | nil => simp
  | cons cmd pre ih =>
    rw [List.cons_append] at ok ⊢
    obtain ⟨-, eq⟩ := runCommand_cons_true ok
    rw [effect_quiet (quiet cmd List.mem_cons_self)] at eq
    rw [eq] at ok ⊢
    rw [ih (fun x mem => quiet x (List.mem_cons_of_mem cmd mem)) _ ok]
    simp

lemma quiet_line (layout : Layout) :
    ∀ cmd ∈ Cmd.nandDevice :: (if layout ≠ .default then [.ipqNand layout] else []), cmd.Quiet := by
  intro cmd mem
  rcases List.mem_cons.mp mem with rfl | layouts
  · exact .inl rfl
  · split at layouts
    · exact .inr (.inl ⟨layout, List.mem_singleton.mp layouts⟩)
    · cases layouts

lemma writeToFlash_shape {dev : Device} (device : deviceOf ft = some dev) : ∃ pre, (∀ cmd ∈ pre, cmd.Quiet) ∧
      writeToFlash ft addr off part size layout = pre ++ [dev.erase off part, dev.write addr off size] := by
  cases ft <;> cases device
  case nandFlash | qspiNandFlash => exact ⟨_, quiet_line layout, rfl⟩
  case mmcFlash => exact ⟨[], by simp, rfl⟩
  case spiFlash => exact ⟨[.sfProbe], by simp [Cmd.Quiet], rfl⟩

def Chip.Erases (c : Chip) (off part : Nat) : Prop :=
  off < c.size ∧ part ≤ c.size - off ∧ off % c.erasesize = 0

instance {c : Chip} {off part : Nat} : Decidable (c.Erases off part) :=
  inferInstanceAs (Decidable (_ ∧ _ ∧ _))

def Chip.erased (c : Chip) (io : Io) (off part : Nat) (w : World) : World :=
  let n := (part + c.erasesize - 1) / c.erasesize
  { w with
    nand := c.eraseBlocks io c.erasesize n (off / c.erasesize) w.nand
    oob := c.eraseBlocks io c.sparesize n (off / c.erasesize) w.oob }

lemma Chip.Erases.page (erases : c.Erases off part) : off % c.writesize = 0 :=
  Nat.mod_eq_zero_of_dvd (Nat.dvd_trans c.pages (Nat.dvd_of_mod_eq_zero erases.2.2))

lemma Chip.skipBad_some (inside : off ≤ c.size)
    (found : c.skipBad off len (c.size - off) = some ps) :
    len ≤ (c.goods off (c.size - off)).length ∧ Skip.cells ps = c.moved off len := by
  have page : off % c.writesize = 0 := by
    by_contra odd
    rw [skipBad, if_pos odd] at found
    cases found
  rcases skipBad_spec page inside with ⟨refused, -⟩ | ⟨ps', found', room, cells⟩
  · cases refused.symm.trans found
  · cases found.symm.trans found'
    exact ⟨room, cells⟩

lemma Chip.skipBad_room (erases : c.Erases off part) (room : len ≤ (c.goods off (c.size - off)).length) :
    ∃ ps, c.skipBad off len (c.size - off) = some ps ∧ Skip.cells ps = c.moved off len := by
  rcases skipBad_spec erases.page (Nat.le_of_lt erases.1) with ⟨-, few⟩ | ⟨ps, found, -, cells⟩
  · exact absurd room (Nat.not_le_of_lt few)
  · exact ⟨ps, found, cells⟩

lemma exec_nandErase (io : Io) (chip : b.nand = some c) (off part : Nat) (w : World) :
    ∃ l, exec b io (.nandErase off part) w = (false, { w with log := l }) ∨ c.Erases off part ∧
        exec b io (.nandErase off part) w = (true, c.erased io off part { w with log := l }) := by
  refine ⟨w.log ++ [.nandErase off part], ?_⟩
  rw [exec]
  split
  · simp only [effect, chip]
    split
    · exact .inl rfl
    · rename_i range
      simp only [Bool.or_eq_true, decide_eq_true_eq, not_or] at range
      exact .inr ⟨⟨by omega, by omega, by omega⟩, rfl⟩
  · exact .inl rfl

lemma exec_nandWrite (io : Io) (chip : b.nand = some c) (addr off size : Nat) (w : World) :
    ∃ l, exec b io (.nandWrite addr off size) w = (false, { w with log := l }) ∨
      ∃ ps, c.skipBad off size (c.size - off) = some ps ∧ exec b io (.nandWrite addr off size) w =
          ((Chip.writePieces io ps (w.ram.read addr size) w.nand).1,
            { w with
              log := l
              nand := (Chip.writePieces io ps (w.ram.read addr size) w.nand).2.1
              programmed := w.programmed ++ (Chip.writePieces io ps (w.ram.read addr size) w.nand).2.2 }) := by
  refine ⟨w.log ++ [.nandWrite addr off size], ?_⟩
  rw [exec]
  split
  · simp only [effect, chip]
    split
    · exact .inl rfl
    · cases found : c.skipBad off size (c.size - off) with
      | none => exact .inl rfl
      | some ps => exact .inr ⟨ps, rfl, rfl⟩
  · exact .inl rfl

lemma writeToFlash_line (nand : isNandFlash ft = true) : writeToFlash ft addr off part size layout =
      .nandDevice :: ((if layout ≠ .default then [.ipqNand layout] else []) ++
        [.nandErase off part, .nandWrite addr off size]) := by
  cases ft
  case nandFlash | qspiNandFlash => rfl
  all_goals cases nand

lemma writeToFlash_nand (io : Io) (chip : b.nand = some c) {t : Target} (nand : isNandFlash t.flashType = true)
    (addr size : Nat) (w : World) :
    let r := runCommand b io (writeToFlash t.flashType addr t.offset t.partSize size t.layout) w
    (r.1 = false ∧ r.2.programmed = w.programmed) ∨
      c.Erases t.offset t.partSize ∧ ∃ ps, c.skipBad t.offset size (c.size - t.offset) = some ps ∧
        let w' := c.erased io t.offset t.partSize w
        let done := Chip.writePieces io ps (w.ram.read addr size) w'.nand
        ∃ l, r = (done.1, { w' with log := l, nand := done.2.1, programmed := w.programmed ++ done.2.2 }) := by
  simp only
  rw [writeToFlash_line nand, ← List.cons_append]
  obtain ⟨l, stopped | goes⟩ := runCommand_quiet (b := b) io
    [.nandErase t.offset t.partSize, .nandWrite addr t.offset size] (quiet_line t.layout) w
  · rw [stopped]
    exact .inl ⟨rfl, rfl⟩
  rw [goes, runCommand_cons]
  obtain ⟨l, stopped | ⟨erases, goes⟩⟩ := exec_nandErase io chip t.offset t.partSize { w with log := l }
  · rw [stopped]
    exact .inl ⟨rfl, rfl⟩
  rw [goes, if_pos rfl, runCommand_singleton]
  obtain ⟨l, stopped | ⟨ps, found, goes⟩⟩ := exec_nandWrite io chip addr t.offset size
    (c.erased io t.offset t.partSize { w with log := l })
  · rw [stopped]
    exact .inl ⟨rfl, rfl⟩
  · rw [goes]
    exact .inr ⟨erases, ps, found, l, rfl⟩

end Line

section Flash

variable {b : Board} {io : Io} {c : Chip} {name : Bytes} {addr n : Nat} {w : World} {t : Target}

lemma doFlash_eq (b : Board) (io : Io) (name : Bytes) (addr n : Nat) (w : World) :
    let r := flashResolved b io name addr n (resolveFlash b (w.flashTypeNew.getD b.flashType) name n) w
    doFlash b io name addr n w = (r.1, if r.1 then r.2 else { r.2 with flashTypeNew := none }) := by
  simp only
  rw [doFlash]
  split <;> rename_i eq <;> simp [eq]

variable {ft : SmemBoot}

lemma nand_target (target : resolveFlash b ft name n = .target t)
    (nand : isNandFlash t.flashType = true) : t.blkDev = none ∧ t.cleanMarker = false := by
  have smem {ft' : SmemBoot} {layout : Layout} {marker : Bool}
      (resolved : resolveSmem b ft' layout marker name n = .target t) :
      t.flashType = ft' ∧ t.blkDev = none ∧ t.cleanMarker = marker := by
    rw [resolveSmem] at resolved
    split at resolved
    · split at resolved <;> cases resolved
    · cases resolved
      exact ⟨rfl, rfl, rfl⟩
  have emmc {d : BlockDev} (resolved : resolveEmmc d name n = .target t) : False := by
    have : t.flashType = .mmcFlash := by
      rw [resolveEmmc] at resolved
      split at resolved
      · cases resolved
        rfl
      split at resolved
      · cases resolved
        rfl
      · split at resolved <;> cases resolved
        rfl
    rw [this] at nand
    cases nand
  cases ft <;> simp only [resolveFlash] at target
  case nandFlash | qspiNandFlash => exact (smem target).2
  case mmcFlash | noFlash =>
    split at target
    · cases target
      cases nand
    · exact (emmc target).elim
  case spiFlash =>
    split at target
    · split at target <;> cases target
      exact ⟨rfl, rfl⟩
    split at target
    · split at target <;> cases target <;> exact ⟨rfl, rfl⟩
    split at target
    · split at target
      · cases target
      · exact (emmc target).elim
    · rw [(smem target).1] at nand
      cases nand
  all_goals
    cases target
    cases nand

lemma flashResolved_nand (target : resolveFlash b ft name n = .target t)
    (nand : isNandFlash t.flashType = true) (accepted : roundSize b t n ≤ t.partSize) :
    flashResolved b io name addr n (resolveFlash b ft name n) w =
      runCommand b io (writeToFlash t.flashType addr t.offset t.partSize (roundSize b t n) t.layout) w := by
  obtain ⟨bytes, unmarked⟩ := nand_target target nand
  rw [target, flashResolved, flashTarget]
  simp only
  rw [if_neg (Nat.not_lt_of_le accepted), bytes]
  simp [unmarked]

lemma doFlash_nand (io : Io) (addr : Nat) (target : resolveFlash b (w.flashTypeNew.getD b.flashType) name n = .target t)
    (nand : isNandFlash t.flashType = true) (accepted : roundSize b t n ≤ t.partSize) :
    let r := runCommand b io (writeToFlash t.flashType addr t.offset t.partSize (roundSize b t n) t.layout) w
    (doFlash b io name addr n w).1 = r.1 ∧ (doFlash b io name addr n w).2.programmed = r.2.programmed := by
  have run := doFlash_eq b io name addr n w
  simp only at run
  rw [flashResolved_nand target nand accepted] at run
  rw [run]
  refine ⟨rfl, ?_⟩
  simp only
  split <;> rfl

end Flash

/-! ### Erased data -/

section Blank

variable {b : Board} {c : Chip} {t : Target}

lemma program_blank (a k : Nat) : Mem.program (fun _ => 0xFF) a (List.replicate k 0xFF) = fun _ => 0xFF := by
  funext x
  rw [Mem.program]
  split
  · rename_i inside
    rw [List.length_replicate] at inside
    simp only [Mem.blank_and]
    rw [List.getD_eq_getElem _ _ (by rw [List.length_replicate]; omega), List.getElem_replicate]
  · rfl

lemma eraseBlocks_blank (unit k i : Nat) : c.eraseBlocks sound unit k i (fun _ => 0xFF) = fun _ => 0xFF := by
  induction k generalizing i with
  | zero => rfl
  | succ k ih =>
    have fill : Mem.fill (fun _ => 0xFF) (i * unit) unit 0xFF = fun _ => 0xFF := by
      funext x
      rw [Mem.fill]
      split <;> rfl
    rw [Chip.eraseBlocks]
    simp only [fill, ite_self]
    exact ih (i + 1)

lemma read_blank (a k : Nat) : Mem.read (fun _ => 0xFF) a k = List.replicate k 0xFF := by
  simp [Mem.read, List.map_const']

lemma writePieces_blank {k : Nat} (le : (Skip.cells ps).length ≤ k) :
    Chip.writePieces sound ps (List.replicate k 0xFF) (fun _ => 0xFF) =
      (decide ((Skip.cells ps).length = k), fun _ => 0xFF, ps) := by
  induction ps generalizing k with
  | nil =>
    cases k <;> simp [Chip.writePieces]
  | cons p ps ih =>
    obtain ⟨off, len⟩ := p
    rw [Skip.cells_cons, List.length_append, List.length_range'] at le
    have taken : (List.replicate k (0xFF : UInt8)).take len = List.replicate len 0xFF := by
      rw [List.take_replicate, Nat.min_eq_left (by omega)]
    rw [Chip.writePieces]
    simp only [taken, program_blank, read_blank, sound, decide_true, Bool.and_self, if_true, List.drop_replicate]
    have rest := ih (k := k - len) (by omega)
    simp only [sound] at rest
    rw [rest, Skip.cells_cons, List.length_append, List.length_range']
    simp only [Prod.mk.injEq, and_true, decide_eq_decide]
    omega

lemma writeToFlash_sound {size : Nat} (chip : b.nand = some c)
    (nand : isNandFlash t.flashType = true) (erases : c.Erases t.offset t.partSize) (fits : size ≤ t.partSize)
    (found : c.skipBad t.offset size (c.size - t.offset) = some ps) (addr : Nat) (w : World) :
    let r := runCommand b sound (writeToFlash t.flashType addr t.offset t.partSize size t.layout) w
    let done := Chip.writePieces sound ps (w.ram.read addr size) (c.erased sound t.offset t.partSize w).nand
    r.1 = done.1 ∧ r.2.programmed = w.programmed ++ done.2.2 := by
  obtain ⟨inside, range, aligned⟩ := erases
  have device (w : World) : exec b sound .nandDevice w = (true, { w with log := w.log ++ [.nandDevice] }) := by
    simp [exec, sound, effect, chip]
  have layouts (w : World) : exec b sound (.ipqNand t.layout) w =
      (true, { w with log := w.log ++ [.ipqNand t.layout] }) := rfl
  have erase (w : World) : exec b sound (.nandErase t.offset t.partSize) w = (true, c.erased sound t.offset t.partSize
        { w with log := w.log ++ [.nandErase t.offset t.partSize] }) := by
    rw [exec_sound]
    simp only [effect, chip]
    rw [if_neg (by simp; omega)]
    rfl
  have write (w : World) : (exec b sound (.nandWrite addr t.offset size) w).1 =
        (Chip.writePieces sound ps (w.ram.read addr size) w.nand).1 ∧
      (exec b sound (.nandWrite addr t.offset size) w).2.programmed =
        w.programmed ++ (Chip.writePieces sound ps (w.ram.read addr size) w.nand).2.2 := by
    rw [exec_sound]
    simp only [effect, chip]
    rw [if_neg (by simp; omega), found]
    exact ⟨rfl, rfl⟩
  simp only
  rw [writeToFlash_line nand]
  split
  · simp only [List.cons_append, List.nil_append, runCommand_cons _ (_ :: _), runCommand_singleton, device,
      layouts, erase, if_true]
    exact write _
  · simp only [List.nil_append, runCommand_cons _ (_ :: _), runCommand_singleton, device, erase, if_true]
    exact write _

end Blank

end ResQBoot.Flash
