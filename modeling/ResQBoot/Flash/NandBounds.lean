import ResQBoot.Flash.Nand

/-!
# NAND writes and the end of the partition

`nand write` skips bad blocks up to the end of the chip. A file stays inside its partition exactly where the good blocks
of the partition hold it, or where the command refuses (`Bounded`).
-/

namespace ResQBoot.Flash

def programmedBy (b : Board) (io : Io) (name : Bytes) (addr n : Nat) (w : World) : List Nat :=
  Skip.cells ((doFlash b io name addr n w).2.programmed.drop w.programmed.length)

structure StaysInside (b : Board) (c : Chip) (t : Target) (io : Io) (name : Bytes) (addr n : Nat)
    (w : World) : Prop where
  inside : ∀ x ∈ programmedBy b io name addr n w, t.offset ≤ x ∧ x < t.offset + t.partSize
  fails : (c.goods t.offset t.partSize).length < n → (doFlash b io name addr n w).1 = false

def Bounded (c : Chip) (off part size n : Nat) : Prop :=
  c.Erases off part → size ≤ (c.goods off (c.size - off)).length →
    (∀ x ∈ c.moved off size, x < off + part) ∧
      (n ≤ (c.goods off part).length ∨ (c.moved off size).length < size)

namespace Chip

variable {c : Chip}

lemma bounded_iff {off part size n : Nat} (low : c.size ≤ 2 ^ 32) (erases : c.Erases off part)
    (room : size ≤ (c.goods off (c.size - off)).length) :
    Bounded c off part size n ↔ size ≤ (c.goods off part).length ∧ n ≤ (c.goods off part).length := by
  obtain ⟨inside, fits, aligned⟩ := erases
  have eq : c.moved off size = (c.goods off (c.size - off)).take size :=
    moved_eq (fun x lt => seen_eq (by omega)) (Nat.le_of_lt inside) room
  have full : (c.moved off size).length = size := by
    rw [eq, List.length_take]
    omega
  have cut : (c.goods off (c.size - off)).length =
      (c.goods off part).length + (c.goods (off + part) (c.size - (off + part))).length := by
    rw [goods_cut (show off + part ≤ c.size by omega), List.length_append]
  have below : (∀ x ∈ c.moved off size, x < off + part) ↔ size ≤ (c.goods off part).length := by
    have := @Skip.take_good_below c.erasesize c.bad off (off + part) c.size size (Nat.le_add_right off part) (by omega)
    rw [Nat.add_sub_cancel_left] at this
    rw [eq]
    refine this.trans ⟨fun h => ?_, .inl⟩
    rcases h with few | none
    · exact few
    · have : (c.goods (off + part) (c.size - (off + part))).length = 0 := by
        rw [goods, none]
        rfl
      omega
  rw [Bounded, below, full]
  constructor
  · intro bounded
    obtain ⟨holds, file | short⟩ := bounded ⟨inside, fits, aligned⟩ room
    · exact ⟨holds, file⟩
    · omega
  · rintro ⟨holds, file⟩ - -
    exact ⟨holds, .inl file⟩

end Chip

section Sufficient

variable {b : Board} {c : Chip} {io : Io} {name : Bytes} {addr n : Nat} {w : World} {t : Target}

lemma mem_cells_of_prefix {x : Nat} {ps qs : List (Nat × Nat)} (pre : ps <+: qs)
    (mem : x ∈ Skip.cells ps) : x ∈ Skip.cells qs := by
  obtain ⟨rest, rfl⟩ := pre
  rw [Skip.cells, List.flatMap_append]
  exact List.mem_append_left _ mem

lemma staysInside_of_bounded (chip : b.nand = some c)
    (target : resolveFlash b (w.flashTypeNew.getD b.flashType) name n = .target t)
    (nand : isNandFlash t.flashType = true) (accepted : roundSize b t n ≤ t.partSize)
    (bounded : Bounded c t.offset t.partSize (roundSize b t n) n) :
    StaysInside b c t io name addr n w := by
  obtain ⟨result, programmed⟩ := doFlash_nand io addr target nand accepted
  rcases writeToFlash_nand io chip nand addr (roundSize b t n) w with
    ⟨failed, same⟩ | ⟨erases, ps, found, l, done⟩
  · refine ⟨fun x mem => ?_, fun _ => result.trans failed⟩
    rw [programmedBy, programmed, same, List.drop_length] at mem
    cases mem
  obtain ⟨room, cells⟩ := Chip.skipBad_some (Nat.le_of_lt erases.1) found
  obtain ⟨ends, holds⟩ := bounded erases room
  rw [done] at programmed result
  refine ⟨fun x mem => ?_, fun few => ?_⟩
  · rw [programmedBy, programmed, List.drop_left] at mem
    have moved := mem_cells_of_prefix (Chip.writePieces_log _ _ _) mem
    rw [cells] at moved
    exact ⟨Chip.mem_moved moved, ends x moved⟩
  · by_contra success
    rw [result, Bool.not_eq_false] at success
    have stored := Chip.writePieces_stored ps _ _ (cells ▸ Chip.nodup_moved _ _) success
    have length := congrArg List.length stored
    rw [List.length_map, cells, Mem.length_read] at length
    omega

end Sufficient

/-! ### A run that leaves the partition -/

section Necessary

variable {b : Board} {c : Chip} {name : Bytes} {n : Nat} {t : Target}

def blank (override : Option SmemBoot) : World :=
  ⟨fun _ => 0xFF, fun _ => 0xFF, fun _ => 0xFF, fun _ => 0xFF, fun _ => 0xFF, override, [], []⟩

lemma doFlash_blank {override : Option SmemBoot} (chip : b.nand = some c)
    (target : resolveFlash b (override.getD b.flashType) name n = .target t)
    (nand : isNandFlash t.flashType = true) (accepted : roundSize b t n ≤ t.partSize)
    (erases : c.Erases t.offset t.partSize)
    (room : roundSize b t n ≤ (c.goods t.offset (c.size - t.offset)).length) :
    programmedBy b sound name 0 n (blank override) = c.moved t.offset (roundSize b t n) ∧
      (doFlash b sound name 0 n (blank override)).1 =
        decide ((c.moved t.offset (roundSize b t n)).length = roundSize b t n) := by
  obtain ⟨ps, found, cells⟩ := Chip.skipBad_room erases room
  have short : (Skip.cells ps).length ≤ roundSize b t n := cells ▸ Chip.length_moved_le _ _
  obtain ⟨result, programmed⟩ := doFlash_nand (w := blank override) sound 0 target nand accepted
  obtain ⟨done, log⟩ := writeToFlash_sound chip nand erases accepted found 0 (blank override)
  simp only [blank, read_blank, Chip.erased, eraseBlocks_blank, writePieces_blank short, cells] at done log
  refine ⟨?_, result.trans done⟩
  rw [programmedBy, programmed, ← cells]
  exact congrArg Skip.cells log

end Necessary

/-- A file that `flash` accepts for a NAND partition is programmed inside it, or fails, whatever the
devices do, exactly where the partition holds it. -/
theorem nand_stays_inside_iff (b : Board) (c : Chip) (name : Bytes) (n : Nat) (override : Option SmemBoot)
    (t : Target) (chip : b.nand = some c)
    (target : resolveFlash b (override.getD b.flashType) name n = .target t)
    (nand : isNandFlash t.flashType = true) (accepted : roundSize b t n ≤ t.partSize) :
    (∀ io addr w, w.flashTypeNew = override → StaysInside b c t io name addr n w) ↔
      Bounded c t.offset t.partSize (roundSize b t n) n := by
  constructor
  · intro stays erases room
    obtain ⟨inside, fails⟩ := stays sound 0 (blank override) rfl
    obtain ⟨programmed, result⟩ := doFlash_blank chip target nand accepted erases room
    rw [programmed] at inside
    refine ⟨fun x mem => (inside x mem).2, ?_⟩
    rcases Nat.lt_or_ge (c.goods t.offset t.partSize).length n with few | holds
    · have failed := fails few
      rw [result, decide_eq_false_iff_not] at failed
      exact .inr (Nat.lt_of_le_of_ne (Chip.length_moved_le _ _) failed)
    · exact .inl holds
  · rintro bounded io addr w rfl
    exact staysInside_of_bounded chip target nand accepted bounded

def pairChip (bad : Nat → Bool) : Chip :=
  ⟨32, 4, 8, 1, bad, ⟨2, by decide, rfl⟩, ⟨3, by decide, rfl⟩, by decide, by decide, by decide, by decide⟩

def pairBoard (bad : Nat → Bool) : Board where
  ipq806x := false
  cleanMarker := false
  flashType := .nandFlash
  secondary := .noFlash
  blockSize := 8
  rootfsUnset := false
  activeRootfs := 0
  table := [.entry (bytes "kernel") 1 2 0xffff,
    .entry (bytes "rootfs") 3 1 0xffff]
  ubiVolPresent := fun _ => false
  nand := some (pairChip bad)
  norSize := 0
  norSector := 2 ^ 16
  emmc := none
  blockSize_lt := by decide
  norSize_lt := noNor_lt
  norBoot := fun boot => by cases boot

def kernelTarget : Target := ⟨.nandFlash, 8, 16, 12, 0, none, .default, false⟩

lemma pairBoard_target (bad : Nat → Bool) :
    resolveFlash (pairBoard bad) .nandFlash (bytes "kernel") 12 = .target kernelTarget := rfl

/-- Without bad blocks the kernel partition holds the file. -/
theorem nand_stays_inside_pairBoard :
    StaysInside (pairBoard fun _ => false) (pairChip fun _ => false) kernelTarget sound (bytes "kernel") 0 12
      idle :=
  (nand_stays_inside_iff _ _ _ _ none _ rfl (pairBoard_target _) rfl (by decide)).mpr
    ((Chip.bounded_iff (by decide) (by decide) (by decide)).mpr (by decide)) sound 0 idle rfl

/-- The first block of the kernel is bad: a file of 12 bytes is accepted for its 16 bytes, of which 8 are
good, and its end is programmed into the first page of the rootfs. The command succeeds. -/
theorem nand_write_leaves_partition :
    let bad := fun i => decide (i = 1)
    (doFlash (pairBoard bad) sound (bytes "kernel") 0 12 idle).1 = true ∧
    24 ∈ programmedBy (pairBoard bad) sound (bytes "kernel") 0 12 idle ∧
    (pairBoard bad).smemGetpart (bytes "rootfs") = some (3, 1) ∧
    ¬ StaysInside (pairBoard bad) (pairChip bad) kernelTarget sound (bytes "kernel") 0 12 idle := by
  refine ⟨by decide, by decide, by decide, fun stays => ?_⟩
  have := (stays.inside 24 (by decide)).2
  revert this
  decide

end ResQBoot.Flash
