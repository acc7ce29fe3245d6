import ResQBoot.Board.Art
import ResQBoot.Flash.Gpt

/-!
# Boards, partition tables and their lookups

What the `flash` and `flashread` commands read of a board: `qca_smem_flash_info`, the SMEM partition
table, `nand_info` and the GPT of the eMMC, with the lookups of `smem.c` and `part_efi.c`. The lookups
compute in 32 bits where the source does; `lbaint_t` and `size_t` are 32 bits wide.
-/

namespace ResQBoot.Flash

structure Ptn where
  name : Bytes
  start : Nat
  size : Nat
  attr : Nat
  terminated : name.length < 16
  start_lt : start < 2 ^ 32
  size_lt : size < 2 ^ 32

def Ptn.entry (name : Bytes) (start size attr : Nat) : Ptn where
  name := name.take 15
  start := start % 2 ^ 32
  size := size % 2 ^ 32
  attr := attr
  terminated := by rw [List.length_take]; omega
  start_lt := Nat.mod_lt _ (by decide)
  size_lt := Nat.mod_lt _ (by decide)

def Ptn.which (p : Ptn) : Nat := (p.attr &&& 0xff000000) >>> 24

def tillEnd : Nat := 2 ^ 32 - 1

structure Chip where
  size : Nat
  writesize : Nat
  erasesize : Nat
  oobsize : Nat
  bad : Nat → Bool
  page : ∃ k ≤ 16, writesize = 2 ^ k
  block : ∃ k < 32, erasesize = 2 ^ k
  pages : writesize ∣ erasesize
  blocks : erasesize ∣ size
  size_pos : 0 < size
  spare : 0 < oobsize

structure GptPart where
  name : Bytes
  startingLba : Nat
  endingLba : Nat

structure BlockDev extends Gpt.Disk where
  gpt : List (Option GptPart)

structure Board where
  ipq806x : Bool
  cleanMarker : Bool
  flashType : SmemBoot
  secondary : SmemBoot
  blockSize : Nat
  rootfsUnset : Bool
  activeRootfs : Nat
  table : List Ptn
  ubiVolPresent : Bytes → Bool
  nand : Option Chip
  norSize : Nat
  norSector : Nat
  emmc : Option BlockDev
  blockSize_lt : blockSize < 2 ^ 32
  norSize_lt : norSize < 2 ^ 32
  norBoot : flashType = .spiFlash → (∃ k, 12 ≤ k ∧ blockSize = 2 ^ k) ∧ blockSize ≤ norSize

lemma noNor_lt : 0 < 2 ^ 32 := by decide

lemma nor4MiB_lt : 2 ^ 22 < 2 ^ 32 := by decide

def strncmpEq (a b : Bytes) (n : Nat) : Bool := a.take n = b.take n

def gptPartName : Bytes := bytes "0:GPT"
def gptBackupPartName : Bytes := bytes "0:GPTBACKUP"

/-- The name is not one of the two partition tables. -/
abbrev NotGpt (name : Bytes) : Prop := name ≠ gptPartName ∧ name ≠ gptBackupPartName

def isRootfs (name : Bytes) : Bool := strncmpEq name (bytes "rootfs") 6

def ipqNandRootfsSize : Nat := 64 * 2 ^ 20

namespace Board

variable (b : Board)

/-! ### `nand_info` -/

def nandSize : Nat := match b.nand with
  | some c => c.size
  | none => 0

def nandErasesize : Nat := match b.nand with
  | some c => c.erasesize
  | none => 0

def nandWritesize : Nat := match b.nand with
  | some c => c.writesize
  | none => 0

def secondaryNand : Bool := isNandFlash b.secondary

/-! ### The SMEM table -/

def smemFind (name : Bytes) : Option Ptn := b.table.find? fun p => strncmpEq p.name name 16

def getPartBlockSize (p : Ptn) : Nat := if p.which = 1 then b.nandErasesize else b.blockSize

def deviceSizeByPart (p : Ptn) : Nat := if p.which = 1 then b.nandSize else b.norSize

def smemGetpart (name : Bytes) : Option (Nat × Nat) :=
  (b.smemFind name).map fun p =>
    (p.start,
      if p.size = tillEnd then
        (b.deviceSizeByPart p / b.getPartBlockSize p + 2 ^ 32 - p.start) % 2 ^ 32
      else p.size)

def getWhichFlashParam (name : Bytes) : Nat :=
  b.table.foldl (fun flashVar p => if p.name = name then p.which else flashVar) 0

def getpartOffsetSize (name : Bytes) : Option (Nat × Nat) :=
  (b.smemFind name).map fun p =>
    let bsize := b.getPartBlockSize p
    (p.start * bsize % 2 ^ 32,
      (if p.size = tillEnd then b.deviceSizeByPart p + 2 ^ 64 - p.start * bsize else p.size * bsize) %
        2 ^ 32)

end Board

/-! ### The GPT -/

structure DiskPartition where
  start : Nat
  size : Nat
  blksz : Nat

def GptPart.info (g : GptPart) (blksz : Nat) : DiskPartition where
  start := g.startingLba % 2 ^ 32
  size := (g.endingLba % 2 ^ 32 + 1 + 2 ^ 32 - g.startingLba % 2 ^ 32) % 2 ^ 32
  blksz := blksz

def gptByName (name : Bytes) : List (Option GptPart) → Option GptPart
  | [] => none
  | none :: _ => none
  | some g :: t => if name = g.name then some g else gptByName name t

def BlockDev.getPartitionInfoEfiByName (d : BlockDev) (name : Bytes) : Option DiskPartition :=
  (gptByName name (d.gpt.take 127)).map (·.info d.blksz)

/-! ### Lemmas about the lookups -/

section Lookup

variable {b : Board} {name : Bytes} {p : Ptn}

lemma strncmpEq_name (p : Ptn) (name : Bytes) : strncmpEq p.name name 16 = decide (p.name = name) := by
  have short := p.terminated
  rw [strncmpEq, List.take_of_length_le (by omega)]
  congr 1
  rw [eq_iff_iff]
  constructor
  · intro eq
    have len := congrArg List.length eq
    rw [List.length_take] at len
    rwa [List.take_of_length_le (by omega)] at eq
  · intro eq
    rw [← eq, List.take_of_length_le (by omega)]

lemma smemFind_eq (b : Board) (name : Bytes) : b.smemFind name = b.table.find? fun p => p.name = name := by
  rw [Board.smemFind]
  congr 1
  funext p
  exact strncmpEq_name p name

lemma smemFind_mem (found : b.smemFind name = some p) : p ∈ b.table ∧ p.name = name := by
  rw [smemFind_eq] at found
  exact ⟨List.mem_of_find?_eq_some found, by simpa using List.find?_some found⟩

lemma foldl_which_absent {t : List Ptn} (absent : name ∉ t.map Ptn.name) (v : Nat) :
    t.foldl (fun flashVar p => if p.name = name then p.which else flashVar) v = v := by
  induction t generalizing v with
  | nil => rfl
  | cons p t ih =>
    rw [List.map_cons, List.mem_cons, not_or] at absent
    rw [List.foldl_cons, if_neg (fun eq => absent.1 eq.symm), ih absent.2]

lemma foldl_which {t : List Ptn} (distinct : (t.map Ptn.name).Nodup) (v : Nat) :
    t.foldl (fun flashVar p => if p.name = name then p.which else flashVar) v =
      match t.find? fun p => p.name = name with
      | some p => p.which
      | none => v := by
  induction t generalizing v with
  | nil => rfl
  | cons p t ih =>
    rw [List.map_cons, List.nodup_cons] at distinct
    rw [List.foldl_cons, List.find?_cons]
    by_cases here : p.name = name
    · simp only [here, decide_true, if_true]
      exact foldl_which_absent (here ▸ distinct.1) p.which
    · simp only [here, decide_false, if_false]
      exact ih distinct.2 v

lemma getWhichFlashParam_eq {b : Board} (distinct : (b.table.map Ptn.name).Nodup) (name : Bytes) :
    b.getWhichFlashParam name = match b.smemFind name with
      | some p => p.which
      | none => 0 := by
  rw [Board.getWhichFlashParam, smemFind_eq]
  exact foldl_which distinct 0

lemma gptByName_mem {t : List (Option GptPart)} {g : GptPart} (found : gptByName name t = some g) : some g ∈ t := by
  induction t with
  | nil => cases found
  | cons slot t ih =>
    cases slot with
    | none => cases found
    | some g' =>
      rw [gptByName] at found
      split at found
      · cases found
        exact List.mem_cons_self
      · exact List.mem_cons_of_mem _ (ih found)

end Lookup

end ResQBoot.Flash
