import Mathlib.Data.List.TakeWhile
import ResQBoot.Failsafe.Backup
import ResQBoot.Flash.Chunk
import ResQBoot.Upgrade.Firmware

/-!
# The flash that a backup reads

A backup request may name a flash type, which `flash_override_matches` compares with the topology of the board. All
readers but the one for raw pages report it when a device read fails (`ChunkReader.read_failed`).
-/

namespace ResQBoot.Flash

/-! ### The reads that a reader needs -/

inductive DeviceRead where
  | command (n : Nat)
  | nand (off : Nat)
  deriving DecidableEq, Repr

def DeviceRead.fails (io : Io) : DeviceRead → Bool
  | .command n => !io.ok n
  | .nand off => !io.reads off

def Chip.pagesAsked (c : Chip) (userOffset userSize : Nat) : List Nat :=
  let rawPageSize := c.writesize + c.oobsize
  let totalPages := c.size / c.writesize % 2 ^ 32
  let startPage := userOffset / rawPageSize % 2 ^ 32
  let pagesAvail := if userSize / rawPageSize = 0 then 1 else userSize / rawPageSize
  if startPage ≥ totalPages then []
  else
    c.rawPages sound startPage
      (if (startPage + pagesAvail) % 2 ^ 32 > totalPages then totalPages - startPage else pagesAvail)

def ChunkReader.needed (b : Board) (name : Bytes) (userOffset userSize : Nat) (st : ChunkState) :
    ChunkReader → List DeviceRead
  | .raw => match b.nand with
    | none => []
    | some c => (c.pagesAsked userOffset userSize).map fun p => .nand (p * c.writesize)
  | .nand => match b.nand with
    | none => []
    | some c => match nandPart b c name with
      | none => []
      | some (base, total) =>
        let size := chunkSize userSize (total - userOffset)
        (c.chunkPieces sound size (base + userOffset) (base + userOffset + size) size).2.map fun p => .nand p.1
  | .emmc => match b.emmc with
    | none => []
    | some d =>
      let part :=
        if name = st.cache.partName ∧ st.cache.partSize > 0 then (st.cache.baseOffset, st.cache.partSize)
        else emmcPart d name
      if part.2 = 0 ∨ userOffset ≥ part.2 then [] else [.command st.world.log.length]
  | .sf => match sfPart b name with
    | none => []
    | some (_, total) =>
      if userOffset ≥ total then [] else [.command st.world.log.length, .command (st.world.log.length + 1)]

section Failures

variable {b : Board} {io : Io} {name : Bytes} {addr off size : Nat} {st : ChunkState} {w : World}

lemma rawPages_all (c : Chip) (start n : Nat) :
    c.rawPages sound start n = List.range' start ((start + n) % 2 ^ 32 - start) := by
  rw [Chip.rawPages, List.takeWhile_eq_self_iff]
  exact fun _ _ => rfl

lemma pagesAsked_zero {c : Chip} (size_lt : size < 2 ^ 32) : c.pagesAsked 0 size =
    List.range (min (c.size / c.writesize % 2 ^ 32) (max 1 (size / (c.writesize + c.oobsize)))) := by
  have total : c.size / c.writesize % 2 ^ 32 < 2 ^ 32 := Nat.mod_lt _ (by decide)
  have pages : size / (c.writesize + c.oobsize) ≤ size := Nat.div_le_self _ _
  simp only [Chip.pagesAsked, Nat.zero_div, Nat.zero_mod, Nat.zero_add, rawPages_all, ← List.range_eq_range']
  generalize c.size / c.writesize % 2 ^ 32 = t at total ⊢
  generalize size / (c.writesize + c.oobsize) = n at pages ⊢
  split
  · rw [show min t (max 1 n) = 0 by omega, List.range_zero]
  · congr 1
    split <;> split <;> omega

lemma nandRawChunkRead_result {c : Chip} (chip : b.nand = some c) : (nandRawChunkRead b io addr off size w).1.result =
      if c.size / c.writesize % 2 ^ 32 ≤ off / (c.writesize + c.oobsize) % 2 ^ 32 then some (off % 2 ^ 32, 0)
      else
        let pages := (c.pagesAsked off size).takeWhile fun p => io.reads (p * c.writesize)
        if pages.length = 0 then none else some (off % 2 ^ 32, pages.length * (c.writesize + c.oobsize)) := by
  simp only [nandRawChunkRead, chip, Chip.pagesAsked, ge_iff_le]
  by_cases past : c.size / c.writesize % 2 ^ 32 ≤ off / (c.writesize + c.oobsize) % 2 ^ 32
  · rw [if_pos past, if_pos past]
    rfl
  · rw [if_neg past, if_neg past, if_neg past, rawPages_all, Chip.rawPages]
    generalize List.takeWhile _ _ = pages
    split <;> rfl

lemma chunkPieces_failed {c : Chip} {fuel cur stop left : Nat} {piece : Nat × Nat}
    (mem : piece ∈ (c.chunkPieces sound fuel cur stop left).2) (fails : io.reads piece.1 = false) :
    (c.chunkPieces io fuel cur stop left).1 ≠ none := by
  induction fuel generalizing cur left with
  | zero => cases mem
  | succ fuel ih =>
    rw [Chip.chunkPieces] at mem ⊢
    by_cases past : left = 0 ∨ cur ≥ stop
    · rw [if_pos past] at mem
      cases mem
    rw [if_neg past] at mem ⊢
    simp only at mem ⊢
    split
    · exact Option.some_ne_none _
    rename_i inside
    rw [if_neg inside] at mem
    split
    · exact Option.some_ne_none _
    rename_i good
    rw [if_neg good] at mem
    split
    · exact Option.some_ne_none _
    rename_i reads
    rw [Bool.or_eq_true, not_or, Bool.not_eq_true', Bool.not_eq_false] at reads
    rw [if_neg (by simpa [sound] using reads.1)] at mem
    rcases List.mem_cons.mp mem with rfl | later
    · exact absurd (fails.symm.trans reads.2) Bool.false_ne_true
    · exact ih later

lemma exec_failed {c : Cmd} (fails : io.ok w.log.length = false) : (exec b io c w).1 = false := by
  rw [exec, fails]
  rfl

lemma runCommand_failed {c : Cmd} {t : List Cmd} (fails : (exec b io c w).1 = false) :
    (runCommand b io (c :: t) w).1 = false := by
  rw [runCommand]
  cases run : exec b io c w with
  | mk done w' =>
    rw [run] at fails
    cases fails
    rfl

lemma ChunkReader.read_failed {reader : ChunkReader} {r : DeviceRead} (plain : reader ≠ .raw)
    (mem : r ∈ reader.needed b name off size st) (fails : r.fails io = true) :
    (reader.read b io name addr off size st).1.result = none := by
  cases reader with
  | raw => exact absurd rfl plain
  | nand =>
    simp only [needed] at mem
    simp only [read, nandChunkRead]
    cases chip : b.nand with
    | none => rfl
    | some c =>
      simp only [chip] at mem ⊢
      cases part : nandPart b c name with
      | none => rfl
      | some place =>
        obtain ⟨base, total⟩ := place
        simp only [part] at mem ⊢
        obtain ⟨piece, piece_mem, rfl⟩ := List.mem_map.mp mem
        have stops : (c.chunkPieces io _ _ _ _).1 ≠ none :=
          chunkPieces_failed piece_mem (by simpa [DeviceRead.fails] using fails)
        obtain ⟨text, detail⟩ := Option.ne_none_iff_exists'.mp stops
        simp only [detail]
        rfl
  | emmc =>
    simp only [needed] at mem
    simp only [read, emmcChunkRead]
    cases disk : b.emmc with
    | none => rfl
    | some d =>
      simp only [disk] at mem ⊢
      generalize (if name = st.cache.partName ∧ st.cache.partSize > 0 then
        (st.cache.baseOffset, st.cache.partSize) else emmcPart d name) = part at mem ⊢
      split at mem
      · cases mem
      rename_i found
      rw [not_or] at found
      obtain rfl := List.mem_singleton.mp mem
      rw [if_neg found.1, if_neg found.2]
      have failed (c : Cmd) : (exec b io c st.world).1 = false :=
        exec_failed (by simpa [DeviceRead.fails] using fails)
      generalize Cmd.mmcRead _ _ _ = c
      cases run : exec b io c st.world with
      | mk done w' =>
        obtain rfl : done = false := by simpa [run] using failed c
        rfl
  | sf =>
    simp only [needed] at mem
    simp only [read, sfChunkRead]
    cases part : sfPart b name with
    | none => rfl
    | some place =>
      obtain ⟨base, total⟩ := place
      simp only [part] at mem ⊢
      split at mem
      · cases mem
      rename_i more
      rw [if_neg more]
      generalize Cmd.sfRead _ _ _ = c
      have failed : (runCommand b io [.sfProbe, c] st.world).1 = false := by
        rcases List.mem_cons.mp mem with rfl | second
        · exact runCommand_failed (exec_failed (by simpa [DeviceRead.fails] using fails))
        obtain rfl := List.mem_singleton.mp second
        rw [runCommand]
        have log := exec_log b io .sfProbe st.world
        cases probe : exec b io .sfProbe st.world with
        | mk done w' =>
          rw [probe] at log
          cases done with
          | false => rfl
          | true =>
            refine runCommand_failed (exec_failed ?_)
            rw [log, List.length_append]
            simpa [DeviceRead.fails] using fails
      cases run : runCommand b io [.sfProbe, c] st.world with
      | mk done w' =>
        obtain rfl : done = false := by simpa [run] using failed
        rfl

end Failures

end ResQBoot.Flash

namespace ResQBoot.Upgrade

open Flash
open Failsafe (FlashSel)

def smemBootOf : FlashSel → SmemBoot
  | .nor => .spiFlash
  | .nand => .nandFlash
  | .emmc => .mmcFlash

namespace Setup

variable (s : Setup) (name : Bytes)

def topology : SmemBoot := s.currentFlashType.getD s.board.flashType

def flashOverrideMatches : Option FlashSel → Bool
  | none => true
  | some .nand =>
    (isNandFlash s.topology || s.topology = .norPlusNand || isNandFlash s.board.flashType || s.board.secondaryNand) &&
      !(name = norFull || name = gptPartName || name = gptBackupPartName) &&
      !(name ≠ nandFull && s.board.getWhichFlashParam name = 0 && s.topology = .norPlusNand)
  | some .nor =>
    (s.topology = .spiFlash || s.topology = .norFlash || s.topology = .norPlusNand || s.topology = .norPlusEmmc ||
        s.board.flashType = .spiFlash || s.board.flashType = .norFlash) &&
      !(name = nandFull || name = gptPartName || name = gptBackupPartName) &&
      !(0 < s.board.getWhichFlashParam name)
  | some .emmc =>
    (s.topology = .mmcFlash || s.topology = .norPlusEmmc || s.board.flashType = .mmcFlash ||
        s.board.secondary = .mmcFlash || s.board.rootfsUnset) &&
      !(name = nandFull || name = norFull)

def readerFor (flashType : SmemBoot) (raw : Bool) : Option FlashSel → Option ChunkReader
  | none => chunkReader s.board flashType name raw
  | some sel =>
    if name = nandFull ∨ sel = .nand then
      if raw then if name = nandFull then some .raw else none
      else some .nand
    else if sel = .emmc then some .emmc
    else some .sf

def flashreadPartitionChunk (addr userOffset userSize : Nat) (raw : Bool) (override : Option FlashSel)
    (st : ChunkState) : ChunkReply × ChunkState :=
  if s.flashOverrideMatches name override then
    match s.readerFor name (st.world.flashTypeNew.getD s.board.flashType) raw override with
    | none => (.failure, st)
    | some reader => reader.read s.board s.io name addr userOffset userSize st
  else (.failureAt (bytes "flash type mismatch"), st)

def partCapacity : Option Nat := ((s.board.getpartOffsetSize name).map Prod.snd).filter (· ≠ 0)

def nandCapacity (raw : Bool) : Nat :=
  if raw then s.board.nandSize / s.board.nandWritesize * (s.board.nandWritesize + s.board.nandOobsize)
  else s.board.nandSize

def emmcCapacity (d : BlockDev) (flashType : SmemBoot) (override : Option FlashSel) : Nat :=
  if name = gptPartName then Gpt.gptPrimarySize * d.blksz
  else if name = gptBackupPartName then Gpt.gptBackupSize * d.blksz
  else
    match d.getPartitionInfoEfiByName name with
    | some info => info.size * d.blksz
    | none =>
      if override = some .emmc then 0
      else if flashType = .norPlusEmmc then (s.partCapacity name).getD s.board.norSize
      else d.lba * d.blksz

def norCapacity (flashType : SmemBoot) (override : Option FlashSel) : Nat :=
  if override = some .nor ∨
      override = none ∧ (flashType = .spiFlash ∨ flashType = .norPlusNand ∨ flashType = .norPlusEmmc) then
    if override = some .nor ∨ 0 < s.board.getWhichFlashParam name then (s.partCapacity name).getD s.board.norSize
    else s.board.norSize
  else 0

def backupFlashCapacity (raw : Bool) (override : Option FlashSel) : Nat :=
  match s.currentFlashType.or (override.map smemBootOf) with
  | none => 0
  | some flashType =>
    if name = norFull then s.board.norSize
    else if name = nandFull ∨ override = some .nand ∨
        override = none ∧ (isNandFlash flashType ∨ flashType = .norPlusNand ∨ 0 < s.board.getWhichFlashParam name) then
      if name = nandFull then s.nandCapacity raw else (s.partCapacity name).getD s.board.nandSize
    else
      match s.board.emmc with
      | none => s.norCapacity name flashType override
      | some d =>
        if override = some .emmc ∨
            override = none ∧ (flashType = .mmcFlash ∨ flashType = .noFlash ∨ flashType = .norPlusEmmc) then
          s.emmcCapacity name d flashType override
        else s.norCapacity name flashType override

end Setup

end ResQBoot.Upgrade
