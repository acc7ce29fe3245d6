import ResQBoot.Failsafe.Partitions
import ResQBoot.Upgrade.NorFrame

/-!
# What the listing tells of a partition

The label and the range of a listed partition are computed apart from `flash_override_matches` and
`getpart_offset_size`, which are to accept them.
-/

namespace ResQBoot.Failsafe

open Upgrade (Setup)
open ResQBoot.Flash (Ptn BlockDev strncmpEq tillEnd nandFull norFull gptPartName gptBackupPartName)

def emmcParts (d : BlockDev) : List ListedPart :=
  primaryPart d :: ((d.gpt.filterMap id).map (gptPart d) ++ [backupPart d])

lemma allParts_eq (s : Setup) : allParts s =
    (if s.topology = .mmcFlash then [] else s.board.table.map (smemPart s)) ++ (listedEmmc s).elim [] emmcParts := by
  rw [allParts]
  cases listedEmmc s <;> rfl

/-! ## What is printed -/

section

variable {d : BlockDev} {l : Listing}

lemma gptLoop_sublist (d : BlockDev) (slots : List (Option Flash.GptPart)) (l : Listing) (more : 0 < l.count) :
    ∃ es, es.Sublist (gptEntries d slots) ∧ gptLoop d slots l = l.addAll es := by
  induction slots generalizing l with
  | nil => exact ⟨[], .slnil, rfl⟩
  | cons slot t ih =>
    cases slot with
    | none =>
      rw [gptLoop]
      split
      · exact ih l more
      · exact ⟨[], List.nil_sublist _, rfl⟩
    | some g =>
      have entries : gptEntries d (some g :: t) = (gptPart d g).json :: gptEntries d t := rfl
      rw [gptLoop]
      split
      · dsimp only
        split
        · exact ⟨[], List.nil_sublist _, rfl⟩
        obtain ⟨es, sub, eq⟩ := ih ⟨l.text ++ (bytes "," ++ (gptPart d g).json), l.count + 1⟩ (Nat.succ_pos _)
        refine ⟨(gptPart d g).json :: es, ?_, ?_⟩
        · rw [entries]
          exact sub.cons_cons _
        · rw [eq, Listing.addAll_cons, Listing.add_eq more]
      · exact ⟨[], List.nil_sublist _, rfl⟩

lemma appendEmmcGptJson_sublist (d : BlockDev) (l : Listing) :
    ∃ es, es.Sublist ((primaryPart d).json :: (gptEntries d d.gpt ++ [(backupPart d).json])) ∧
      appendEmmcGptJson d l = l.addAll es := by
  by_cases room : l.text.length ≤ partJsonBufSize - 340
  · obtain ⟨es, sub, eq⟩ := gptLoop_sublist d d.gpt (l.add (primaryPart d).json) (Nat.succ_pos _)
    have more : 0 < ((l.add (primaryPart d).json).addAll es).count :=
      Nat.lt_of_lt_of_le (Nat.succ_pos l.count) (Listing.le_count_addAll (l.add (primaryPart d).json) _)
    rw [appendEmmcGptJson_room room, eq, appendBackup]
    split
    · refine ⟨(primaryPart d).json :: (es ++ [(backupPart d).json]), (sub.append_right _).cons_cons _, ?_⟩
      rw [Listing.addAll_cons, Listing.addAll_append, ← Listing.add_eq more]
      rfl
    · exact ⟨(primaryPart d).json :: es, (sub.trans (List.sublist_append_left _ _)).cons_cons _, rfl⟩
  · rw [appendEmmcGptJson, if_pos (by simp only [partJsonBufSize] at room ⊢; omega)]
    exact ⟨[], List.nil_sublist _, rfl⟩

/-- The list is cut short only between entries: what is printed is entries of the tables, in their order. -/
theorem printedParts_sublist (s : Setup) :
    ∃ ps : List ListedPart, ps.Sublist (allParts s) ∧ printedParts s = openedJson.addAll (ps.map ListedPart.json) := by
  have smem : ∃ es, es.Sublist (smemEntries s) ∧ (if s.topology = .mmcFlash then openedJson
      else Listing.addWhile (partJsonBufSize - 200) (s.board.table.map fun p => (smemPart s p).json) openedJson) =
        openedJson.addAll es := by
    rw [smemEntries]
    split
    · exact ⟨[], .slnil, rfl⟩
    · exact Listing.addWhile_sublist _ _ _
  have emmc (l : Listing) : ∃ es, es.Sublist (emmcEntries s) ∧
      (listedEmmc s).elim l (appendEmmcGptJson · l) = l.addAll es := by
    rw [emmcEntries]
    cases listedEmmc s with
    | none => exact ⟨[], .slnil, rfl⟩
    | some d => exact appendEmmcGptJson_sublist d l
  obtain ⟨front, inSmem, first⟩ := smem
  obtain ⟨back, inEmmc, second⟩ := emmc (openedJson.addAll front)
  have printed : printedParts s = openedJson.addAll (front ++ back) := by
    rw [Listing.addAll_append, ← second, printedParts, first]
    cases listedEmmc s <;> rfl
  have entries : smemEntries s ++ emmcEntries s = (allParts s).map ListedPart.json := by
    rw [smemEntries, emmcEntries, allParts_eq, List.map_append]
    congr 1
    · split
      · rfl
      · rw [List.map_map]
        rfl
    · cases listedEmmc s with
      | none => rfl
      | some d =>
        simp only [Option.elim, emmcParts, gptEntries, List.map_cons, List.map_append, List.map_map, List.map_nil]
        rfl
  have sub := inSmem.append inEmmc
  rw [entries] at sub
  obtain ⟨ps, part, eq⟩ := List.sublist_map_iff.mp sub
  exact ⟨ps, part, by rw [printed, eq]⟩

end

/-! ## Labels -/

def keptNames : FlashSel → List Bytes
  | .nor => [nandFull, gptPartName, gptBackupPartName]
  | .nand => [norFull, gptPartName, gptBackupPartName]
  | .emmc => [nandFull, norFull]

/-- One of the types of the board names the flash. -/
def NamesFlash (s : Setup) : FlashSel → Prop
  | .nor => isNorFlash s.topology = true ∨ s.board.flashType = .spiFlash ∨ s.board.flashType = .norFlash
  | .nand =>
    isNandFlash s.topology = true ∨ s.topology = .norPlusNand ∨ isNandFlash s.board.flashType = true ∨
      s.board.secondaryNand = true
  | .emmc => True

section Labels

variable {s : Setup} {name : Bytes} {p : Ptn} {q : ListedPart}

lemma smemPart_listed (smem : s.topology ≠ .mmcFlash) (mem : p ∈ s.board.table) : smemPart s p ∈ allParts s := by
  rw [allParts, if_neg smem]
  exact List.mem_append_left _ (List.mem_map_of_mem mem)

lemma mem_allParts (mem : q ∈ allParts s) :
    (∃ p, smemPart s p = q) ∨ ((listedEmmc s).isSome = true ∧ q.flash = .emmc) := by
  rw [allParts_eq] at mem
  rcases List.mem_append.mp mem with smem | emmc
  · left
    split at smem
    · cases smem
    · obtain ⟨p, -, eq⟩ := List.mem_map.mp smem
      exact ⟨p, eq⟩
  · right
    cases disk : listedEmmc s with
    | none =>
      rw [disk] at emmc
      cases emmc
    | some d =>
      rw [disk] at emmc
      refine ⟨rfl, ?_⟩
      simp only [Option.elim, emmcParts, List.mem_cons, List.mem_append, List.mem_map, List.not_mem_nil, or_false] at emmc
      rcases emmc with rfl | ⟨g, -, rfl⟩ | rfl <;> rfl

lemma isNorFlash_iff (flashType : SmemBoot) : isNorFlash flashType = true ↔
    flashType = .spiFlash ∨ flashType = .norFlash ∨ flashType = .norPlusNand ∨ flashType = .norPlusEmmc := by
  cases flashType <;> decide

lemma nor_accepted (flag : s.board.getWhichFlashParam name = 0) :
    s.flashOverrideMatches name (some .nor) = true ↔ NamesFlash s .nor ∧ name ∉ keptNames .nor := by
  simp only [Setup.flashOverrideMatches, NamesFlash, keptNames, isNorFlash_iff, flag, Bool.and_eq_true, Bool.or_eq_true,
    Bool.not_eq_true', Bool.or_eq_false_iff, decide_eq_true_eq, decide_eq_false_iff_not, List.mem_cons,
    List.not_mem_nil, or_false, not_or, or_assoc, Nat.lt_irrefl, not_false_eq_true, and_true, and_assoc]

lemma nand_accepted (label : isNandFlash s.topology = true ∨ s.board.getWhichFlashParam name ≠ 0) :
    s.flashOverrideMatches name (some .nand) = true ↔ NamesFlash s .nand ∧ name ∉ keptNames .nand := by
  have unflagged : ¬ (s.board.getWhichFlashParam name = 0 ∧ s.topology = .norPlusNand) := by
    rintro ⟨flag, topology⟩
    rw [topology] at label
    rcases label with nand | set
    · cases nand
    · exact set flag
  have guard : (!(name ≠ nandFull && s.board.getWhichFlashParam name = 0 && s.topology = .norPlusNand)) = true := by
    rw [Bool.not_eq_true', Bool.and_assoc, Bool.and_eq_false_iff]
    right
    rw [← Bool.decide_and]
    exact decide_eq_false unflagged
  rw [Setup.flashOverrideMatches, guard, Bool.and_true]
  simp only [NamesFlash, keptNames, Bool.and_eq_true, Bool.or_eq_true, Bool.not_eq_true', Bool.or_eq_false_iff,
    decide_eq_true_eq, decide_eq_false_iff_not, List.mem_cons, List.not_mem_nil, or_false, not_or, or_assoc, and_assoc]

lemma emmc_accepted (lists : (listedEmmc s).isSome = true) :
    s.flashOverrideMatches name (some .emmc) = true ↔ NamesFlash s .emmc ∧ name ∉ keptNames .emmc := by
  have board : (s.topology = .mmcFlash || s.topology = .norPlusEmmc || s.board.flashType = .mmcFlash ||
      s.board.secondary = .mmcFlash || s.board.rootfsUnset) = true := by
    rw [listedEmmc] at lists
    simp only [Bool.or_eq_true, decide_eq_true_eq]
    split at lists
    · rename_i asked
      rcases asked with emmc | ⟨-, secondary | unset | both⟩
      · exact .inl (.inl (.inl (.inl emmc)))
      · exact .inl (.inr secondary)
      · exact .inr unset
      · exact .inl (.inl (.inl (.inr both)))
    · cases lists
  rw [Setup.flashOverrideMatches, board, Bool.true_and]
  simp only [NamesFlash, keptNames, Bool.not_eq_true', Bool.or_eq_false_iff, decide_eq_false_iff_not, List.mem_cons,
    List.not_mem_nil, or_false, not_or, true_and]

end Labels

/-- A line of the listing is accepted with its own label exactly where a type of the board names that flash too, and the
name is not kept for another device. -/
theorem listed_label_accepted_iff (s : Setup) (q : ListedPart) (listed : q ∈ allParts s) :
    s.flashOverrideMatches q.name (some q.flash) = true ↔ NamesFlash s q.flash ∧ q.name ∉ keptNames q.flash := by
  rcases mem_allParts listed with ⟨p, rfl⟩ | ⟨lists, flash⟩
  · rw [smemPart]
    dsimp only
    split
    · rename_i label
      exact nand_accepted (by simpa using label)
    · rename_i label
      rw [Bool.or_eq_true, not_or] at label
      exact nor_accepted (by simpa using label.2)
  · rw [flash]
    exact emmc_accepted lists

def norNand (table : List Ptn) : Setup :=
  { Upgrade.norSetup table with
    board := { (Upgrade.norSetup table).board with nand := (Flash.nandBoard 0).nand } }

def sblPart : Ptn := .entry (bytes "0:SBL1") 0 4 0xffff

def kernelPart : Ptn := .entry (bytes "kernel") 8 32 0x0100ffff

def rootfsPart : Ptn := .entry (bytes "rootfs") 8 tillEnd 0x0100ffff

def flaggedKernel : Setup := norNand [sblPart, kernelPart]

def flaggedRootfs : Setup := norNand [sblPart, rootfsPart]

/-- On such a board both labels are accepted. -/
theorem listed_label_accepted_rootfs :
    flaggedRootfs.flashOverrideMatches (bytes "0:SBL1") (some .nor) = true ∧
    flaggedRootfs.flashOverrideMatches (bytes "rootfs") (some .nand) = true := by
  have smem : flaggedRootfs.topology ≠ .mmcFlash := by decide
  constructor
  · have listed : smemPart flaggedRootfs sblPart ∈ allParts flaggedRootfs := smemPart_listed smem List.mem_cons_self
    exact (listed_label_accepted_iff _ _ listed).mpr ⟨.inl (by decide), by decide⟩
  · have listed : smemPart flaggedRootfs rootfsPart ∈ allParts flaggedRootfs :=
      smemPart_listed smem (List.mem_cons_of_mem _ List.mem_cons_self)
    exact (listed_label_accepted_iff _ _ listed).mpr ⟨.inr (.inl (by decide)), by decide⟩

/-- The kernel is listed as a partition of the NAND, and a backup of it that names the NAND is refused. -/
theorem listed_label_refused :
    flaggedKernel.currentFlashType = some .spiFlash ∧
    (printedParts flaggedKernel).text = bytes "\x7b\"parts\":[" ++
      bytes "\x7b\"name\":\"0:SBL1\",\"start\":0,\"size\":262144,\"flash\":\"nor\"\x7d," ++
      bytes "\x7b\"name\":\"kernel\",\"start\":524288,\"size\":4194304,\"flash\":\"nand\"\x7d" ∧
    (∃ q ∈ allParts flaggedKernel, q.name = bytes "kernel" ∧ q.flash = .nand ∧
      flaggedKernel.flashOverrideMatches q.name (some q.flash) = false) ∧
    (flaggedKernel.flashreadPartitionChunk (bytes "kernel") 0x4B000000 0 4096 false (some .nand)
      ⟨Flash.idle, Flash.emmcCacheInvalidate⟩).1 = .failureAt (bytes "flash type mismatch") := by
  refine ⟨by decide, by decide, ⟨smemPart flaggedKernel kernelPart, ?_, rfl, by decide, by decide⟩, rfl⟩
  exact smemPart_listed (by decide) (List.mem_cons_of_mem _ List.mem_cons_self)

/-! ## Ranges -/

lemma find_name {t : List Ptn} (distinct : (t.map Ptn.name).Nodup) {p : Ptn} (mem : p ∈ t) :
    (t.find? fun q => strncmpEq q.name p.name 16) = some p := by
  induction t with
  | nil => cases mem
  | cons first t ih =>
    rw [List.map_cons, List.nodup_cons] at distinct
    rw [List.find?_cons, Flash.strncmpEq_name]
    rcases List.mem_cons.mp mem with rfl | later
    · rw [decide_eq_true rfl]
    have other : first.name ≠ p.name := by
      intro same
      exact distinct.1 (List.mem_map.mpr ⟨p, later, same.symm⟩)
    rw [decide_eq_false other]
    exact ih distinct.2 later

/-- A partition of SMEM, with distinct names, is listed with the range of `getpart_offset_size` exactly where its start
is the same in blocks of the boot flash: always without the flag of the NAND, whose blocks scale the start with it. -/
theorem listed_range_iff (s : Setup) (distinct : (s.board.table.map Ptn.name).Nodup) (p : Ptn) (mem : p ∈ s.board.table) :
    (s.topology ≠ .mmcFlash → smemPart s p ∈ allParts s) ∧
    (s.board.getpartOffsetSize p.name = some ((smemPart s p).start, (smemPart s p).size) ↔
      (p.which = 1 → p.start * s.board.blockSize % 2 ^ 32 = p.start * s.board.nandErasesize % 2 ^ 32)) := by
  refine ⟨fun smem => smemPart_listed smem mem, ?_⟩
  have part : s.board.getpartOffsetSize p.name =
      some (p.start * s.board.getPartBlockSize p % 2 ^ 32, (smemPart s p).size) := by
    rw [Flash.Board.getpartOffsetSize, Flash.Board.smemFind, find_name distinct mem]
    rfl
  rw [part, Option.some.injEq, Prod.mk.injEq, and_iff_left rfl, eq_comm, smemPart, Flash.Board.getPartBlockSize]
  by_cases nand : p.which = 1
  · rw [if_pos nand]
    exact ⟨fun same _ => same, fun same => same nand⟩
  · rw [if_neg nand]
    exact iff_of_true rfl (fun flag => absurd flag nand)

/-- The NAND has blocks of twice the size of the NOR's: the partition of the NOR is listed where it lies. -/
theorem listed_range_sbl : flaggedRootfs.board.getpartOffsetSize (bytes "0:SBL1") = some (0, 262144) := by
  have mem : sblPart ∈ flaggedRootfs.board.table := List.mem_cons_self
  exact (listed_range_iff flaggedRootfs (by decide) _ mem).2.mpr (by decide)

/-- The start of the rootfs is scaled by the blocks of the NOR, where `getpart_offset_size`, and a backup with it, goes
by those of the NAND. -/
theorem listed_start_differs :
    (printedParts flaggedRootfs).text = bytes "\x7b\"parts\":[" ++
      bytes "\x7b\"name\":\"0:SBL1\",\"start\":0,\"size\":262144,\"flash\":\"nor\"\x7d," ++
      bytes "\x7b\"name\":\"rootfs\",\"start\":524288,\"size\":133169152,\"flash\":\"nand\"\x7d" ∧
    flaggedRootfs.board.getpartOffsetSize (bytes "rootfs") = some (1048576, 133169152) ∧
    (flaggedRootfs.board.nand.bind fun c => Flash.nandPart flaggedRootfs.board c (bytes "rootfs")) =
      some (1048576, 133169152) := by
  exact ⟨by decide, by decide, by decide⟩

end ResQBoot.Failsafe
