import ResQBoot.Upgrade.Execute
import ResQBoot.Upgrade.Unpack

/-!
# The parts of an image on an eMMC

The eMMC branch of `do_firmware_upgrade` compares two sizes with the parts of the image, and then names fixed partitions
in its commands (`emmcWords`).
-/

namespace ResQBoot.Upgrade

variable {len : Nat} {name : Bytes}

open Flash

def Query.words : Query → List Word
  | line words => words
  | readBack name _ scratch size => [.flashread name scratch size]
  | canReplace _ _ => []

def Query.All (P : Word → Prop) (q : Query) : Prop := ∀ w ∈ q.words, P w

def hlosName1 : Bytes := bytes "0:HLOS_1"
def rootfsName1 : Bytes := bytes "rootfs_1"

namespace Host

variable (h : Host) {size : Nat} {m : Mem} {kernel root : Nat × Nat} {P : Word → Prop}

def Splits (m : Mem) : Prop :=
  checkFwType m h.uploadAddr = some .fit ∨ checkFwType m h.uploadAddr = some .sysupgrade

def imageParts (size : Nat) (m : Mem) : Option ((Nat × Nat) × (Nat × Nat)) :=
  match checkFwType m h.uploadAddr with
  | some .fit =>
    let hlosSize := fwHlosSize m h.uploadAddr
    if size ≤ hlosSize then none
    else some ((h.uploadAddr, hlosSize), (h.uploadAddr + hlosSize, size - hlosSize))
  | some .sysupgrade =>
    (parseSysupgrade m h.uploadAddr size).map fun p =>
      ((p.kernelData, p.kernelSize), (p.rootfsData, p.rootfsSize))
  | _ => none

def Passes (kernel root : Nat × Nat) : Prop :=
  (h.smemTableSizeBytes hlosName ≠ 0 ∧ h.rootfsSize ≠ 0) ∧
    kernel.2 ≤ h.smemTableSizeBytes hlosName ∧ root.2 ≤ h.rootfsSize

def PassesBackup (kernel root : Nat × Nat) : Prop :=
  h.backupAvail = true ∧ kernel.2 ≤ h.smemTableSizeBytes hlosName1 ∧ root.2 ≤ h.smemTableSizeBytes rootfsName1

instance : Decidable (h.PassesBackup kernel root) := by
  unfold PassesBackup
  infer_instance

def closingWords : List Word :=
  [.flasherase (bytes "rootfs_data"), .mmcRead h.uploadAddr h.bootconfigOffsetBlocks h.bootconfigSizeBlocks,
    .mwByte (h.uploadAddr + 0x80), .mwByte (h.uploadAddr + 0x94), .mwByte (h.uploadAddr + 0xA8),
    .flash (bytes "0:BOOTCONFIG") h.uploadAddr h.bootconfigSize,
    .flash (bytes "0:BOOTCONFIG1") h.uploadAddr h.bootconfigSize]

def emmcWords (kernel root : Nat × Nat) : List Word :=
  [.flash hlosName kernel.1 kernel.2, .flash rootfsName root.1 root.2] ++
    (if h.PassesBackup kernel root then [.flash hlosName1 kernel.1 kernel.2, .flash rootfsName1 root.1 root.2] else []) ++
    h.closingWords

lemma asks_closing : (regardless (.line [.flasherase (bytes "rootfs_data")]) h.updateBootconfig).Asks (Query.All P) ↔
    ∀ w ∈ h.closingWords, P w := by
  simp [regardless, updateBootconfig, attempt, execute, Dialog.Asks, Query.All, Query.words, closingWords, and_assoc]

lemma asks_backup (oneLine : Bool) (k : Bool → Talk) :
    ((h.flashBackup oneLine kernel root (.done true)).bind k).Asks (Query.All P) ↔
      (h.PassesBackup kernel root → P (.flash hlosName1 kernel.1 kernel.2) ∧ P (.flash rootfsName1 root.1 root.2)) ∧
      (k true).Asks (Query.All P) := by
  have check : (h.backupAvail && decide (kernel.2 ≤ h.smemTableSizeBytes (bytes "0:HLOS_1")) &&
      decide (root.2 ≤ h.smemTableSizeBytes (bytes "rootfs_1"))) = true ↔ h.PassesBackup kernel root := by
    simp [PassesBackup, hlosName1, rootfsName1, and_assoc]
  rw [flashBackup]
  by_cases passes : h.PassesBackup kernel root
  · rw [if_pos (check.mpr passes)]
    cases oneLine <;>
      simp [partWords, regardless, Dialog.bind, Dialog.Asks, Query.All, Query.words, passes, hlosName1, rootfsName1, and_assoc]
  · rw [if_neg (mt check.mp passes)]
    simp [Dialog.bind, passes]

lemma asks_parts (oneLine : Bool) {k : Bool → Talk} (stops : k false = .done false) :
    ((h.emmcParts oneLine kernel root).bind k).Asks (Query.All P) ↔
      (h.Passes kernel root → P (.flash hlosName kernel.1 kernel.2) ∧ P (.flash rootfsName root.1 root.2) ∧
        (h.PassesBackup kernel root → P (.flash hlosName1 kernel.1 kernel.2) ∧ P (.flash rootfsName1 root.1 root.2)) ∧
        (k true).Asks (Query.All P)) := by
  rw [emmcParts]
  split
  · rename_i none
    have refused : ¬ h.Passes kernel root := fun passes => none.elim passes.1.1 passes.1.2
    simp [Dialog.bind, stops, Dialog.Asks, refused]
  rename_i some
  split
  · rename_i large
    have refused : ¬ h.Passes kernel root := fun passes =>
      large.elim (Nat.not_lt_of_le passes.2.1) (Nat.not_lt_of_le passes.2.2)
    simp [Dialog.bind, stops, Dialog.Asks, refused]
  · rename_i fits
    have passes : h.Passes kernel root := by
      rw [not_or] at some fits
      exact ⟨some, Nat.not_lt.mp fits.1, Nat.not_lt.mp fits.2⟩
    simp only [passes, forall_const, ← asks_backup h oneLine k]
    cases oneLine <;>
      simp [flashPrimary, partWords, attempt, Dialog.bind, Dialog.Asks, Query.All, Query.words, stops, hlosName, rootfsName,
        and_assoc]

lemma asks_emmcUpgrade (splits : h.Splits m) : (h.emmcUpgrade size m).Asks (Query.All P) ↔
    ∀ kernel root, h.imageParts size m = some (kernel, root) → h.Passes kernel root →
      ∀ w ∈ h.emmcWords kernel root, P w := by
  have words (oneLine : Bool) (kernel root : Nat × Nat) : ((h.emmcParts oneLine kernel root).bind fun ok =>
      if ok then regardless (.line [.flasherase (bytes "rootfs_data")]) h.updateBootconfig
      else .done false).Asks (Query.All P) ↔ (h.Passes kernel root → ∀ w ∈ h.emmcWords kernel root, P w) := by
    refine (asks_parts h oneLine ?_).trans ?_
    · rfl
    rw [if_pos rfl, asks_closing, emmcWords]
    by_cases passes : h.PassesBackup kernel root
    · simp [passes, or_imp, forall_and, and_assoc]
    · simp [passes, or_imp, forall_and]
  rw [emmcUpgrade, emmcImage, imageParts]
  rcases splits with fit | sysupgrade
  · simp only [fit]
    split
    · simp [Dialog.bind, Dialog.Asks]
    · simp [words]
  · simp only [sysupgrade]
    cases parseSysupgrade m h.uploadAddr size with
    | none => simp [Dialog.bind, Dialog.Asks]
    | some p => simp [words]

/-! ## The ranges of the commands -/

def Split (kernel root : Nat × Nat) : Word → Prop
  | .flash name addr len =>
    (name = hlosName → (addr, len) = kernel ∧ 0 < len ∧ len ≤ h.smemTableSizeBytes hlosName) ∧
    (name = rootfsName → (addr, len) = root ∧ 0 < len ∧ len ≤ h.rootfsSize) ∧
    (name = hlosName1 → (addr, len) = kernel ∧ 0 < len ∧ len ≤ h.smemTableSizeBytes hlosName1) ∧
    (name = rootfsName1 → (addr, len) = root ∧ 0 < len ∧ len ≤ h.smemTableSizeBytes rootfsName1)
  | .flashFile name => name ∉ [hlosName, rootfsName, hlosName1, rootfsName1]
  | _ => True

structure Divides (size : Nat) (m : Mem) (kernel root : Nat × Nat) : Prop where
  kernelInside : InImage h.uploadAddr size kernel
  rootInside : InImage h.uploadAddr size root
  apart : Apart kernel root
  fit : checkFwType m h.uploadAddr = some .fit →
    kernel.1 = h.uploadAddr ∧ root.1 = h.uploadAddr + kernel.2 ∧ kernel.2 + root.2 = size

lemma fwHlosSize_pos (m : Mem) (address : Nat) : 0 < fwHlosSize m address := by
  rw [fwHlosSize]
  cases found : hlosSizesKb.find? fun kb => u32At m (address + kb * 1024) = magicHsqs with
  | none => decide
  | some kb =>
    have mem := List.mem_of_find?_eq_some found
    rw [hlosSizesKb, List.mem_map] at mem
    obtain ⟨i, -, rfl⟩ := mem
    rw [Option.getD_some]
    omega

lemma imageParts_divides (parts : h.imageParts size m = some (kernel, root)) :
    h.Divides size m kernel root ∧ 0 < kernel.2 ∧ 0 < root.2 := by
  rw [imageParts] at parts
  split at parts
  · rename_i fit
    simp only at parts
    have pos := fwHlosSize_pos m h.uploadAddr
    generalize fwHlosSize m h.uploadAddr = hlosSize at parts pos
    split at parts
    · cases parts
    · rename_i lt
      cases parts
      refine ⟨⟨⟨Nat.le_refl _, by simp only; omega⟩, ⟨Nat.le_add_right _ _, by simp only; omega⟩, .inl (Nat.le_refl _),
        fun _ => ⟨rfl, rfl, by simp only; omega⟩⟩, pos, by simp only; omega⟩
  · rename_i sysupgrade
    obtain ⟨p, parsed, eq⟩ := Option.map_eq_some_iff.mp parts
    cases eq
    obtain ⟨some, kernel, root, apart⟩ := parseSysupgrade_placed parsed
    refine ⟨⟨kernel, root, apart, fun fit => ?_⟩, some⟩
    rw [sysupgrade] at fit
    cases fit
  · cases parts

lemma divides_trivial : h.Divides size m (h.uploadAddr, 0) (h.uploadAddr, size) :=
  ⟨⟨Nat.le_refl _, by simp only; omega⟩, ⟨Nat.le_refl _, Nat.le_refl _⟩, .inl (Nat.le_refl _),
    fun _ => ⟨rfl, rfl, Nat.zero_add _⟩⟩

lemma doFirmwareUpgrade_emmc (emmc : h.onEmmc = true) : h.doFirmwareUpgrade size m = h.emmcUpgrade size m := by
  simp only [Setup.onEmmc, Bool.or_eq_true, decide_eq_true_eq] at emmc
  rw [doFirmwareUpgrade]
  rcases emmc with emmc | emmc <;> rw [emmc]

lemma split_emmcWords (passes : h.Passes kernel root) (some : 0 < kernel.2 ∧ 0 < root.2) :
    ∀ w ∈ h.emmcWords kernel root, h.Split kernel root w := by
  have closing : ∀ w ∈ h.closingWords, h.Split kernel root w := by
    have plain : ∀ name ∈ [bytes "0:BOOTCONFIG", bytes "0:BOOTCONFIG1"],
        name ≠ hlosName ∧ name ≠ rootfsName ∧ name ≠ hlosName1 ∧ name ≠ rootfsName1 := by decide
    simp only [List.mem_cons, List.not_mem_nil, or_false, forall_eq_or_imp, forall_eq] at plain
    simp [closingWords, Split, plain]
  rw [emmcWords]
  simp only [List.mem_append, or_imp, forall_and]
  refine ⟨⟨?_, ?_⟩, closing⟩
  · simp only [List.mem_cons, List.not_mem_nil, or_false, forall_eq_or_imp, forall_eq]
    exact ⟨⟨fun _ => ⟨rfl, some.1, passes.2.1⟩, fun eq => absurd eq (by decide), fun eq => absurd eq (by decide), fun eq => absurd eq (by decide)⟩,
      fun eq => absurd eq (by decide), fun _ => ⟨rfl, some.2, passes.2.2⟩, fun eq => absurd eq (by decide), fun eq => absurd eq (by decide)⟩
  split
  · rename_i backup
    simp only [List.mem_cons, List.not_mem_nil, or_false, forall_eq_or_imp, forall_eq]
    exact ⟨⟨fun eq => absurd eq (by decide), fun eq => absurd eq (by decide), fun _ => ⟨rfl, some.1, backup.2.1⟩, fun eq => absurd eq (by decide)⟩,
      fun eq => absurd eq (by decide), fun eq => absurd eq (by decide), fun eq => absurd eq (by decide), fun _ => ⟨rfl, some.2, backup.2.2⟩⟩
  · rintro _ ⟨⟩

def SplitExactly (size : Nat) (m : Mem) : Prop :=
  ∃ kernel root, h.Divides size m kernel root ∧
    ∀ (σ : Type) (answer : Query → σ → Bool × σ) (e : σ), ∀ q ∈ (h.doFirmwareUpgrade size m).asked answer e,
      ∀ w ∈ q.words, h.Split kernel root w

theorem emmc_split (h : Host) (size : Nat) (m : Mem) (emmc : h.onEmmc = true) (splits : h.Splits m) :
    h.SplitExactly size m := by
  rw [SplitExactly, doFirmwareUpgrade_emmc h emmc]
  cases parts : h.imageParts size m with
  | none =>
    refine ⟨_, _, h.divides_trivial, fun σ answer e q mem => ?_⟩
    refine Dialog.of_mem_asked ((h.asks_emmcUpgrade splits).mpr fun kernel root found => ?_) mem
    rw [parts] at found
    cases found
  | some ranges =>
    obtain ⟨kernel, root⟩ := ranges
    obtain ⟨divides, some⟩ := h.imageParts_divides parts
    refine ⟨kernel, root, divides, fun σ answer e q mem => ?_⟩
    refine Dialog.of_mem_asked ((h.asks_emmcUpgrade splits).mpr fun kernel' root' found passes => ?_) mem
    cases parts.symm.trans found
    exact h.split_emmcWords passes some

/-! ## The sizes of the partitions -/

def Roomy (ft : SmemBoot) (name : Bytes) (len : Nat) : Prop :=
  ∃ t, resolveFlash h.board ft name len = .target t ∧ len ≤ t.bytes

def CapacityHolds (ft : SmemBoot) (size : Nat) (m : Mem) : Prop :=
  (h.doFirmwareUpgrade size m).Asks (Query.All fun w => ∀ name addr len, w = .flash name addr len →
    name = hlosName ∨ name = rootfsName → h.Roomy ft name len)

def smemSizeBytes (name : Bytes) : Nat :=
  match h.board.smemGetpart name with
  | none => 0
  | some (_, size) => h.board.blockSize * size % 2 ^ 32

def ownSize (ft : SmemBoot) (name : Bytes) : Nat :=
  match ft with
  | .mmcFlash | .noFlash => h.gptSizeBytes name
  | .nandFlash | .qspiNandFlash => h.smemSizeBytes name
  | .spiFlash =>
    if h.board.getWhichFlashParam name > 0 then
      match h.board.getpartOffsetSize name with
      | none => 0
      | some (_, size) => size
    else if h.board.secondaryNand && isRootfs name then
      if h.board.rootfsUnset then ipqNandRootfsSize else 0
    else if onEmmc h.board name then h.gptSizeBytes name
    else h.smemSizeBytes name
  | _ => 0

lemma roomy_gpt {d : BlockDev} (plain : NotGpt name)
    (disk : h.board.emmc = some d) (pos : 0 < len) :
    (∃ t, resolveEmmc d name len = .target t ∧ len ≤ t.bytes) ↔ len ≤ h.gptSizeBytes name := by
  have blksz : d.blksz ≠ 0 := Nat.pos_iff_ne_zero.mp d.blksz_pos
  simp only [resolveEmmc, if_neg plain.1, if_neg plain.2, Setup.gptSizeBytes, disk]
  cases found : d.getPartitionInfoEfiByName name with
  | none => simp [Nat.pos_iff_ne_zero.mp pos]
  | some info =>
    obtain ⟨g, -, rfl⟩ := Option.map_eq_some_iff.mp found
    simp [Target.bytes, GptPart.info, blksz]

lemma roomy_smem {ft : SmemBoot} {layout : Layout} {marker : Bool} (pos : 0 < len) :
    (∃ t, resolveSmem h.board ft layout marker name len = .target t ∧ len ≤ t.bytes) ↔ len ≤ h.smemSizeBytes name := by
  simp only [resolveSmem, smemSizeBytes]
  cases h.board.smemGetpart name with
  | none => cases h.board.ubiVolPresent name <;> simp [Nat.pos_iff_ne_zero.mp pos]
  | some place => simp [Target.bytes]

lemma roomy_target {t : Target} (bytes : t.blksz = 0) :
    (∃ t', Resolved.target t = .target t' ∧ len ≤ t'.bytes) ↔ len ≤ t.partSize := by
  simp [Target.bytes, bytes]

lemma roomy_iff {ft : SmemBoot} (plain : NotGpt name)
    (pos : 0 < len) : h.Roomy ft name len ↔ len ≤ h.ownSize ft name := by
  have exit : ¬ ∃ t, Resolved.exit = .target t ∧ len ≤ t.bytes := by
    rintro ⟨_, ⟨⟩, _⟩
  have gone : ¬ len ≤ 0 := Nat.not_le_of_lt pos
  rw [Roomy]
  cases ft <;> simp only [resolveFlash, ownSize]
  case nandFlash | qspiNandFlash => exact h.roomy_smem pos
  case mmcFlash | noFlash =>
    cases disk : h.board.emmc with
    | none =>
      rw [roomy_target rfl]
      simp only [Setup.gptSizeBytes, disk]
    | some d => exact h.roomy_gpt plain disk pos
  case spiFlash =>
    split
    · cases h.board.getpartOffsetSize name with
      | none => exact iff_of_false exit gone
      | some place => exact roomy_target rfl
    split
    · split <;> exact roomy_target rfl
    split
    · cases disk : h.board.emmc with
      | none =>
        simp only [Setup.gptSizeBytes, disk]
        exact iff_of_false exit gone
      | some d => exact h.roomy_gpt plain disk pos
    · exact h.roomy_smem pos
  all_goals exact roomy_target rfl

/-- The partitions have the capacity exactly if the tables that `flash` takes them from say so, in place of the
tables and the names that the upgrade has looked at. -/
theorem capacity_iff (h : Host) (ft : SmemBoot) (size : Nat) (m : Mem) (emmc : h.onEmmc = true) (splits : h.Splits m) :
    h.CapacityHolds ft size m ↔
      ∀ kernel root, h.imageParts size m = some (kernel, root) → h.Passes kernel root →
        kernel.2 ≤ h.ownSize ft hlosName ∧ root.2 ≤ h.ownSize ft rootfsName := by
  rw [CapacityHolds, doFirmwareUpgrade_emmc h emmc, asks_emmcUpgrade h splits]
  refine forall₂_congr fun kernel root => forall₂_congr fun parts passes => ?_
  obtain ⟨-, kernelPos, rootPos⟩ := h.imageParts_divides parts
  rw [← h.roomy_iff (by decide) kernelPos, ← h.roomy_iff (by decide) rootPos]
  constructor
  · intro words
    have first : .flash hlosName kernel.1 kernel.2 ∈ h.emmcWords kernel root := by simp [emmcWords]
    have second : .flash rootfsName root.1 root.2 ∈ h.emmcWords kernel root := by simp [emmcWords]
    exact ⟨words _ first _ _ _ rfl (.inl rfl), words _ second _ _ _ rfl (.inr rfl)⟩
  · rintro ⟨kernelRoom, rootRoom⟩ w mem name addr len rfl target
    -- a command for one of the two names is one of the first two
    have split := h.split_emmcWords passes ⟨kernelPos, rootPos⟩ _ mem
    rcases target with rfl | rfl
    · obtain ⟨range, -⟩ := split.1 rfl
      cases range
      exact kernelRoom
    · obtain ⟨range, -⟩ := split.2.1 rfl
      cases range
      exact rootRoom

end Host

def emmcHost (gpt : List (Option GptPart)) : Host :=
  { onlyGpt with
    board := { onlyGpt.board with emmc := onlyGpt.board.emmc.map fun d => { d with gpt := gpt } }
    ramBootAddr := 0x44000000
    imgFlash := .unset
    nandDev := -1
    spiNandDev := -1
    norPageSize := 0
    reloadsMibib := false
    ubiVolWrite := false
    flashDensity := 0
    rootfsPlace := (0, 0)
    msmparts := none }

lemma blocks_lt : 2 ^ 15 < 2 ^ 32 := by decide

def largeHost (gpt : List (Option GptPart)) : Host :=
  { emmcHost [] with
    board := { (emmcHost []).board with emmc := some ⟨⟨512, 2 ^ 15, Gpt.sector_dvd, blocks_lt⟩, gpt⟩ } }

def complete : Host :=
  emmcHost [some ⟨bootconfig, 34, 34⟩, some ⟨bootconfig1, 35, 35⟩, some ⟨hlosName, 36, 36⟩, some ⟨rootfsName, 37, 37⟩]

def secondRootfs : Host :=
  emmcHost [some ⟨bootconfig, 34, 34⟩, some ⟨bootconfig1, 35, 35⟩, some ⟨hlosName, 36, 36⟩, some ⟨rootfsName1, 37, 37⟩]

lemma tarUploaded_parts (h : Host) (addr : h.uploadAddr = 0x4B000000) :
    h.imageParts 0x800 tarUploaded.world.ram = some ((0x4B000200, 4), (0x4B000600, 4)) := by
  simp only [Host.imageParts, addr, tarUploaded_type, tarUploaded_parsed, Option.map_some, tarParts]

theorem emmc_split_complete : complete.SplitExactly 0x800 tarUploaded.world.ram :=
  Host.emmc_split complete 0x800 _ (by decide) (.inr tarUploaded_type)

def squashedUpload (behind : UInt8) : State where
  world := { idle with
    ram := (Mem.write (fun _ => 0) 0x4B000000 (bytes "sysupgrade" ++ [1, 2, 3, 4] ++ bytes "hsqs" ++
      List.replicate 36 0 ++ toLe 8 1)).write 0x4B00020A [behind] }
  ubi := Sysupgrade.sampleUbi
  flashes := []

def squashedEmmc (behind : UInt8) : Mem :=
  ((complete.doFirmwareUpgrade 522 (squashedUpload behind).world.ram).run complete.answer
    ⟨squashedUpload behind, 0x4B000000, 522⟩).2.st.world.emmc

/-- `flash rootfs` is given one byte and writes a block, the end of which is not from the image. -/
theorem block_reads_behind :
    checkFwType (squashedUpload 0).world.ram 0x4B000000 = some .sysupgrade ∧
    (.line [.flash rootfsName 0x4B00000E 1]) ∈
      (complete.doFirmwareUpgrade 522 (squashedUpload 0).world.ram).asked complete.answer
        ⟨squashedUpload 0, 0x4B000000, 522⟩ ∧
    (squashedUpload 7).world.ram.read 0x4B000000 522 = (squashedUpload 0).world.ram.read 0x4B000000 522 ∧
    squashedEmmc 7 (37 * 512 + 508) = 7 ∧ squashedEmmc 0 (37 * 512 + 508) = 0 := by
  have outside : 0x4B000000 + 522 ≤ 0x4B00020A := by decide
  refine ⟨by decide +kernel, by decide +kernel, ?_, by decide +kernel, by decide +kernel⟩
  exact (Mem.read_write_disjoint _ (.inl outside)).trans (Mem.read_write_disjoint _ (.inl outside)).symm

theorem capacity_complete : complete.CapacityHolds .mmcFlash 0x800 tarUploaded.world.ram := by
  refine (Host.capacity_iff complete .mmcFlash 0x800 _ (by decide) (.inr tarUploaded_type)).mpr ?_
  intro kernel root parts _
  cases (tarUploaded_parts complete rfl).symm.trans parts
  decide +kernel

/-- The size of `rootfs_1` passes for that of `rootfs`, so `0:HLOS` is overwritten before `flash rootfs` fails. -/
theorem capacity_secondRootfs :
    secondRootfs.onEmmc = true ∧ checkFwType tarUploaded.world.ram 0x4B000000 = some .sysupgrade ∧
    ¬ secondRootfs.CapacityHolds .mmcFlash 0x800 tarUploaded.world.ram ∧
    let run := (secondRootfs.doFirmwareUpgrade 0x800 tarUploaded.world.ram).run secondRootfs.answer
      ⟨tarUploaded, 0x4B000000, 0x800⟩
    run.1 = false ∧ run.2.st.flashes = [(hlosName, true), (rootfsName, false)] ∧
      tarUploaded.world.emmc (36 * 512) = 0 ∧ run.2.st.world.emmc (36 * 512) = 1 := by
  refine ⟨by decide, tarUploaded_type, ?_, by decide +kernel, by decide +kernel, rfl, by decide +kernel⟩
  have splits : secondRootfs.Splits tarUploaded.world.ram := .inr tarUploaded_type
  rw [Host.CapacityHolds, Host.doFirmwareUpgrade_emmc secondRootfs (by decide), secondRootfs.asks_emmcUpgrade splits]
  intro words
  have second : .flash rootfsName 0x4B000600 4 ∈ secondRootfs.emmcWords (0x4B000200, 4) (0x4B000600, 4) := by
    simp [Host.emmcWords]
  have roomy := words _ _ (tarUploaded_parts secondRootfs rfl) ⟨by decide, by decide⟩ _ second _ _ _ rfl (.inr rfl)
  exact absurd ((Host.roomy_iff _ (by decide) (by decide)).mp roomy) (by decide)

end ResQBoot.Upgrade
