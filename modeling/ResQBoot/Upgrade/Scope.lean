import ResQBoot.Upgrade.Capacity

/-!
# What an upgrade may write

The partitions that belong to each type of upload, and the commands whose failure an upgrade passes over. Both are read
off one walk through the dialogs (`careful_upgrade`).
-/

namespace ResQBoot.Upgrade

open Flash
open Failsafe (UpgradeType)

/-- The partitions that an upload of the type is for. -/
@[simp]
def partitions : UpgradeType → List Bytes
  | .firmware => [bytes "0:HLOS", bytes "rootfs", bytes "0:WIFIFW", bytes "0:HLOS_1", bytes "rootfs_1", bytes "rootfs1",
    bytes "rootfs2", bytes "rootfs_data", bytes "0:BOOTCONFIG", bytes "0:BOOTCONFIG1"]
  | .uboot => [bytes "0:APPSBL", bytes "0:APPSBL_1"]
  | .art => [bytes "0:ART"]
  | .img => [bytes "0:GPT", bytes "0:GPTBACKUP"]
  | .cdt => [bytes "0:CDT", bytes "0:CDT_1"]
  | .mibib => [bytes "0:MIBIB"]
  | .ptable => [bytes "0:GPT", bytes "0:GPTBACKUP", bytes "0:MIBIB"]
  | .initramfs => []

/-- The firmware range of a NOR, for an upload that has passed the check of its size. -/
structure Host.InNorFirmware (h : Host) (size off len : Nat) : Prop where
  start : off = h.norFirmwareStart
  room : size ≤ h.firmwareUpgradeMaxSize → len ≤ h.norFirmwareCombinedSize

/-- The command may be issued for an upload of the type. -/
@[simp]
def Word.May (h : Host) (size : Nat) (type : UpgradeType) : Word → Prop
  | flash name _ _ | flashFile name | flasherase name => name ∈ partitions type
  | sfErase off len | sfWrite _ off len => type = .firmware ∧ h.InNorFirmware size off len ∨ type = .img
  | mmcErase _ _ | mmcWrite _ _ _ | nandEraseChip | nandWrite _ _ | nandWriteRaw _ _ => type = .img
  | ubiRemove name | ubiCreate name _ | ubiWrite _ name _ => type = .firmware ∧ name ∈ Sysupgrade.systemVolumes
  | source _ | imxtract _ _ => type = .firmware
  | mibibReload _ _ _ _ => type = .mibib ∨ type = .ptable
  | bootm _ => type = .initramfs
  | _ => True

@[simp]
def Query.May (h : Host) (size : Nat) (type : UpgradeType) : Query → Prop
  | line words => ∀ w ∈ words, w.May h size type
  | readBack name addr _ size' => name ∈ partitions type ∧ addr = h.uploadAddr ∧ size' = size
  | canReplace name _ => type = .firmware ∧ name ∈ Sysupgrade.systemVolumes

/-- The upgrade goes on after a failure of the command. -/
@[simp]
def Word.Optional : Word → Prop
  | flash name _ _ => name = bytes "0:HLOS_1" ∨ name = bytes "rootfs_1"
  | flasherase name => name = bytes "rootfs_data"
  | mwByte _ | ubiRemove _ => True
  | ubiCreate name _ | ubiWrite _ name _ => name = "kernel_1" ∨ name = "rootfs_1" ∨ name = "rootfs_data"
  | _ => False

/-- A failed `flash 0:MIBIB` is tried again with a new table, and a SPI-NAND without UBI gives way to the first NAND. -/
def Query.Optional (h : Host) : Query → Prop
  | line words => (∀ w ∈ words, w.Optional) ∨
    (∃ place, words = h.spiNandWords place) ∨
    h.reloadsMibib = true ∧ words = [.flashFile (bytes "0:MIBIB")]
  | readBack _ _ _ _ => False
  | canReplace name _ => name = "kernel_1" ∨ name = "rootfs_1"

section Steps

variable {P T : Query → Prop} {d rest fails : Talk} {words : List Word} {q : Query}

lemma careful_execute (may : P (.line words)) : (execute words).Careful P T := ⟨may, fun _ => trivial, .inr rfl⟩

lemma careful_attempt (may : P q) (next : rest.Careful P T) : (attempt q rest).Careful P T := by
  refine ⟨may, fun ok => ?_, .inr rfl⟩
  cases ok with
  | false => trivial
  | true => exact next

lemma careful_regardless (may : P q) (optional : T q) (next : rest.Careful P T) : (regardless q rest).Careful P T :=
  ⟨may, fun _ => next, .inl optional⟩

lemma careful_bind (first : d.Careful P T) (next : rest.Careful P T) (failed : fails.Careful P T) (no : fails.Fails) :
    (d.bind fun ok => if ok then rest else fails).Careful P T := by
  refine first.bind (fun ok => ?_) no
  cases ok with
  | false => exact failed
  | true => exact next

end Steps

namespace Host

variable (h : Host) {size : Nat} {m : Mem} {type : UpgradeType}

abbrev Careful (size : Nat) (type : UpgradeType) (d : Talk) : Prop :=
  Dialog.Careful (Query.May h size type) (Query.Optional h) d

lemma careful_emmc : h.Careful size .firmware (h.emmcUpgrade size m) := by
  have backup (oneLine : Bool) (kernel root : Nat × Nat) :
      h.Careful size .firmware (h.flashBackup oneLine kernel root (.done true)) := by
    rw [flashBackup]
    split
    · cases oneLine with
      | false =>
        refine careful_regardless ?_ (.inl ?_) (careful_regardless ?_ (.inl ?_) trivial) <;>
          simp [partWords]
      | true =>
        refine careful_regardless ?_ (.inl ?_) trivial <;>
          simp [partWords]
    · trivial
  have parts (oneLine : Bool) (kernel root : Nat × Nat) :
      h.Careful size .firmware (h.emmcParts oneLine kernel root) := by
    rw [emmcParts]
    split
    · trivial
    split
    · trivial
    · cases oneLine with
      | false =>
        refine careful_attempt ?_ (careful_attempt ?_ (backup _ _ _)) <;>
          simp [partWords]
      | true =>
        refine careful_attempt ?_ (backup _ _ _)
        simp [partWords]
  refine careful_bind ?_ ?_ trivial rfl
  · rw [emmcImage]
    split
    · dsimp only
      split
      · trivial
      · exact parts _ _ _
    · split
      · trivial
      · exact parts _ _ _
    · refine careful_execute ?_
      simp
    · trivial
  · refine careful_regardless ?_ (.inl ?_) (careful_attempt ?_ (careful_regardless ?_ (.inl ?_) (careful_execute ?_))) <;>
      simp

lemma careful_ubiVolumes : h.Careful size .firmware (h.ubiVolumes size m) := by
  have mtd (dev : Int) (place : Nat × Nat) (rest : Bytes) : ∀ w ∈ mtdWords dev place rest, w.May h size .firmware := by
    simp [mtdWords]
  have init : h.Careful size .firmware h.sysupgradeUbiInit := by
    rw [sysupgradeUbiInit]
    split
    · trivial
    dsimp only
    split
    · exact careful_execute (mtd _ _ _)
    · refine ⟨?_, fun ok => ?_, .inl (.inr (.inl ⟨_, rfl⟩))⟩
      · simp [spiNandWords, mtdWords]
      · cases ok with
        | false => exact careful_execute (mtd _ _ _)
        | true => trivial
  have volume {name : String} (known : name ∈ Sysupgrade.systemVolumes) (part : Nat × Nat) :
      h.Careful size .firmware (ubiWriteVolume name part) := by
    refine ⟨⟨rfl, known⟩, fun ok => ?_, .inr rfl⟩
    cases ok with
    | false => trivial
    | true =>
      refine careful_regardless ?_ (.inl ?_) (careful_execute ?_) <;> simp [known]
  have spare {name : String} (known : name = "kernel_1" ∨ name = "rootfs_1") (part : Nat × Nat) :
      (ubiWriteVolume name part).Asks fun q => q.May h size .firmware ∧ q.Optional h := by
    have system : name ∈ Sysupgrade.systemVolumes := by
      rcases known with rfl | rfl <;> decide
    refine ⟨⟨⟨rfl, system⟩, known⟩, fun ok => ?_⟩
    cases ok with
    | false => trivial
    | true =>
      refine ⟨⟨?_, .inl ?_⟩, fun _ => ⟨⟨?_, .inl ?_⟩, fun _ => trivial⟩⟩
      all_goals simp [system]
      rcases known with rfl | rfl <;> simp
  have restore (result : Bool) : h.Careful size .firmware (restoreConfig result) := by
    refine careful_regardless ?_ (.inl ?_) trivial <;>
      simp [Sysupgrade.systemVolumes]
  rw [ubiVolumes]
  split
  · trivial
  refine careful_bind init (careful_attempt ?_ (careful_regardless ?_ (.inl ?_) ?_)) trivial rfl
  · simp
  · simp [Sysupgrade.systemVolumes]
  · simp
  have no : (restoreConfig false).Fails := fun _ => rfl
  refine careful_bind (volume (by decide) _) (careful_bind (volume (by decide) _) ?_ (restore _) no) (restore _) no
  split
  · exact .after (spare (.inl rfl) _) fun _ => .after (spare (.inr rfl) _) fun _ => restore _
  · exact restore _

lemma careful_firmware : h.Careful size .firmware (h.doFirmwareUpgrade size m) := by
  have script : h.Careful size .firmware h.script := careful_execute (by simp)
  have image (fits : h.firmwareUpgradeMaxSize = h.norFirmwareCombinedSize) :
      h.Careful size .firmware (h.norImage size) := by
    have erase : h.InNorFirmware size h.norFirmwareStart (h.norFirmwareCombinedSize % 2 ^ 32) :=
      ⟨rfl, fun _ => Nat.mod_le _ _⟩
    have write : h.InNorFirmware size h.norFirmwareStart size := ⟨rfl, fun small => fits ▸ small⟩
    refine careful_execute fun w mem => ?_
    rcases List.mem_cons.mp mem with rfl | mem
    · trivial
    rcases List.mem_cons.mp mem with rfl | mem
    · exact .inl ⟨rfl, erase⟩
    · obtain rfl := List.mem_singleton.mp mem
      exact .inl ⟨rfl, write⟩
  have ubi : h.Careful size .firmware h.ubiImage := by
    refine careful_execute ?_
    rw [Setup.ubiNames]
    split <;> simp
  have nor (fits : h.firmwareUpgradeMaxSize = h.norFirmwareCombinedSize) :
      h.Careful size .firmware (h.norUpgrade size m) := by
    rw [norUpgrade]
    split <;> first | exact image fits | exact script | trivial
  have nand : h.Careful size .firmware (h.nandUpgrade size m) := by
    rw [nandUpgrade]
    split <;> first | exact ubi | exact script | exact h.careful_ubiVolumes | trivial
  have spiNand : h.Careful size .firmware (h.spiNandUpgrade size m) := by
    rw [spiNandUpgrade]
    split <;> first | exact ubi | exact script | exact h.careful_ubiVolumes | trivial
  rw [doFirmwareUpgrade]
  split
  case h_1 | h_2 => exact h.careful_emmc
  case h_3 | h_4 | h_5 => exact nand
  case h_6 kind => exact nor (by rw [Setup.firmwareUpgradeMaxSize, kind])
  case h_7 kind =>
    split
    · exact spiNand
    · rename_i unflagged
      refine nor ?_
      rw [Setup.firmwareUpgradeMaxSize, kind]
      exact if_neg unflagged
  case h_8 => trivial

lemma careful_uboot : h.Careful size .uboot (h.doUbootUpgrade size m) := by
  have verified {name : Bytes} (known : name ∈ partitions .uboot) {rest : Talk} (next : h.Careful size .uboot rest) :
      h.Careful size .uboot (h.flashUboot name size rest) := by
    refine careful_attempt (by simpa using known) ?_
    rw [verifyFlashedImage]
    split
    · trivial
    · exact careful_attempt ⟨known, rfl, rfl⟩ next
  have uboot : h.Careful size .uboot (h.flashUboot (bytes "0:APPSBL") size
      (if h.backupAvail then h.flashUboot (bytes "0:APPSBL_1") size (.done true) else .done true)) := by
    refine verified (by simp) ?_
    split
    · exact verified (by simp) trivial
    · trivial
  rw [doUbootUpgrade]
  split
  · trivial
  split
  · trivial
  dsimp only
  split
  · exact careful_attempt (by simp [prepareEmmc]) uboot
  · split
    · exact uboot
    · trivial

lemma careful_flashNames (ft : SmemBoot) {names : List Bytes} (known : ∀ name ∈ names, name ∈ partitions type) :
    h.Careful size type (h.flashNames ft size names) := by
  rw [flashNames]
  split
  · exact careful_execute (by simpa [prepareEmmc] using known)
  · split
    · exact careful_execute (by simpa using known)
    · trivial

lemma careful_gpt (table : type = .img ∨ type = .ptable) : h.Careful size type (h.doGptUpgrade size m) := by
  rw [doGptUpgrade]
  repeat' split
  all_goals first | trivial | refine careful_execute ?_
  all_goals rcases table with rfl | rfl <;> simp

lemma careful_mibib (table : type = .mibib ∨ type = .ptable) : h.Careful size type (h.doMibibUpgrade m) := by
  have flash : Query.May h size type (.line [.flashFile (bytes "0:MIBIB")]) := by
    rcases table with rfl | rfl <;> simp
  have reload (ft : SmemBoot) {rest : Talk} (next : h.Careful size type rest) :
      h.Careful size type (h.doMibibReloadPartition ft rest) := by
    simp only [doMibibReloadPartition]
    repeat' split
    all_goals first | exact careful_attempt (by simpa using table) next | trivial
  rw [doMibibUpgrade]
  split
  · trivial
  split
  · trivial
  split
  · refine ⟨flash, fun ok => ?_, ?_⟩
    · cases ok with
      | true => trivial
      | false =>
        simp only [Bool.false_eq_true, if_false]
        split
        · exact reload _ (careful_execute flash)
        · trivial
    · by_cases again : h.reloadsMibib = true
      · exact .inl (.inr (.inr ⟨again, rfl⟩))
      · simp only [Bool.false_eq_true, if_false, if_neg again]
        exact .inr rfl
  · trivial

lemma careful_upgrade (type : UpgradeType) : h.Careful size type (h.doHttpUpgrade size type m) := by
  cases type <;> simp only [doHttpUpgrade]
  case firmware => exact h.careful_firmware
  case uboot => exact h.careful_uboot
  case art =>
    rw [doArtUpgrade]
    repeat' split
    all_goals first | exact h.careful_flashNames _ (by simp) | trivial
  case img =>
    have emmc (n : Nat) : h.Careful size .img (execute [.mmcDev, .mmcErase 0 n, .mmcWrite h.uploadAddr 0 n]) :=
      careful_execute (by simp)
    simp only [doImgUpgrade]
    repeat' split
    all_goals first | exact emmc _ | exact careful_execute (by simp) | exact h.careful_gpt (.inl rfl) | trivial
  case cdt =>
    rw [doCdtUpgrade]
    repeat' split
    all_goals first | exact h.careful_flashNames _ (by simp) | trivial
  case mibib => exact h.careful_mibib (.inl rfl)
  case ptable =>
    rw [doPtableUpgrade]
    split
    · exact h.careful_gpt (.inr rfl)
    · exact h.careful_mibib (.inr rfl)
    · trivial
  case initramfs =>
    rw [doInitramfsBoot]
    split
    · trivial
    · exact careful_execute (by simp)

end Host

/-- Whatever was uploaded and whatever the commands answer, an upgrade of a type writes to no partition, volume, chip or
range of the NOR that does not belong to the type. -/
theorem upgrade_scope (h : Host) (size : Nat) (type : UpgradeType) (m : Mem) {σ : Type} (answer : Query → σ → Bool × σ)
    (e : σ) (q : Query) (asked : q ∈ (h.doHttpUpgrade size type m).asked answer e) : q.May h size type :=
  Dialog.of_mem_asked ((h.careful_upgrade type).asks fun _ may => may) asked

def eraseConfig : Query := .line [.flasherase (bytes "rootfs_data")]

def keepsConfig (q : Query) (_ : Unit) : Bool × Unit := (q ≠ eraseConfig, ())

theorem upgrade_scope_tar : eraseConfig.May complete 0x800 .firmware :=
  upgrade_scope complete 0x800 .firmware tarUploaded.world.ram keepsConfig () eraseConfig (by decide)

/-- An upgrade that reports success was refused nothing that it needs. -/
theorem upgrade_needs (h : Host) (size : Nat) (type : UpgradeType) (m : Mem) {σ : Type} (answer : Query → σ → Bool × σ)
    (e : σ) (done : ((h.doHttpUpgrade size type m).run answer e).1 = true) (q : Query)
    (refused : q ∈ (h.doHttpUpgrade size type m).refused answer e) : q.Optional h :=
  (h.careful_upgrade type).refused done refused

/-- The old configuration is still there, and the upgrade succeeds. -/
theorem upgrade_needs_tar : ((complete.doHttpUpgrade 0x800 .firmware tarUploaded.world.ram).run keepsConfig ()).1 = true ∧
    eraseConfig.Optional complete := by
  have done : ((complete.doHttpUpgrade 0x800 .firmware tarUploaded.world.ram).run keepsConfig ()).1 = true := by
    decide
  exact ⟨done, upgrade_needs complete 0x800 .firmware _ keepsConfig () done eraseConfig (by decide)⟩

end ResQBoot.Upgrade
