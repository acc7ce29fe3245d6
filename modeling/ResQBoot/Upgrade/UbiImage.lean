import ResQBoot.Flash.NandBounds
import ResQBoot.Upgrade.Firmware

/-!
# A UBI image on a NAND

The image is flashed to `rootfs`, `rootfs1`, `rootfs2` and `rootfs_1` by one command line that stops at the first failure.
Whether a name is in the table is not looked up before.
-/

namespace ResQBoot.Upgrade

open Flash

namespace Setup

variable (s : Setup)

def onNand : Bool :=
  s.currentFlashType = some .nandFlash || s.currentFlashType = some .qspiNandFlash ||
    s.currentFlashType = some .norPlusNand

def Present (name : Bytes) : Prop := s.board.smemFind name ≠ none

instance (name : Bytes) : Decidable (s.Present name) :=
  decidable_of_iff (s.board.smemFind name).isSome (by rw [Present, Option.isSome_iff_ne_none])

def flashed (size : Nat) (st : State) : List (Bytes × Bool) :=
  (s.doFirmwareUpgrade size st).2.flashes.drop st.flashes.length

/-- The names that the command line for a UBI image flashes. -/
def Wanted (name : Bytes) : Prop :=
  name = bytes "rootfs" ∨ name = bytes "rootfs1" ∨ name = bytes "rootfs2" ∨
    name = bytes "rootfs_1" ∧ s.backupAvail = true

structure UbiUpgraded (size : Nat) (st : State) : Prop where
  success : (s.doFirmwareUpgrade size st).1 = true
  every : ∀ name, s.Wanted name → s.Present name → (name, true) ∈ s.flashed size st

/-- Every name of the command line that the table does not have can be flashed all the same. -/
def AbsentWork (size : Nat) : List Bytes → State → Prop
  | [], _ => True
  | name :: t, st =>
    (¬ s.Present name → (s.flash name s.uploadAddr size st).1 = true) ∧
      AbsentWork size t (s.flash name s.uploadAddr size st).2

variable {s} {size : Nat} {st : State}

lemma mem_ubiNames {name : Bytes} : name ∈ s.ubiNames ↔ s.Wanted name := by
  rw [ubiNames, Wanted]
  cases s.backupAvail <;> simp

lemma doFirmwareUpgrade_nand (nand : s.onNand = true) : s.doFirmwareUpgrade size st = s.nandUpgrade size st := by
  simp only [onNand, Bool.or_eq_true, decide_eq_true_eq] at nand
  rw [doFirmwareUpgrade]
  rcases nand with (nand | nand) | nand <;> rw [nand]

lemma flash_flashes (name : Bytes) (addr : Nat) :
    (s.flash name addr size st).2.flashes = st.flashes ++ [(name, (s.flash name addr size st).1)] := rfl

/-- The command line for a list of names. -/
abbrev flashAll (s : Setup) (size : Nat) (names : List Bytes) : State → Bool × State :=
  chain (names.map fun name => s.flash name s.uploadAddr size)

lemma flashAll_cons (name : Bytes) (t : List Bytes) : s.flashAll size (name :: t) st =
    if (s.flash name s.uploadAddr size st).1 then s.flashAll size t (s.flash name s.uploadAddr size st).2
    else (false, (s.flash name s.uploadAddr size st).2) :=
  chain_cons _ _ st

lemma flashAll_true {names : List Bytes} (done : (s.flashAll size names st).1 = true) : s.AbsentWork size names st ∧
      (s.flashAll size names st).2.flashes = st.flashes ++ names.map fun name => (name, true) := by
  induction names generalizing st with
  | nil => exact ⟨trivial, by simp [flashAll, chain]⟩
  | cons name t ih =>
    rw [flashAll_cons] at done ⊢
    split at done
    · rename_i first
      obtain ⟨absent, flashes⟩ := ih done
      rw [if_pos first, flashes, flash_flashes, first]
      exact ⟨⟨fun _ => first, absent⟩, by simp⟩
    · cases done

lemma flashAll_of_works {names : List Bytes}
    (present : ∀ e ∈ (s.flashAll size names st).2.flashes.drop st.flashes.length, s.Present e.1 → e.2 = true)
    (absent : s.AbsentWork size names st) : (s.flashAll size names st).1 = true := by
  induction names generalizing st with
  | nil => rfl
  | cons name t ih =>
    rw [flashAll_cons] at present ⊢
    split at present
    · rename_i first
      rw [if_pos first]
      refine ih (fun e mem => present e ?_) absent.2
      rw [flash_flashes, List.length_append] at mem
      exact List.drop_subset_drop_left _ (Nat.le_add_right _ _) mem
    · rename_i failed
      -- the first name has failed, whether the table has it or not
      refine absurd ?_ failed
      by_cases here : s.Present name
      · exact present (name, _) (by rw [flash_flashes, List.drop_left]; exact List.mem_singleton_self _) here
      · exact absent.1 here

lemma flash_absent {name : Bytes} {addr : Nat} (boot : isNandFlash s.board.flashType = true)
    (plain : st.world.flashTypeNew = none) (absent : ¬ s.Present name) :
    (s.flash name addr size st).1 = true ↔ s.board.ubiVolPresent name = true ∧ s.io.ok st.world.log.length = true := by
  have missing : s.board.smemGetpart name = none := by
    rw [Board.smemGetpart, not_not.mp absent, Option.map_none]
  have target : resolveFlash s.board s.board.flashType name size =
      if s.board.ubiVolPresent name then .ubi else .exit := by
    cases type : s.board.flashType <;> rw [type] at boot <;> try cases boot
    all_goals rw [resolveFlash, resolveSmem, missing]
  have result : (s.flash name addr size st).1 = (flashResolved s.board s.io name addr size
      (if s.board.ubiVolPresent name then .ubi else .exit) st.world).1 := by
    change (doFlash s.board s.io name addr size st.world).1 = _
    rw [doFlash_eq, plain, Option.getD_none, target]
  rw [result]
  cases s.board.ubiVolPresent name with
  | false => simp [flashResolved]
  | true =>
    rw [if_pos rfl, flashResolved, runCommand_singleton, exec_ok]
    simp [effect]

/-- An upgrade whose partitions can be flashed succeeds, with all of them flashed, exactly if the names that
the table does not have succeed as well. On a NAND boot these are the names of UBI volumes that can be written. -/
theorem ubi_upgrade_iff (s : Setup) (size : Nat) (st : State) (nand : s.onNand = true)
    (type : checkFwType st.world.ram s.uploadAddr = some .ubi)
    (present : ∀ e ∈ s.flashed size st, s.Present e.1 → e.2 = true) :
    (s.UbiUpgraded size st ↔ s.AbsentWork size s.ubiNames st) ∧
    (isNandFlash s.board.flashType = true → ∀ name st', st'.world.flashTypeNew = none → ¬ s.Present name →
      ((s.flash name s.uploadAddr size st').1 = true ↔
        s.board.ubiVolPresent name = true ∧ s.io.ok st'.world.log.length = true)) := by
  refine ⟨?_, fun boot name st' plain absent => flash_absent boot plain absent⟩
  have run : s.doFirmwareUpgrade size st = s.flashAll size s.ubiNames st := by
    rw [doFirmwareUpgrade_nand nand, nandUpgrade, type, ubiImage]
  rw [flashed, run] at present
  constructor
  · intro upgraded
    have done := upgraded.success
    rw [run] at done
    exact (flashAll_true done).1
  · intro absent
    have done := flashAll_of_works present absent
    refine ⟨by rw [run]; exact done, fun name wanted _ => ?_⟩
    rw [flashed, run, (flashAll_true done).2, List.drop_left]
    exact List.mem_map_of_mem (mem_ubiNames.mpr wanted)

end Setup

def nandSetup (table : List Ptn) : Setup where
  board := { pairBoard (fun _ => false) with table := table }
  smemBoot := some .nandFlash
  uploadAddr := 0x4B000000
  backupAvail := false
  io := sound
  ubiIo := Sysupgrade.sampleIo
  ubiAttached := false
  source := fun w => (false, w)
  imxtract := fun _ _ => none

def ubiUploaded : State where
  world := { idle with ram := Mem.write (fun _ => 0) 0x4B000000 (bytes "UBI#") }
  ubi := ⟨0, [], 0, 0, 0, false⟩
  flashes := []

def threeRootfs : Setup :=
  nandSetup [.entry (bytes "rootfs") 1 1 0x0100ffff,
    .entry (bytes "rootfs1") 2 1 0x0100ffff,
    .entry (bytes "rootfs2") 3 1 0x0100ffff]

def oneRootfs : Setup :=
  nandSetup [.entry (bytes "rootfs") 1 1 0x0100ffff]

theorem ubi_upgrade_three : threeRootfs.UbiUpgraded 4 ubiUploaded :=
  (Setup.ubi_upgrade_iff threeRootfs 4 ubiUploaded (by decide) (by decide) (by decide)).1.mpr
    ⟨fun absent => absurd (by decide) absent, fun absent => absurd (by decide) absent,
      fun absent => absurd (by decide) absent, trivial⟩

/-- The rootfs is flashed, and `rootfs1`, which the table does not have, fails. -/
theorem ubi_upgrade_fails_after_rootfs :
    oneRootfs.Present (bytes "rootfs") ∧
    oneRootfs.flashed 4 ubiUploaded = [(bytes "rootfs", true), (bytes "rootfs1", false)] ∧
    ¬ oneRootfs.Present (bytes "rootfs1") ∧ ¬ oneRootfs.UbiUpgraded 4 ubiUploaded := by
  have fails : (oneRootfs.doFirmwareUpgrade 4 ubiUploaded).1 = false := by decide
  refine ⟨by decide, by decide, by decide, fun upgraded => ?_⟩
  rw [upgraded.success] at fails
  cases fails

end ResQBoot.Upgrade
