import ResQBoot.Flash.Burn
import ResQBoot.Upgrade.Firmware

/-!
# The boot configuration

`update_bootconfig` reads `0:BOOTCONFIG` from the eMMC, at the offset that SMEM has for the name, while `flash` resolves
the names by the tables of the board.
-/

namespace ResQBoot.Upgrade

open Flash

def Flag (i : Nat) : Prop := i = 0x80 ∨ i = 0x94 ∨ i = 0xA8

instance (i : Nat) : Decidable (Flag i) := inferInstanceAs (Decidable (_ ∨ _ ∨ _))

def cleared (bs : Bytes) : Bytes := bs.mapIdx fun i x => if Flag i then 0 else x

def contents (b : Board) (name : Bytes) (w : World) : Option Bytes :=
  (assigned b name).map fun r => (w.cells r.1).read (r.2.1 * r.1.unit b) ((r.2.2 - r.2.1) * r.1.unit b)

def bootconfig : Bytes := bytes "0:BOOTCONFIG"
def bootconfig1 : Bytes := bytes "0:BOOTCONFIG1"

lemma write_byte (m : Mem) (a : Nat) (v : UInt8) (x : Nat) : m.write a [v] x = if x = a then v else m x := by
  by_cases here : x = a
  · simp [Mem.write, here]
  · rw [if_neg here, Mem.write_outside]
    simp only [List.length_singleton]
    omega

namespace Setup

variable (s : Setup)

def edited (d : BlockDev) (w : World) : World :=
  { w with
    ram := clearFlags s.uploadAddr (w.ram.write s.uploadAddr
      (w.emmc.read (s.bootconfigOffsetBlocks * d.blksz) (s.bootconfigSizeBlocks * d.blksz)))
    log := w.log ++ [.mmcRead s.uploadAddr s.bootconfigOffsetBlocks s.bootconfigSizeBlocks] }

def editedByte (d : BlockDev) (w : World) (i : Nat) : UInt8 :=
  if Flag i then 0
  else if i < s.bootconfigSizeBlocks * d.blksz then w.emmc (s.bootconfigOffsetBlocks * d.blksz + i)
  else w.ram (s.uploadAddr + i)

variable {s} {st : State} {d : BlockDev}

lemma edited_byte (w : World) (i : Nat) : (s.edited d w).ram (s.uploadAddr + i) = s.editedByte d w i := by
  simp only [edited, editedByte, clearFlags, write_byte, Nat.add_left_cancel_iff]
  by_cases flag : Flag i
  · rw [if_pos flag]
    rcases flag with rfl | rfl | rfl <;> rfl
  rw [if_neg flag]
  simp only [Flag, not_or] at flag
  rw [if_neg flag.2.2, if_neg flag.2.1, if_neg flag.1]
  split
  · rename_i lt
    have inside : s.uploadAddr ≤ s.uploadAddr + i ∧ s.uploadAddr + i < s.uploadAddr +
        (w.emmc.read (s.bootconfigOffsetBlocks * d.blksz) (s.bootconfigSizeBlocks * d.blksz)).length := by
      rw [Mem.length_read]
      omega
    rw [Mem.write, if_pos inside, Nat.add_sub_cancel_left, Mem.getD_read _ _ lt]
  · rename_i out
    refine Mem.write_outside (.inr ?_)
    rw [Mem.length_read]
    omega

lemma edited_cells (w : World) (dev : Device) : (s.edited d w).cells dev = w.cells dev := by
  cases dev <;> rfl

lemma unmarked {b : Board} {name : Bytes} {n : Nat} (plain : NotGpt name)
    (other : name ≠ bytes "rootfs") (t : Target) (target : resolveFlash b b.flashType name n = .target t) :
    ¬ t.Marks b n :=
  fun marks => other ((resolves_of_target plain target).marked marks.1).1

structure Ran (s : Setup) (d : BlockDev) (w between after : World) (dev : Device) (lo hi part : Nat) (dev' : Device)
    (lo' hi' part' : Nat) : Prop where
  disk : s.board.emmc = some d
  first : Burns s.board bootconfig s.uploadAddr s.bootconfigSize dev lo hi part (s.edited d w) between
  second : Burns s.board bootconfig1 s.uploadAddr s.bootconfigSize dev' lo' hi' part' between after

section Bytes

variable {w between after : World} {dev dev' : Device} {lo hi part lo' hi' part' i : Nat}

lemma Ran.second_byte (ran : Ran s d w between after dev lo hi part dev' lo' hi' part')
    (inside : i < part' * dev'.unit s.board) :
    after.cells dev' (lo' * dev'.unit s.board + i) =
      if i < roundUp s.bootconfigSize (dev'.unit s.board) then s.editedByte d w i else dev'.blank := by
  rw [ran.second.at inside, ran.first.ram, edited_byte]

end Bytes

def hot (dev : Device) (x : Nat) (w : World) : World :=
  World.setCells { w with ram := fun _ => 0, nand := fun _ => 0, emmc := fun _ => 0, nor := fun _ => 0 }
    (fun y => if y = x then 0x55 else 0) dev

section Hot

variable {dev dev' : Device} {x y : Nat} {w : World}

lemma hot_elsewhere (other : dev' ≠ dev ∨ y ≠ x) : (hot dev x w).cells dev' y = 0 := by
  rw [hot]
  by_cases same : dev' = dev
  · rw [same, cells_setCells, if_neg (other.resolve_left (not_not.mpr same))]
  · rw [cells_setCells_other _ _ same]
    cases dev' <;> rfl

lemma hot_ram : (hot dev x w).ram y = 0 := by cases dev <;> rfl

end Hot

lemma editedByte_hot {dev : Device} {x i : Nat} {w : World} (lit : s.editedByte d (hot dev x w) i = 0x55) :
    ¬ Flag i ∧ i < s.bootconfigSizeBlocks * d.blksz ∧ dev = .emmc ∧ s.bootconfigOffsetBlocks * d.blksz + i = x := by
  rw [editedByte] at lit
  split at lit
  · cases lit
  rename_i plain
  split at lit
  · rename_i lt
    refine ⟨plain, lt, ?_⟩
    by_contra other
    have dark : (hot dev x w).cells .emmc (s.bootconfigOffsetBlocks * d.blksz + i) = 0 := by
      refine hot_elsewhere ?_
      rw [not_and_or] at other
      exact other.imp Ne.symm id
    rw [show (hot dev x w).emmc = (hot dev x w).cells .emmc from rfl, dark] at lit
    cases lit
  · rw [hot_ram] at lit
    cases lit

section Necessary

variable {dev dev' : Device} {lo hi lo' hi' : Nat}

structure HotRun (s : Setup) (d : BlockDev) (w : World) (dev : Device) (lo hi : Nat) (dev' : Device) (lo' hi' : Nat)
    (dx : Device) (x : Nat) (between after : World) (part part' : Nat) : Prop where
  ran : Ran s d (hot dx x w) between after dev lo hi part dev' lo' hi' part'
  first : ∀ i < (hi - lo) * dev.unit s.board, after.cells dev (lo * dev.unit s.board + i) =
    if Flag i then 0 else (hot dx x w).cells dev (lo * dev.unit s.board + i)
  room : (hi - lo) * dev.unit s.board ≤ (hi' - lo') * dev'.unit s.board
  second : ∀ i < (hi - lo) * dev.unit s.board, after.cells dev' (lo' * dev'.unit s.board + i) =
    if Flag i then 0 else (hot dx x w).cells dev (lo * dev.unit s.board + i)

variable {dx : Device} {x i : Nat} {w between after : World} {part part' : Nat}

lemma HotRun.lit (hotRun : HotRun s d w dev lo hi dev' lo' hi' dx x between after part part')
    (inside : i < part' * dev'.unit s.board) (lit : after.cells dev' (lo' * dev'.unit s.board + i) = 0x55) :
    i < roundUp s.bootconfigSize (dev'.unit s.board) ∧ ¬ Flag i ∧ i < s.bootconfigSizeBlocks * d.blksz ∧
      dx = .emmc ∧ s.bootconfigOffsetBlocks * d.blksz + i = x := by
  rw [hotRun.ran.second_byte inside] at lit
  split at lit
  · rename_i lt
    exact ⟨lt, editedByte_hot lit⟩
  · cases dev' <;> cases lit

lemma HotRun.beyond (onEmmc : dev = .emmc) (hotRun : HotRun s d w dev lo hi dev' lo' hi' dx x between after part part')
    (lt : i < (hi - lo) * dev.unit s.board) (out : ¬ i < part' * dev'.unit s.board) :
    dev' = .nor ∧ after.cells dev' (lo' * dev'.unit s.board + i) =
      (hot dx x w).cells dev' (lo' * dev'.unit s.board + i) := by
  have ran := hotRun.ran
  have room := hotRun.room
  have nor : dev' = .nor := by
    cases dev' with
    | nand => exact absurd rfl ran.second.notNand
    | emmc =>
      have whole := ran.second.whole rfl
      rw [show part' = hi' - lo' by omega] at out
      omega
    | nor => rfl
  refine ⟨nor, ?_⟩
  rw [ran.second.outside (.inr (by rw [Nat.add_mul]; omega)), ran.first.others dev' (by rw [nor, onEmmc]; decide),
    edited_cells]

section Each

variable (runs : ∀ dx x, ∃ between after part part',
  HotRun s d w dev lo hi dev' lo' hi' dx x between after part part')

include runs

variable (onEmmc : dev = .emmc)

include onEmmc

end Each

end Necessary

end Setup

def emmcSetup (table : List Ptn) : Setup where
  board :=
    { ipq806x := false
      cleanMarker := false
      flashType := .mmcFlash
      secondary := .noFlash
      blockSize := 512
      rootfsUnset := false
      activeRootfs := 0
      table := table
      ubiVolPresent := fun _ => false
      nand := none
      norSize := 2 ^ 20
      norSector := 2 ^ 16
      emmc := some ⟨⟨512, 64, Gpt.sector_dvd, by decide⟩, [some ⟨bootconfig, 34, 34⟩, some ⟨bootconfig1, 35, 35⟩]⟩
      blockSize_lt := by decide
      norSize_lt := by decide
      norBoot := fun boot => by cases boot }
  smemBoot := some .mmcFlash
  uploadAddr := 0x4B000000
  backupAvail := false
  io := sound
  ubiIo := Sysupgrade.sampleIo
  ubiAttached := false
  source := fun w => (false, w)
  imxtract := fun _ _ => none

def onlyGpt : Setup := emmcSetup []

end ResQBoot.Upgrade
