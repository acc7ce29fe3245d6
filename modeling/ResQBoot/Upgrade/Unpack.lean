import ResQBoot.Flash.Frame
import ResQBoot.Upgrade.Bootconfig
import ResQBoot.Upgrade.NorFrame
import ResQBoot.Upgrade.UbiImage

/-!
# Where a sysupgrade image goes

Volumes always hold the members. On an eMMC they are written, and they stay if the partitions that the same upgrade
writes afterwards lie elsewhere. On a NOR the image is written as it is, and nobody unpacks it.
-/

namespace ResQBoot.Upgrade

open Flash

def Parts.kernel (p : Parts) (m : Mem) : Bytes := m.read p.kernelData p.kernelSize
def Parts.rootfs (p : Parts) (m : Mem) : Bytes := m.read p.rootfsData p.rootfsSize

def hlosName : Bytes := bytes "0:HLOS"
def rootfsName : Bytes := bytes "rootfs"

namespace Setup

variable (s : Setup)

def Starts (name data : Bytes) (w : World) : Prop :=
  if s.pureNor then data <+: w.nor.read (norRange s.board name).1 ((norRange s.board name).2 - (norRange s.board name).1)
  else ∃ bs, contents s.board name w = some bs ∧ data <+: bs

variable {s} {p : Parts} {size : Nat} {st : State}

section Emmc

variable {name : Bytes} {addr n : Nat} {names : List Bytes} {w after : World}

variable (tables : TablesInside s.board)

include tables

section

variable (override : st.world.flashTypeNew = none)
include override

end

end Emmc

/-- The upgrade is that of an eMMC, alone or behind a NOR. -/
def onEmmc (s : Setup) : Bool := s.currentFlashType = some .mmcFlash || s.currentFlashType = some .norPlusEmmc

lemma doFirmwareUpgrade_emmc (emmc : s.onEmmc = true) (size : Nat) (st : State) :
    s.doFirmwareUpgrade size st = s.emmcUpgrade size st := by
  simp only [onEmmc, Bool.or_eq_true, decide_eq_true_eq] at emmc
  rw [doFirmwareUpgrade]
  rcases emmc with emmc | emmc <;> rw [emmc]

end Setup

def tarUploaded : State where
  world := { idle with
    ram :=
      let header (m : Mem) (a : Nat) (name : String) (data : Bytes) : Mem :=
        (((m.write a (bytes name)).write (a + 124) (bytes "00000000004")).write (a + 257) (bytes "ustar")).write
          (a + 512) data
      header (header (fun _ => 0) 0x4B000000 "sysupgrade-a/kernel" [1, 2, 3, 4]) 0x4B000400 "sysupgrade-a/root"
        [5, 6, 7, 8] }
  ubi := Sysupgrade.sampleUbi
  flashes := []

def tarParts : Parts := ⟨0x4B000200, 4, 0x4B000600, 4⟩

lemma tarUploaded_type : checkFwType tarUploaded.world.ram 0x4B000000 = some .sysupgrade := by decide

lemma tarUploaded_parsed : parseSysupgrade tarUploaded.world.ram 0x4B000000 0x800 = some tarParts := by
  decide

end ResQBoot.Upgrade
