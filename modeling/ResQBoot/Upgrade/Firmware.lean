import ResQBoot.Flash.Write
import ResQBoot.Sysupgrade.Ubi
import ResQBoot.Upgrade.Image

/-!
# The firmware upgrade

`do_firmware_upgrade` of `httpd.c` with the lookups of `ipq_api.c`. Sizes are `u64` and are printed into commands as
`unsigned long`. The script of a QSDK or FIT image, the extraction of its parts and whether the UBI device can be attached
are choices of the `Setup`. Which `flash` commands are executed is recorded.
-/

namespace ResQBoot.Upgrade

open Flash

structure Setup where
  board : Board
  smemBoot : Option SmemBoot
  uploadAddr : Nat
  backupAvail : Bool
  io : Flash.Io
  ubiIo : Sysupgrade.Io
  ubiAttached : Bool
  source : World → Bool × World
  imxtract : Bytes → World → Option (Nat × Nat)

structure State where
  world : World
  ubi : Sysupgrade.Ubi
  flashes : List (Bytes × Bool)

namespace Setup

variable (s : Setup)

/-! ## Lookups -/

def combine : SmemBoot → SmemBoot
  | .spiFlash =>
    if s.board.getWhichFlashParam (bytes "rootfs") > 0 || s.board.secondaryNand then .norPlusNand
    else if s.board.rootfsUnset || s.board.secondary = .mmcFlash then .norPlusEmmc
    else .spiFlash
  | ft => ft

def currentFlashType : Option SmemBoot :=
  match s.smemBoot with
  | none => if s.board.flashType = .noFlash then none else some (s.combine s.board.flashType)
  | some .noFlash => some (s.combine s.board.flashType)
  | some ft => some (s.combine ft)

def asksGpt : Bool :=
  match s.currentFlashType with
  | none => false
  | some ft => ft = .mmcFlash || ft = .norPlusEmmc || s.board.rootfsUnset

def gptSizeBytes (name : Bytes) : Nat :=
  match s.board.emmc with
  | none => 0
  | some d => match d.getPartitionInfoEfiByName name with
    | none => 0
    | some info => info.size * d.blksz

def smemTableSizeBytes (name : Bytes) : Nat :=
  match s.board.getpartOffsetSize name with
  | none => if s.asksGpt then s.gptSizeBytes name else 0
  | some (_, size) => if size ≠ 0 then size else if s.asksGpt then s.gptSizeBytes name else 0

def smemTableOffset (name : Bytes) : Nat :=
  match s.board.getpartOffsetSize name with
  | none => 0
  | some (offset, _) => offset

def rootfsNames : List Bytes := [bytes "rootfs", bytes "rootfs1", bytes "rootfs2", bytes "rootfs_1"]

def firmwareSize : Nat :=
  match rootfsNames.find? fun name => 0 < s.smemTableSizeBytes name with
  | some name => s.smemTableSizeBytes name
  | none => s.smemTableSizeBytes (bytes "rootfs")

def rootfsSize : Nat :=
  let size := s.smemTableSizeBytes (bytes "rootfs")
  if size = 0 then s.firmwareSize else size

def norFirmwareCombinedSize : Nat := s.smemTableSizeBytes (bytes "0:HLOS") + s.rootfsSize

def norFirmwareStart : Nat := s.smemTableOffset (bytes "0:HLOS")

def firmwareUpgradeMaxSize : Nat :=
  match s.currentFlashType with
  | none => 0
  | some .mmcFlash => s.smemTableSizeBytes (bytes "0:HLOS") + s.rootfsSize
  | some .norPlusEmmc => s.smemTableSizeBytes (bytes "0:HLOS") + s.rootfsSize
  | some .norFlash => s.norFirmwareCombinedSize
  | some .spiFlash =>
    if s.board.getWhichFlashParam (bytes "rootfs") > 0 then s.firmwareSize else s.norFirmwareCombinedSize
  | some _ => s.firmwareSize

/-! ## Commands -/

def run (cs : List Cmd) (st : State) : Bool × State :=
  let (ok, w) := runCommand s.board s.io cs st.world
  (ok, { st with world := w })

def flash (name : Bytes) (addr size : Nat) (st : State) : Bool × State :=
  let (ok, w) := doFlash s.board s.io name addr size st.world
  (ok, { st with world := w, flashes := st.flashes ++ [(name, ok)] })

def flasherase (name : Bytes) (st : State) : Bool × State :=
  let (ok, w) := doFlasherase s.board s.io name st.world
  (ok, { st with world := w })

def script (st : State) : Bool × State :=
  match s.run [.sfProbe] st with
  | (false, st) => (false, st)
  | (true, st) =>
    let (ok, w) := s.source st.world
    (ok, { st with world := w })

def extractFlash (part name : Bytes) (st : State) : Bool × State :=
  match s.imxtract part st.world with
  | none => (false, st)
  | some (addr, size) => s.flash name addr size st

end Setup

def chain : List (State → Bool × State) → State → Bool × State
  | [], st => (true, st)
  | f :: t, st =>
    match f st with
    | (true, st) => chain t st
    | (false, st) => (false, st)

lemma chain_cons (f : State → Bool × State) (t : List (State → Bool × State)) (st : State) :
    chain (f :: t) st = if (f st).1 then chain t (f st).2 else (false, (f st).2) := by
  rw [chain]
  split <;> rename_i eq <;> simp [eq]

namespace Setup

variable (s : Setup)

def clearFlags (addr : Nat) (m : Mem) : Mem :=
  ((m.write (addr + 0x80) [0]).write (addr + 0x94) [0]).write (addr + 0xA8) [0]

def bootconfigSize : Nat := s.smemTableSizeBytes (bytes "0:BOOTCONFIG") % 2 ^ 32

def bootconfigOffsetBlocks : Nat := s.smemTableOffset (bytes "0:BOOTCONFIG") / 512

def bootconfigSizeBlocks : Nat := s.smemTableSizeBytes (bytes "0:BOOTCONFIG") / 512 % 2 ^ 32

def updateBootconfig (st : State) : Bool × State :=
  match s.run [.mmcRead s.uploadAddr s.bootconfigOffsetBlocks s.bootconfigSizeBlocks] st with
  | (false, st) => (false, st)
  | (true, st) =>
    let st := { st with world := { st.world with ram := clearFlags s.uploadAddr st.world.ram } }
    chain
      [s.flash (bytes "0:BOOTCONFIG") s.uploadAddr s.bootconfigSize,
        s.flash (bytes "0:BOOTCONFIG1") s.uploadAddr s.bootconfigSize] st

def flashParts (hlos rootfs : Bytes) (kernel root : Nat × Nat) : List (State → Bool × State) :=
  [s.flash hlos kernel.1 kernel.2, s.flash rootfs root.1 root.2]

def flashBackup (stops : Bool) (kernel root : Nat × Nat) (st : State) : State :=
  if s.backupAvail && kernel.2 ≤ s.smemTableSizeBytes (bytes "0:HLOS_1") &&
      root.2 ≤ s.smemTableSizeBytes (bytes "rootfs_1") then
    if stops then (chain (s.flashParts (bytes "0:HLOS_1") (bytes "rootfs_1") kernel root) st).2
    else (s.flash (bytes "rootfs_1") root.1 root.2 (s.flash (bytes "0:HLOS_1") kernel.1 kernel.2 st).2).2
  else st

def emmcParts (stops : Bool) (kernel root : Nat × Nat) (st : State) : Bool × State :=
  if s.smemTableSizeBytes (bytes "0:HLOS") = 0 ∨ s.rootfsSize = 0 then (false, st)
  else if s.smemTableSizeBytes (bytes "0:HLOS") < kernel.2 ∨ s.rootfsSize < root.2 then (false, st)
  else
    match chain (s.flashParts (bytes "0:HLOS") (bytes "rootfs") kernel root) st with
    | (false, st) => (false, st)
    | (true, st) => (true, s.flashBackup stops kernel root st)

def emmcImage (size : Nat) (st : State) : Bool × State :=
  match checkFwType st.world.ram s.uploadAddr with
  | some .fit =>
    let hlosSize := fwHlosSize st.world.ram s.uploadAddr
    if size ≤ hlosSize then (false, st)
    else s.emmcParts true (s.uploadAddr, hlosSize) (s.uploadAddr + hlosSize, size - hlosSize) st
  | some .sysupgrade =>
    match parseSysupgrade st.world.ram s.uploadAddr size with
    | none => (false, st)
    | some p => s.emmcParts false (p.kernelData, p.kernelSize) (p.rootfsData, p.rootfsSize) st
  | some .qsdk =>
    chain
      [s.extractFlash (bytes "hlos-0cc33b23252699d495d79a843032498bfa593aba") (bytes "0:HLOS"),
        s.extractFlash (bytes "rootfs-f3c50b484767661151cfb641e2622703e45020fe") (bytes "rootfs"),
        s.extractFlash (bytes "wififw-45b62ade000c18bfeeb23ae30e5a6811eac05e2f") (bytes "0:WIFIFW")] st
  | _ => (false, st)

def emmcUpgrade (size : Nat) (st : State) : Bool × State :=
  match s.emmcImage size st with
  | (false, st) => (false, st)
  | (true, st) => s.updateBootconfig (s.flasherase (bytes "rootfs_data") st).2

def ubiNames : List Bytes :=
  if s.backupAvail then [bytes "rootfs", bytes "rootfs1", bytes "rootfs2", bytes "rootfs_1"]
  else [bytes "rootfs", bytes "rootfs1", bytes "rootfs2"]

def ubiImage (size : Nat) : State → Bool × State :=
  chain (s.ubiNames.map fun name => s.flash name s.uploadAddr size)

def ubiVolumes (size : Nat) (st : State) : Bool × State :=
  match parseSysupgrade st.world.ram s.uploadAddr size with
  | none => (false, st)
  | some p =>
    if !s.ubiAttached then (false, st)
    else
      let kernel := st.world.ram.read p.kernelData p.kernelSize
      let rootfs := st.world.ram.read p.rootfsData p.rootfsSize
      match Sysupgrade.sysupgradeWriteUbiVolumes s.ubiIo st.ubi kernel rootfs s.backupAvail with
      | (.ok (), u) => (true, { st with ubi := u })
      | (.error _, u) => (false, { st with ubi := u })

def nandUpgrade (size : Nat) (st : State) : Bool × State :=
  match checkFwType st.world.ram s.uploadAddr with
  | some .ubi => s.ubiImage size st
  | some .fit => s.script st
  | some .sysupgrade => s.ubiVolumes size st
  | some .qsdk => s.script st
  | _ => (false, st)

def norCommands (size : Nat) : List Cmd :=
  [.sfProbe, .sfErase s.norFirmwareStart (s.norFirmwareCombinedSize % 2 ^ 32),
    .sfWrite s.uploadAddr s.norFirmwareStart size]

def norUpgrade (size : Nat) (st : State) : Bool × State :=
  match checkFwType st.world.ram s.uploadAddr with
  | some .fit => s.run (s.norCommands size) st
  | some .sysupgrade => s.run (s.norCommands size) st
  | some .qsdk => s.script st
  | _ => (false, st)

def spiNandUpgrade (size : Nat) (st : State) : Bool × State :=
  match checkFwType st.world.ram s.uploadAddr with
  | some .ubi => s.ubiImage size st
  | some .sysupgrade => s.ubiVolumes size st
  | some .qsdk => s.script st
  | _ => (false, st)

def doFirmwareUpgrade (size : Nat) (st : State) : Bool × State :=
  match s.currentFlashType with
  | some .mmcFlash => s.emmcUpgrade size st
  | some .norPlusEmmc => s.emmcUpgrade size st
  | some .nandFlash => s.nandUpgrade size st
  | some .qspiNandFlash => s.nandUpgrade size st
  | some .norPlusNand => s.nandUpgrade size st
  | some .norFlash => s.norUpgrade size st
  | some .spiFlash =>
    if s.board.getWhichFlashParam (bytes "rootfs") > 0 then s.spiNandUpgrade size st else s.norUpgrade size st
  | _ => (false, st)

def pureNor : Bool := s.currentFlashType = some .norFlash || s.currentFlashType = some .spiFlash

end Setup

end ResQBoot.Upgrade
