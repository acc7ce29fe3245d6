import ResQBoot.Lib.Dialog
import ResQBoot.Failsafe.Types
import ResQBoot.Flash.Raw
import ResQBoot.Upgrade.Firmware

/-!
# The commands of an upgrade

`do_http_upgrade` of `httpd.c` as a `Dialog` with the command interpreter. It is made from RAM as it is when the upgrade
begins (`m`), since every decision except `memcmp` of `verify_flashed_image` is taken before the first command. Addresses
and sizes are numbers here, and `Word.text` prints them.
-/

namespace ResQBoot.Upgrade

open Flash
open Failsafe (UpgradeType ImgFlash)

inductive Word where
  | flash (name : Bytes) (addr size : Nat)
  | flashFile (name : Bytes)
  | flasherase (name : Bytes)
  | flashread (name : Bytes) (addr size : Nat)
  | imxtract (addr : Nat) (part : Bytes)
  | source (addr : Nat)
  | mw (addr : Nat)
  | mwByte (addr : Nat)
  | mmcDev
  | mmcRead (addr start cnt : Nat)
  | mmcErase (start cnt : Nat)
  | mmcWrite (addr start cnt : Nat)
  | sfProbe
  | sfErase (off len : Nat)
  | sfWrite (addr off len : Nat)
  | nandDevice (dev : Int)
  | nandEraseChip
  | nandWrite (addr size : Nat)
  | nandWriteRaw (addr pages : Nat)
  | setenv (name value : Bytes)
  | ubiPart
  | ubiRemove (name : String)
  | ubiCreate (name : String) (size : Option Nat)
  | ubiWrite (addr : Nat) (name : String) (size : Nat)
  | mibibReload (nor : Bool) (pageSize blockSize density : Nat)
  | bootm (addr : Nat)
  | nothing
  deriving DecidableEq, Repr

def hexArg (n : Nat) : Bytes := bytes " 0x" ++ hexadecimal n

def signed : Int → Bytes
  | .ofNat n => decimal n
  | .negSucc n => bytes "-" ++ decimal (n + 1)

def Word.text : Word → Bytes
  | flash name addr size => bytes "flash " ++ name ++ hexArg addr ++ hexArg size
  | flashFile name => bytes "flash " ++ name
  | flasherase name => bytes "flasherase " ++ name
  | flashread name addr size => bytes "flashread " ++ name ++ hexArg addr ++ hexArg size
  | imxtract addr part => bytes "imxtract" ++ hexArg addr ++ bytes " " ++ part
  | source addr => bytes "source" ++ hexArg addr ++ bytes ":script"
  | mw addr => bytes "mw" ++ hexArg addr ++ bytes " 0x00 0x200"
  | mwByte addr => bytes "mw.b" ++ hexArg addr ++ bytes " 0x00 0x1"
  | mmcDev => bytes "mmc dev 0"
  | mmcRead addr start cnt => bytes "mmc read" ++ hexArg addr ++ hexArg start ++ hexArg cnt
  | mmcErase start cnt => bytes "mmc erase" ++ hexArg start ++ hexArg cnt
  | mmcWrite addr start cnt => bytes "mmc write" ++ hexArg addr ++ hexArg start ++ hexArg cnt
  | sfProbe => bytes "sf probe"
  | sfErase off len => bytes "sf erase" ++ hexArg off ++ hexArg len
  | sfWrite addr off len => bytes "sf write" ++ hexArg addr ++ hexArg off ++ hexArg len
  | nandDevice dev => bytes "nand device " ++ signed dev
  | nandEraseChip => bytes "nand erase.chip"
  | nandWrite addr size => bytes "nand write" ++ hexArg addr ++ bytes " 0x0" ++ hexArg size
  | nandWriteRaw addr pages => bytes "nand write.raw" ++ hexArg addr ++ bytes " 0x0 " ++ hexadecimal pages
  | setenv name value => bytes "setenv " ++ name ++ bytes " " ++ value
  | ubiPart => bytes "ubi part fs"
  | ubiRemove name => bytes "ubi remove " ++ bytes name
  | ubiCreate name none => bytes "ubi create " ++ bytes name
  | ubiCreate name (some size) => bytes "ubi create " ++ bytes name ++ hexArg size
  | ubiWrite addr name size => bytes "ubi write" ++ hexArg addr ++ bytes " " ++ bytes name ++ hexArg size
  | mibibReload nor pageSize blockSize density =>
    bytes "mibib_reload" ++ hexArg nor.toNat ++ hexArg pageSize ++ hexArg blockSize ++ hexArg density
  | bootm addr => bytes "bootm" ++ hexArg addr
  | nothing => []

def lineText (line : List Word) : Bytes := (bytes " && ").intercalate (line.map Word.text)

inductive Query where
  | line (words : List Word)
  | readBack (name : Bytes) (addr scratch size : Nat)
  | canReplace (name : String) (size : Nat)
  deriving DecidableEq, Repr

def Query.text : Query → Option Bytes
  | line words => some (lineText words)
  | readBack name _ scratch size => some (lineText [.flashread name scratch size])
  | canReplace _ _ => none

structure Host extends Setup where
  ramBootAddr : Nat
  imgFlash : ImgFlash
  nandDev : Int
  spiNandDev : Int
  norPageSize : Nat
  reloadsMibib : Bool
  ubiVolWrite : Bool
  flashDensity : Nat
  rootfsPlace : Nat × Nat
  msmparts : Option Bytes

abbrev Talk := Dialog Query Bool

def execute (line : List Word) : Talk := .ask (.line line) .done

def attempt (q : Query) (rest : Talk) : Talk := .ask q fun ok => if ok then rest else .done false

def regardless (q : Query) (rest : Talk) : Talk := .ask q fun _ => rest

namespace Host

variable (h : Host)

/-! ## Firmware -/

def updateBootconfig : Talk :=
  attempt (.line [.mmcRead h.uploadAddr h.bootconfigOffsetBlocks h.bootconfigSizeBlocks])
    (regardless (.line [.mwByte (h.uploadAddr + 0x80), .mwByte (h.uploadAddr + 0x94), .mwByte (h.uploadAddr + 0xA8)])
      (execute [.flash (bytes "0:BOOTCONFIG") h.uploadAddr h.bootconfigSize,
        .flash (bytes "0:BOOTCONFIG1") h.uploadAddr h.bootconfigSize]))

def partWords (hlos rootfs : Bytes) (kernel root : Nat × Nat) : Word × Word :=
  (.flash hlos kernel.1 kernel.2, .flash rootfs root.1 root.2)

def flashPrimary (oneLine : Bool) (kernel root : Nat × Nat) (rest : Talk) : Talk :=
  let words := partWords (bytes "0:HLOS") (bytes "rootfs") kernel root
  if oneLine then attempt (.line [words.1, words.2]) rest
  else attempt (.line [words.1]) (attempt (.line [words.2]) rest)

def flashBackup (oneLine : Bool) (kernel root : Nat × Nat) (rest : Talk) : Talk :=
  if h.backupAvail && kernel.2 ≤ h.smemTableSizeBytes (bytes "0:HLOS_1") &&
      root.2 ≤ h.smemTableSizeBytes (bytes "rootfs_1") then
    let words := partWords (bytes "0:HLOS_1") (bytes "rootfs_1") kernel root
    if oneLine then regardless (.line [words.1, words.2]) rest
    else regardless (.line [words.1]) (regardless (.line [words.2]) rest)
  else rest

def emmcParts (oneLine : Bool) (kernel root : Nat × Nat) : Talk :=
  if h.smemTableSizeBytes (bytes "0:HLOS") = 0 ∨ h.rootfsSize = 0 then .done false
  else if h.smemTableSizeBytes (bytes "0:HLOS") < kernel.2 ∨ h.rootfsSize < root.2 then .done false
  else flashPrimary oneLine kernel root (h.flashBackup oneLine kernel root (.done true))

def emmcImage (size : Nat) (m : Mem) : Talk :=
  match checkFwType m h.uploadAddr with
  | some .fit =>
    let hlosSize := fwHlosSize m h.uploadAddr
    if size ≤ hlosSize then .done false
    else h.emmcParts true (h.uploadAddr, hlosSize) (h.uploadAddr + hlosSize, size - hlosSize)
  | some .sysupgrade =>
    match parseSysupgrade m h.uploadAddr size with
    | none => .done false
    | some p => h.emmcParts false (p.kernelData, p.kernelSize) (p.rootfsData, p.rootfsSize)
  | some .qsdk =>
    execute
      [.imxtract h.uploadAddr (bytes "hlos-0cc33b23252699d495d79a843032498bfa593aba"), .flashFile (bytes "0:HLOS"),
        .imxtract h.uploadAddr (bytes "rootfs-f3c50b484767661151cfb641e2622703e45020fe"),
        .flashFile (bytes "rootfs"),
        .imxtract h.uploadAddr (bytes "wififw-45b62ade000c18bfeeb23ae30e5a6811eac05e2f"),
        .flashFile (bytes "0:WIFIFW")]
  | _ => .done false

def emmcUpgrade (size : Nat) (m : Mem) : Talk :=
  (h.emmcImage size m).bind fun ok =>
    if ok then regardless (.line [.flasherase (bytes "rootfs_data")]) h.updateBootconfig else .done false

def ubiImage : Talk := execute (h.ubiNames.map .flashFile)

def script : Talk := execute [.sfProbe, .source h.uploadAddr]

def ubiWriteVolume (name : String) (part : Nat × Nat) : Talk :=
  .ask (.canReplace name part.2) fun ok =>
    if ok then
      regardless (.line [.ubiRemove name])
        (execute [.ubiCreate name (some part.2), .ubiWrite part.1 name part.2])
    else .done false

def mtdWords (dev : Int) (place : Nat × Nat) (rest : Bytes) : List Word :=
  [.nandDevice dev, .setenv (bytes "mtdids") (bytes "nand" ++ signed dev ++ bytes "=nand" ++ signed dev),
    .setenv (bytes "mtdparts") (bytes "mtdparts=nand" ++ signed dev ++ bytes ":0x" ++ hexadecimal place.2 ++
      bytes "@0x" ++ hexadecimal place.1 ++ bytes "(fs)" ++ rest)]

def ubiRootfsPart : Option (Nat × Nat) :=
  let place : Option (Nat × Nat) :=
    match h.board.flashType with
    | .nandFlash | .qspiNandFlash =>
      match h.board.smemGetpart (bytes "rootfs") with
      | none => none
      | some (start, size) => some (h.board.blockSize * start % 2 ^ 32, h.board.blockSize * size % 2 ^ 32)
    | .spiFlash =>
      if h.board.getWhichFlashParam (bytes "rootfs") > 0 then h.board.getpartOffsetSize (bytes "rootfs") else none
    | _ => none
  place.filter fun part => part.2 ≠ 0

/-- The attempt to attach the rootfs of a SPI-NAND. -/
def spiNandWords (place : Nat × Nat) : List Word :=
  mtdWords h.spiNandDev place (bytes ",$\x7bmsmparts\x7d") ++ [.ubiPart, .nothing]

def sysupgradeUbiInit : Talk :=
  if h.board.rootfsUnset ∨ h.rootfsPlace.2 = 0 then .done false
  else
    let parts := match h.msmparts with
      | some parts => bytes "," ++ parts
      | none => []
    let init := execute (mtdWords h.nandDev h.rootfsPlace parts)
    match if h.ubiVolWrite then h.ubiRootfsPart else none with
    | none => init
    | some place =>
      .ask (.line (h.spiNandWords place)) fun ok =>
        if ok then .done true else init

def restoreConfig (result : Bool) : Talk := regardless (.line [.ubiCreate "rootfs_data" none]) (.done result)

def sysupgradeWriteUbiVolumes (kernel root : Nat × Nat) : Talk :=
  h.sysupgradeUbiInit.bind fun ok =>
    if ok then
      attempt (.line [.ubiPart]) (regardless (.line [.ubiRemove "rootfs_data"])
        ((ubiWriteVolume "kernel" kernel).bind fun ok =>
          if ok then
            (ubiWriteVolume "rootfs" root).bind fun ok =>
              if ok then
                if h.backupAvail then
                  (ubiWriteVolume "kernel_1" kernel).bind fun _ =>
                    (ubiWriteVolume "rootfs_1" root).bind fun _ => restoreConfig true
                else restoreConfig true
              else restoreConfig false
          else restoreConfig false))
    else .done false

def ubiVolumes (size : Nat) (m : Mem) : Talk :=
  match parseSysupgrade m h.uploadAddr size with
  | none => .done false
  | some p => h.sysupgradeWriteUbiVolumes (p.kernelData, p.kernelSize) (p.rootfsData, p.rootfsSize)

def nandUpgrade (size : Nat) (m : Mem) : Talk :=
  match checkFwType m h.uploadAddr with
  | some .ubi => h.ubiImage
  | some .fit => h.script
  | some .sysupgrade => h.ubiVolumes size m
  | some .qsdk => h.script
  | _ => .done false

def norImage (size : Nat) : Talk :=
  execute [.sfProbe, .sfErase h.norFirmwareStart (h.norFirmwareCombinedSize % 2 ^ 32),
    .sfWrite h.uploadAddr h.norFirmwareStart size]

def norUpgrade (size : Nat) (m : Mem) : Talk :=
  match checkFwType m h.uploadAddr with
  | some .fit => h.norImage size
  | some .sysupgrade => h.norImage size
  | some .qsdk => h.script
  | _ => .done false

def spiNandUpgrade (size : Nat) (m : Mem) : Talk :=
  match checkFwType m h.uploadAddr with
  | some .ubi => h.ubiImage
  | some .sysupgrade => h.ubiVolumes size m
  | some .qsdk => h.script
  | _ => .done false

def doFirmwareUpgrade (size : Nat) (m : Mem) : Talk :=
  match h.currentFlashType with
  | some .mmcFlash => h.emmcUpgrade size m
  | some .norPlusEmmc => h.emmcUpgrade size m
  | some .nandFlash => h.nandUpgrade size m
  | some .qspiNandFlash => h.nandUpgrade size m
  | some .norPlusNand => h.nandUpgrade size m
  | some .norFlash => h.norUpgrade size m
  | some .spiFlash =>
    if h.board.getWhichFlashParam (bytes "rootfs") > 0 then h.spiNandUpgrade size m else h.norUpgrade size m
  | _ => .done false

/-! ## The other types -/

def plainFlash : SmemBoot → Bool
  | .nandFlash | .spiFlash | .norFlash | .qspiNandFlash | .norPlusEmmc | .norPlusNand => true
  | _ => false

def prepareEmmc (size : Nat) : List Word := [.mw (h.uploadAddr + size), .mmcDev]

def verifyFlashedImage (name : Bytes) (size : Nat) (rest : Talk) : Talk :=
  if size > 8 * 2 ^ 20 then .done false
  else attempt (.readBack name h.uploadAddr (h.uploadAddr + 0x200000) size) rest

def flashUboot (name : Bytes) (size : Nat) (rest : Talk) : Talk :=
  attempt (.line [.flashFile name]) (h.verifyFlashedImage name size rest)

def doUbootUpgrade (size : Nat) (m : Mem) : Talk :=
  match h.currentFlashType with
  | none => .done false
  | some ft =>
    if checkFwType m h.uploadAddr ≠ some .elf then .done false
    else
      let uboot := h.flashUboot (bytes "0:APPSBL") size
        (if h.backupAvail then h.flashUboot (bytes "0:APPSBL_1") size (.done true) else .done true)
      if ft = .mmcFlash then attempt (.line (h.prepareEmmc size)) uboot
      else if plainFlash ft then uboot
      else .done false

def flashNames (ft : SmemBoot) (size : Nat) (names : List Bytes) : Talk :=
  if ft = .mmcFlash then execute (h.prepareEmmc size ++ names.map .flashFile)
  else if plainFlash ft then execute (names.map .flashFile)
  else .done false

def doArtUpgrade (size : Nat) (m : Mem) : Talk :=
  match h.currentFlashType with
  | none => .done false
  | some ft =>
    if checkFwType m h.uploadAddr ∈ [some .cdt, some .elf, some .gpt, some .mibib] then .done false
    else h.flashNames ft size [bytes "0:ART"]

def doCdtUpgrade (size : Nat) (m : Mem) : Talk :=
  match h.currentFlashType with
  | none => .done false
  | some ft =>
    if checkFwType m h.uploadAddr ≠ some .cdt then .done false
    else h.flashNames ft size (bytes "0:CDT" :: if h.backupAvail then [bytes "0:CDT_1"] else [])

def doGptUpgrade (size : Nat) (m : Mem) : Talk :=
  match h.currentFlashType with
  | none => .done false
  | some ft =>
    if checkFwType m h.uploadAddr ≠ some .gpt then .done false
    else if ft = .mmcFlash ∨ ft = .norPlusEmmc then
      execute (.flash (bytes "0:GPT") h.uploadAddr size ::
        if h.backupAvail then [.flash (bytes "0:GPTBACKUP") h.uploadAddr size] else [])
    else .done false

def doImgUpgrade (size : Nat) (m : Mem) : Talk :=
  match h.imgFlash with
  | .nor =>
    execute [.sfProbe, .sfErase 0 (roundUp size 0x1000 % 2 ^ 32), .sfWrite h.uploadAddr 0 size]
  | .nand =>
    match h.board.nand with
    | none => .done false
    | some c =>
      if h.nandDev < 0 ∨ c.size < size then .done false
      else execute [.nandDevice h.nandDev, .nandEraseChip, .nandWrite h.uploadAddr size]
  | .nandRaw =>
    match h.board.nand with
    | none => .done false
    | some c =>
      if h.nandDev < 0 ∨ c.rawTotal > 0xFFFFFFFF ∨ size ≠ c.rawTotal then .done false
      else
        execute [.nandDevice h.nandDev, .nandEraseChip,
          .nandWriteRaw h.uploadAddr (size / (c.writesize + c.oobsize))]
  | .emmc =>
    -- `size - 1` wraps in 32 bits
    let blocks := (size + 2 ^ 32 - 1) % 2 ^ 32 / 512 + 1
    execute [.mmcDev, .mmcErase 0 blocks, .mmcWrite h.uploadAddr 0 blocks]
  | .unset => h.doGptUpgrade size m

def doMibibReloadPartition (ft : SmemBoot) (rest : Talk) : Talk :=
  let pageSize :=
    if isNandFlash ft then if h.nandDev < 0 then 0 else h.board.nandWritesize
    else if plainFlash ft then h.norPageSize
    else 0
  if pageSize = 0 then .done false
  else attempt (.line [.mibibReload (!isNandFlash ft) pageSize h.board.blockSize h.flashDensity]) rest

def doMibibUpgrade (m : Mem) : Talk :=
  match h.currentFlashType with
  | none => .done false
  | some ft =>
    if checkFwType m h.uploadAddr ≠ some .mibib then .done false
    else if plainFlash ft then
      .ask (.line [.flashFile (bytes "0:MIBIB")]) fun ok =>
        if ok then .done true
        else if h.reloadsMibib then h.doMibibReloadPartition ft (execute [.flashFile (bytes "0:MIBIB")])
        else .done false
    else .done false

def doPtableUpgrade (size : Nat) (m : Mem) : Talk :=
  match checkFwType m h.uploadAddr with
  | some .gpt => h.doGptUpgrade size m
  | some .mibib => h.doMibibUpgrade m
  | _ => .done false

def moved (size : Nat) (m : Mem) : Mem := m.write h.ramBootAddr (m.read h.uploadAddr size)

def doInitramfsBoot (m : Mem) : Talk :=
  if checkFwType m h.ramBootAddr ≠ some .fit then .done false else execute [.bootm h.ramBootAddr]

def doHttpUpgrade (size : Nat) (upgradeType : UpgradeType) (m : Mem) : Talk :=
  match upgradeType with
  | .firmware => h.doFirmwareUpgrade size m
  | .uboot => h.doUbootUpgrade size m
  | .art => h.doArtUpgrade size m
  | .img => h.doImgUpgrade size m
  | .cdt => h.doCdtUpgrade size m
  | .mibib => h.doMibibUpgrade m
  | .ptable => h.doPtableUpgrade size m
  | .initramfs => h.doInitramfsBoot (h.moved size m)

end Host

end ResQBoot.Upgrade
