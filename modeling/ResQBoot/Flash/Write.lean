import ResQBoot.Flash.Device

/-!
# The `flash` command

`do_flash` of `cmd_flashwrite.c`. Offsets and sizes are `uint32_t`. `flasherase` is the same function without a file.
-/

namespace ResQBoot.Flash

structure Target where
  flashType : SmemBoot
  offset : Nat
  partSize : Nat
  fileSize : Nat
  blksz : Nat
  blkDev : Option BlockDev
  layout : Layout
  cleanMarker : Bool

inductive Resolved where
  | exit
  | ubi
  | target (t : Target)

def nandLayout (b : Board) (name : Bytes) : Layout :=
  if b.ipq806x then
    if [bytes "rootfs", bytes "0:BOOTCONFIG", bytes "0:BOOTCONFIG1"].any fun n => strncmpEq n name 16 then
      .linux
    else .sbl
  else .default

def resolveEmmc (d : BlockDev) (name : Bytes) (fileSize : Nat) : Resolved :=
  if name = gptPartName then
    .target ⟨.mmcFlash, 0, fileSize / d.blksz, fileSize / d.blksz, 0, some d, .default, false⟩
  else if name = gptBackupPartName then
    .target ⟨.mmcFlash, (d.lba + 2 ^ 32 - fileSize / d.blksz) % 2 ^ 32, fileSize / d.blksz,
      fileSize / d.blksz, 0, some d, .default, false⟩
  else
    match d.getPartitionInfoEfiByName name with
    | none => .exit
    | some info =>
      .target ⟨.mmcFlash, info.start, info.size, fileSize, info.blksz, some d, .default, false⟩

def resolveSmem (b : Board) (flashType : SmemBoot) (layout : Layout) (marker : Bool) (name : Bytes)
    (fileSize : Nat) : Resolved :=
  match b.smemGetpart name with
  | none => if b.ubiVolPresent name then .ubi else .exit
  | some (start, size) =>
    .target ⟨flashType, b.blockSize * start % 2 ^ 32, b.blockSize * size % 2 ^ 32, fileSize, 0, none, layout,
      marker⟩

def onEmmc (b : Board) (name : Bytes) : Bool :=
  (b.secondary = .mmcFlash || b.rootfsUnset) &&
    match b.smemGetpart name with
    | none => true
    | some (start, size) => start = 0 && size = 0

def resolveFlash (b : Board) (flashType : SmemBoot) (name : Bytes) (fileSize : Nat) : Resolved :=
  match flashType with
  | .nandFlash => resolveSmem b .nandFlash (nandLayout b name) false name fileSize
  | .qspiNandFlash => resolveSmem b .qspiNandFlash (nandLayout b name) false name fileSize
  | .mmcFlash =>
    match b.emmc with
    | none => .target ⟨.mmcFlash, 0, 0, fileSize, 0, none, .default, false⟩
    | some d => resolveEmmc d name fileSize
  | .noFlash =>
    match b.emmc with
    | none => .target ⟨.noFlash, 0, 0, fileSize, 0, none, .default, false⟩
    | some d => resolveEmmc d name fileSize
  | .spiFlash =>
    if b.getWhichFlashParam name > 0 then
      match b.getpartOffsetSize name with
      | none => .exit
      | some (offset, size) => .target ⟨.nandFlash, offset, size, fileSize, 0, none, .default, false⟩
    else if b.secondaryNand && isRootfs name then
      if b.rootfsUnset then
        .target ⟨b.secondary, b.activeRootfs * ipqNandRootfsSize % 2 ^ 32, ipqNandRootfsSize, fileSize, 0,
          none, .default, false⟩
      else .target ⟨b.secondary, 0, 0, fileSize, 0, none, .default, false⟩
    else if onEmmc b name then
      match b.emmc with
      | none => .exit
      | some d => resolveEmmc d name fileSize
    else resolveSmem b .spiFlash .default (b.cleanMarker && name = bytes "rootfs") name fileSize
  | other => .target ⟨other, 0, 0, fileSize, 0, none, .default, false⟩

def roundSize (b : Board) (t : Target) (fileSizeCpy : Nat) : Nat :=
  let size :=
    if isNandFlash t.flashType && b.nandWritesize ≠ 0 then
      let adjSize := t.fileSize % b.nandWritesize
      if adjSize ≠ 0 then (t.fileSize + (b.nandWritesize - adjSize)) % 2 ^ 32 else t.fileSize
    else t.fileSize
  if t.flashType = .mmcFlash ∧ t.blksz ≠ 0 then
    size / t.blksz + (if fileSizeCpy % t.blksz ≠ 0 then 1 else 0)
  else size

def writeToFlash (flashType : SmemBoot) (addr offset partSize fileSize : Nat) (layout : Layout) :
    List Cmd :=
  match flashType with
  | .nandFlash | .qspiNandFlash =>
    [.nandDevice] ++ (if layout ≠ .default then [.ipqNand layout] else []) ++
      [.nandErase offset partSize, .nandWrite addr offset fileSize]
  | .mmcFlash => [.mmcErase offset partSize, .mmcWrite addr offset fileSize]
  | .spiFlash => [.sfProbe, .sfErase offset partSize, .sfWrite addr offset fileSize]
  | _ => []

def cleanmarker : Bytes := toLe 4 0x20031985 ++ toLe 4 0xc ++ toLe 4 0xe41eb0b1

def writeMarkers (b : Board) (io : Io) : Nat → Nat → World → Bool × World
  | 0, _, w => (true, w)
  | n + 1, off, w =>
    match runCommand b io [.sfWriteBuf off cleanmarker] w with
    | (true, w) => writeMarkers b io n ((off + b.blockSize) % 2 ^ 32) w
    | (false, w) => (false, w)

def addMarkers (b : Board) (io : Io) (t : Target) (size : Nat) (result : Bool × World) : Bool × World :=
  let aligned := roundUp size b.blockSize % 2 ^ 32
  let left := (t.partSize + 2 ^ 32 - aligned) % 2 ^ 32
  if left < 0x100000 then result
  else writeMarkers b io ((left + b.blockSize - 1) / b.blockSize) ((t.offset + aligned) % 2 ^ 32) result.2

def gptCopy (name : Bytes) : Gpt.Copy := if name = gptPartName then .primary else .backup

def flashTarget (b : Board) (io : Io) (name : Bytes) (addr fileSize : Nat) (t : Target) (w : World) :
    Bool × World :=
  let size := roundSize b t fileSize
  if size > t.partSize then (false, w)
  else
    match t.blkDev with
    | some d =>
      if name = gptPartName ∨ name = gptBackupPartName then
        match Gpt.gptConvertAndWrite d.toDisk (gptCopy name) (w.ram.read addr fileSize) with
        | none => (false, w)
        | some (start, data) =>
          let cnt := (gptCopy name).size
          runCommand b io [.mmcErase start cnt, .mmcWriteBuf start cnt data] w
      else runCommand b io (writeToFlash t.flashType addr t.offset t.partSize size t.layout) w
    | none =>
      let result := runCommand b io (writeToFlash t.flashType addr t.offset t.partSize size t.layout) w
      if t.cleanMarker then addMarkers b io t size result else result

def flashResolved (b : Board) (io : Io) (name : Bytes) (addr fileSize : Nat) (r : Resolved) (w : World) :
    Bool × World :=
  match r with
  | .exit => (false, w)
  | .ubi => runCommand b io [.ubiWrite addr name fileSize] w
  | .target t => flashTarget b io name addr fileSize t w

def doFlash (b : Board) (io : Io) (name : Bytes) (addr fileSize : Nat) (w : World) : Bool × World :=
  let r := resolveFlash b (w.flashTypeNew.getD b.flashType) name fileSize
  match flashResolved b io name addr fileSize r w with
  | (true, w) => (true, w)
  | (false, w) => (false, { w with flashTypeNew := none })

def flErase (flashType : SmemBoot) (offset partSize : Nat) (layout : Layout) : List Cmd :=
  match flashType with
  | .nandFlash | .qspiNandFlash =>
    [.nandDevice] ++ (if layout ≠ .default then [.ipqNand layout] else []) ++ [.nandErase offset partSize]
  | .mmcFlash => [.mmcErase offset partSize]
  | .spiFlash => [.sfProbe, .sfErase offset partSize]
  | _ => []

def doFlasherase (b : Board) (io : Io) (name : Bytes) (w : World) : Bool × World :=
  let result := match resolveFlash b (w.flashTypeNew.getD b.flashType) name 0 with
    | .exit => (false, w)
    | .ubi => runCommand b io [.ubiWrite 0 name 0] w
    | .target t => runCommand b io (flErase t.flashType t.offset t.partSize t.layout) w
  match result with
  | (true, w) => (true, w)
  | (false, w) => (false, { w with flashTypeNew := none })

end ResQBoot.Flash
