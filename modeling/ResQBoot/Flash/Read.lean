import ResQBoot.Flash.Write

/-!
# The `flashread` command

`flashread_partition` of `cmd_flashread.c`. It resolves a name with a branch tree of its own, beside that
of `do_flash`, and has two names more, `nor_full` and `nand_full`, for whole chips.
-/

namespace ResQBoot.Flash

def norFull : Bytes := bytes "nor_full"
def nandFull : Bytes := bytes "nand_full"

structure Source where
  flashType : SmemBoot
  offset : Nat
  partSize : Nat
  blkDev : Option BlockDev
  layout : Layout

inductive Located where
  | exit
  | fail
  | source (s : Source)

def Board.nandOobsize (b : Board) : Nat := match b.nand with
  | some c => c.oobsize
  | none => 0

def readFromFlash (b : Board) (flashType : SmemBoot) (addr offset partSize : Nat) (layout : Layout)
    (raw : Bool) : Option (List Cmd) :=
  match flashType with
  | .nandFlash | .qspiNandFlash =>
    let line := [.nandDevice] ++ (if layout ≠ .default then [.ipqNand layout] else [])
    if raw then
      let rawPage := b.nandWritesize + b.nandOobsize
      let pagecount := if rawPage ≠ 0 then (partSize + rawPage - 1) % 2 ^ 32 / rawPage else 0
      if pagecount = 0 then none else some (line ++ [.nandReadRaw addr offset pagecount])
    else some (line ++ [.nandRead addr offset partSize])
  | .mmcFlash => some [.mmcRead addr offset partSize]
  | .spiFlash => some [.sfProbe, .sfRead addr offset partSize]
  | _ => none

def locateEmmc (d : BlockDev) (name : Bytes) : Located :=
  if name = gptPartName then .source ⟨.mmcFlash, 0, Gpt.gptPrimarySize, some d, .default⟩
  else if name = gptBackupPartName then
    .source ⟨.mmcFlash, (d.lba + 2 ^ 32 - Gpt.gptBackupSize) % 2 ^ 32, Gpt.gptBackupSize, some d, .default⟩
  else
    match d.getPartitionInfoEfiByName name with
    | none => .fail
    | some info => .source ⟨.mmcFlash, info.start, info.size, some d, .default⟩

def locateSmem (b : Board) (flashType : SmemBoot) (layout : Layout) (name : Bytes) : Located :=
  match b.smemGetpart name with
  | none => .exit
  | some (start, size) =>
    .source ⟨flashType, b.blockSize * start % 2 ^ 32, b.blockSize * size % 2 ^ 32, none, layout⟩

def locate (b : Board) (flashType : SmemBoot) (name : Bytes) : Located :=
  match flashType with
  | .nandFlash => locateSmem b .nandFlash (nandLayout b name) name
  | .qspiNandFlash => locateSmem b .qspiNandFlash (nandLayout b name) name
  | .mmcFlash | .noFlash =>
    match b.emmc with
    | none => .exit
    | some d => locateEmmc d name
  | .spiFlash =>
    if b.getWhichFlashParam name > 0 then
      match b.getpartOffsetSize name with
      | none => .exit
      | some (offset, size) => .source ⟨.nandFlash, offset, size, none, .default⟩
    else if b.secondaryNand && isRootfs name then
      if b.rootfsUnset then
        .source ⟨b.secondary, b.activeRootfs * ipqNandRootfsSize % 2 ^ 32, ipqNandRootfsSize, none, .default⟩
      else .source ⟨b.secondary, 0, 0, none, .default⟩
    else if onEmmc b name then
      match b.emmc with
      | none => .fail
      | some d => locateEmmc d name
    else locateSmem b .spiFlash .default name
  | other => .source ⟨other, 0, 0, none, .default⟩

def Source.readSize (s : Source) (userSize : Nat) : Nat :=
  if userSize = 0 then s.partSize
  else
    match s.flashType, s.blkDev with
    | .mmcFlash, some d => min s.partSize ((userSize + d.blksz - 1) % 2 ^ 32 / d.blksz)
    | _, _ => min s.partSize userSize

def Source.byteSize (s : Source) (readSize : Nat) : Nat :=
  match s.flashType, s.blkDev with
  | .mmcFlash, some d => readSize * d.blksz % 2 ^ 32
  | _, _ => readSize

def fullSource (b : Board) (name : Bytes) : Option (SmemBoot × Nat) :=
  if name = norFull then
    if b.flashType ≠ .spiFlash ∨ b.norSize = 0 then none else some (.spiFlash, b.norSize)
  else if b.nandSize = 0 then none
  else some (.nandFlash, b.nandSize % 2 ^ 32)

def rawReadSize (b : Board) (userSize : Nat) : Option Nat :=
  let rawPage := b.nandWritesize + b.nandOobsize
  let rawTotal := if b.nandWritesize ≠ 0 then b.nandSize / b.nandWritesize * rawPage else 0
  if rawPage = 0 ∨ rawTotal = 0 ∨ rawTotal > 0xFFFFFFFF then none
  else
    let size := if userSize ≠ 0 ∧ userSize < rawTotal then userSize else rawTotal
    let size := size - size % rawPage
    if size = 0 then none else some size

def flashreadFull (b : Board) (io : Io) (name : Bytes) (addr userSize : Nat) (raw : Bool) (w : World) :
    Option (Nat × Nat) × World :=
  match fullSource b name with
  | none => (none, w)
  | some (flashType, size) =>
    let readSize :=
      if raw then rawReadSize b userSize
      else some (if userSize ≠ 0 ∧ userSize < size then userSize else size)
    match readSize with
    | none => (none, w)
    | some readSize =>
      match readFromFlash b flashType addr 0 readSize .default raw with
      | none => (none, w)
      | some cs =>
        match runCommand b io cs w with
        | (true, w) => (some (0, readSize), w)
        | (false, w) => (none, w)

def flashreadPartition (b : Board) (io : Io) (name : Bytes) (addr userSize : Nat) (raw : Bool)
    (w : World) : Option (Nat × Nat) × World :=
  if raw && name ≠ nandFull then (none, w)
  else if name = norFull ∨ name = nandFull then flashreadFull b io name addr userSize raw w
  else
    match locate b (w.flashTypeNew.getD b.flashType) name with
    | .fail => (none, w)
    | .exit => (none, { w with flashTypeNew := none })
    | .source s =>
      let readSize := s.readSize userSize
      match readFromFlash b s.flashType addr s.offset readSize s.layout false with
      | none => (none, { w with flashTypeNew := none })
      | some cs =>
        match runCommand b io cs w with
        | (true, w) => (some (s.offset, s.byteSize readSize), w)
        | (false, w) => (none, { w with flashTypeNew := none })

end ResQBoot.Flash
