import ResQBoot.Flash.Read

/-!
# Reading a partition in chunks

`flashread_partition_chunk` of `cmd_flashread.c`, without an explicit flash type, has a third branch tree for the names,
with a reader for each device. It gives 0 bytes at the end of the partition.
-/

namespace ResQBoot.Flash

def hexadecimal (n : Nat) : Bytes := (Nat.toDigits 16 n).map fun c => UInt8.ofNat c.toNat

structure ChunkReply where
  result : Option (Nat × Nat)
  detail : Option Bytes

namespace ChunkReply

def failure : ChunkReply := ⟨none, none⟩

def failureAt (text : Bytes) : ChunkReply := ⟨none, some (text.take 31)⟩

def exhausted (userOffset : Nat) : ChunkReply := ⟨some (userOffset % 2 ^ 32, 0), none⟩

end ChunkReply

def chunkSize (userSize remain : Nat) : Nat :=
  if userSize ≠ 0 ∧ userSize < remain then userSize else remain % 2 ^ 32

/-! ### NAND -/

def Chip.rawPages (c : Chip) (io : Io) (startPage pagesAvail : Nat) : List Nat :=
  (List.range' startPage ((startPage + pagesAvail) % 2 ^ 32 - startPage)).takeWhile fun p =>
    io.reads (p * c.writesize)

def nandRawChunkRead (b : Board) (io : Io) (addr userOffset userSize : Nat) (w : World) : ChunkReply × World :=
  match b.nand with
  | none => (.failure, w)
  | some c =>
    let rawPageSize := c.writesize + c.oobsize
    let totalPages := c.size / c.writesize % 2 ^ 32
    let startPage := userOffset / rawPageSize % 2 ^ 32
    let pagesAvail := if userSize / rawPageSize = 0 then 1 else userSize / rawPageSize
    if startPage ≥ totalPages then (.exhausted userOffset, w)
    else
      let pagesAvail :=
        if (startPage + pagesAvail) % 2 ^ 32 > totalPages then totalPages - startPage else pagesAvail
      let pages := c.rawPages io startPage pagesAvail
      let data := pages.flatMap fun p => c.rawPage w (p * c.writesize)
      if pages.length = 0 then (.failure, w)
      else
        (⟨some (userOffset % 2 ^ 32, pages.length * rawPageSize), some (decimal pages.length ++ bytes " pg")⟩,
          { w with ram := w.ram.write addr data })

def Chip.chunkPieces (c : Chip) (io : Io) : Nat → Nat → Nat → Nat → Option Bytes × List (Nat × Nat)
  | 0, _, _, _ => (none, [])
  | fuel + 1, curOffset, endOffset, leftToRead =>
    if leftToRead = 0 ∨ curOffset ≥ endOffset then (none, [])
    else
      -- the mask `~(erasesize - 1)` has 32 bits
      let block := curOffset / c.erasesize * c.erasesize % 2 ^ 32
      if block > c.size then (some (bytes "bad-block query 0x" ++ hexadecimal block), [])
      else if c.seen (curOffset / c.erasesize) then (some (bytes "bad block 0x" ++ hexadecimal block), [])
      else
        let readLength := min leftToRead (c.erasesize - curOffset % c.erasesize)
        if curOffset + readLength > c.size || !io.reads curOffset then
          (some (bytes "read error 0x" ++ hexadecimal curOffset), [])
        else
          let (detail, pieces) :=
            chunkPieces c io fuel (curOffset + readLength) endOffset (leftToRead - readLength)
          (detail, (curOffset, readLength) :: pieces)

def nandPart (b : Board) (c : Chip) (name : Bytes) : Option (Nat × Nat) :=
  if name = nandFull then some (0, c.size)
  else if name = bytes "rootfs" ∧ b.rootfsUnset then some (b.activeRootfs * ipqNandRootfsSize, ipqNandRootfsSize)
  else (b.getpartOffsetSize name).filter fun part => part.2 ≠ 0

def nandChunkRead (b : Board) (io : Io) (name : Bytes) (addr userOffset userSize : Nat) (w : World) :
    ChunkReply × World :=
  match b.nand with
  | none => (.failureAt (bytes "nand unavailable"), w)
  | some c =>
    match nandPart b c name with
    | none => (.failure, w)
    | some (base, total) =>
      let size := chunkSize userSize (total - userOffset)
      let (detail, pieces) :=
        c.chunkPieces io size (base + userOffset) (base + userOffset + size) size
      let w := { w with ram := w.ram.write addr (Chip.readPieces w.nand pieces) }
      match detail with
      | some text => (.failureAt text, w)
      | none => (⟨some (userOffset % 2 ^ 32, size), some []⟩, w)

/-! ### eMMC -/

structure EmmcCache where
  baseOffset : Nat
  partSize : Nat
  partName : Bytes

def emmcCacheInvalidate : EmmcCache := ⟨0, 0, []⟩

def gptSearch (name : Bytes) : List (Option GptPart) → Option GptPart
  | [] => none
  | none :: t => gptSearch name t
  | some g :: t => if g.name = name then some g else gptSearch name t

def emmcPart (d : BlockDev) (name : Bytes) : Nat × Nat :=
  if name = gptPartName then (0, Gpt.gptPrimarySize * d.blksz)
  else if name = gptBackupPartName then
    ((d.lba + 2 ^ 32 - Gpt.gptBackupSize) % 2 ^ 32 * d.blksz, Gpt.gptBackupSize * d.blksz)
  else
    match gptSearch name d.gpt with
    | none => (0, 0)
    | some g => ((g.info d.blksz).start * d.blksz, (g.info d.blksz).size * d.blksz)

structure ChunkState where
  world : World
  cache : EmmcCache

def emmcChunkRead (b : Board) (io : Io) (name : Bytes) (addr userOffset userSize : Nat) (st : ChunkState) :
    ChunkReply × ChunkState :=
  match b.emmc with
  | none => (.failure, st)
  | some d =>
    let part :=
      if name = st.cache.partName ∧ st.cache.partSize > 0 then (st.cache.baseOffset, st.cache.partSize)
      else emmcPart d name
    if part.2 = 0 then (.failure, st)
    else
      let st := { st with cache := ⟨part.1, part.2, name.take 31⟩ }
      if userOffset ≥ part.2 then (.exhausted userOffset, st)
      else
        let chunk := chunkSize userSize (part.2 - userOffset)
        let chunkOffset := part.1 + userOffset
        let startSector := chunkOffset / d.blksz % 2 ^ 32
        let numSectors := (chunk + d.blksz - 1) % 2 ^ 32 / d.blksz
        match exec b io (.mmcRead addr startSector numSectors) st.world with
        | (false, w) => (.failure, { st with world := w })
        | (true, w) =>
          (⟨some (chunkOffset % 2 ^ 32, numSectors * d.blksz % 2 ^ 32), some (decimal numSectors ++ bytes " blk")⟩,
            { st with world := w })

/-! ### NOR -/

def sfPart (b : Board) (name : Bytes) : Option (Nat × Nat) :=
  if name = norFull then some (0, b.norSize) else (b.getpartOffsetSize name).filter fun part => part.2 ≠ 0

def sfChunkRead (b : Board) (io : Io) (name : Bytes) (addr userOffset userSize : Nat) (w : World) :
    ChunkReply × World :=
  match sfPart b name with
  | none => (.failure, w)
  | some (base, total) =>
    if userOffset ≥ total then (.exhausted userOffset, w)
    else
      let chunk := chunkSize userSize (total - userOffset)
      match runCommand b io [.sfProbe, .sfRead addr (base + userOffset) chunk] w with
      | (false, w) => (.failure, w)
      | (true, w) => (⟨some ((base + userOffset) % 2 ^ 32, chunk), some []⟩, w)

/-! ### The dispatch -/

inductive ChunkReader where
  | raw
  | nand
  | emmc
  | sf
  deriving DecidableEq, Repr

def smemUnplaced (b : Board) (name : Bytes) : Bool :=
  match b.smemGetpart name with
  | none => true
  | some (start, size) => start = 0 && size = 0

def chunkReader (b : Board) (flashType : SmemBoot) (name : Bytes) (raw : Bool) : Option ChunkReader :=
  if name = nandFull ∨ isNandFlash flashType ∨ b.getWhichFlashParam name > 0 then
    if raw then if name = nandFull then some .raw else none
    else some .nand
  else if flashType = .mmcFlash ∨ flashType = .noFlash then some .emmc
  else if flashType = .spiFlash then
    if b.getWhichFlashParam name > 0 ∨ (b.secondaryNand ∧ isRootfs name) then some .raw
    else if (b.secondary = .mmcFlash ∨ b.rootfsUnset) ∧ (isRootfs name ∨ smemUnplaced b name) then some .emmc
    else some .sf
  else some .sf

def ChunkReader.read (b : Board) (io : Io) (name : Bytes) (addr userOffset userSize : Nat) (st : ChunkState) :
    ChunkReader → ChunkReply × ChunkState
  | .raw =>
    let (reply, w) := nandRawChunkRead b io addr userOffset userSize st.world
    (reply, { st with world := w })
  | .nand =>
    let (reply, w) := nandChunkRead b io name addr userOffset userSize st.world
    (reply, { st with world := w })
  | .emmc => emmcChunkRead b io name addr userOffset userSize st
  | .sf =>
    let (reply, w) := sfChunkRead b io name addr userOffset userSize st.world
    (reply, { st with world := w })

def flashreadPartitionChunk (b : Board) (io : Io) (name : Bytes) (addr userOffset userSize : Nat) (raw : Bool)
    (st : ChunkState) : ChunkReply × ChunkState :=
  match chunkReader b (st.world.flashTypeNew.getD b.flashType) name raw with
  | none => (.failure, st)
  | some reader => reader.read b io name addr userOffset userSize st

end ResQBoot.Flash
