import ResQBoot.Lib.Crc32
import ResQBoot.Lib.Fields

/-!
# Writing a GPT to eMMC

`gpt_convert_and_write` of `cmd_flashwrite.c`, and the reader of `part_efi.c` that decides whether a GPT is valid. The
writer computes the CRC bit by bit and the reader by table.
-/

namespace ResQBoot.Gpt

structure Disk where
  blksz : Nat
  lba : Nat
  divides : blksz ∣ 512
  lba_lt : lba < 2 ^ 32

lemma sector_dvd : 512 ∣ 512 := Nat.dvd_refl 512

lemma Disk.blksz_pos (d : Disk) : 0 < d.blksz := Nat.pos_of_dvd_of_pos d.divides (by decide)

inductive Copy where
  | primary
  | backup
  deriving DecidableEq, Repr

def gptPrimarySize : Nat := 34
def gptBackupSize : Nat := 33
def gptHeaderSignature : Nat := 0x5452415020494645

/-! ### The header -/

def signature (h : Bytes) : Nat := field h 0 8
def headerSize (h : Bytes) : Nat := field h 12 4
def headerCrc32 (h : Bytes) : Nat := field h 16 4
def myLba (h : Bytes) : Nat := field h 24 8
def alternateLba (h : Bytes) : Nat := field h 32 8
def firstUsableLba (h : Bytes) : Nat := field h 40 8
def lastUsableLba (h : Bytes) : Nat := field h 48 8
def partitionEntryLba (h : Bytes) : Nat := field h 72 8
def numPartitionEntries (h : Bytes) : Nat := field h 80 4
def sizeofPartitionEntry (h : Bytes) : Nat := field h 84 4
def partitionEntryArrayCrc32 (h : Bytes) : Nat := field h 88 4

def sizeofGptHeader : Nat := 92

def efiCrc32 (bs : Bytes) : Nat := (Crc32.byBits 0xFFFFFFFF#32 bs ^^^ 0xFFFFFFFF#32).toNat

def crc32 (bs : Bytes) : Nat := (Crc32.byTable 0 (0#32 ^^^ 0xFFFFFFFF#32) bs ^^^ 0xFFFFFFFF#32).toNat

lemma crc32_eq (bs : Bytes) : crc32 bs = efiCrc32 bs := by
  rw [crc32, Crc32.byTable_eq, efiCrc32, BitVec.zero_xor]

def headerCrc (crc : Bytes → Nat) (h : Bytes) : Nat := crc ((put h 16 4 0).take (headerSize h))

def gptFixHeaderCrc (h : Bytes) : Bytes :=
  put (put h 16 4 0) 16 4 (efiCrc32 ((put h 16 4 0).take (headerSize (put h 16 4 0))))

def gptVerifyHeaderCrc (h : Bytes) (maxSize : Nat) : Bool :=
  sizeofGptHeader ≤ headerSize h && headerSize h ≤ maxSize && headerCrc efiCrc32 h = headerCrc32 h

def gptVerifyEntriesCrc (h entries : Bytes) : Bool := efiCrc32 entries = partitionEntryArrayCrc32 h

def sub64 (a b : Nat) : Nat := (a + 2 ^ 64 - b) % 2 ^ 64

/-! ### The writer -/

def Disk.headerLba (d : Disk) : Copy → Nat
  | .primary => 1
  | .backup => sub64 d.lba 1

def Disk.entriesLba (d : Disk) : Copy → Nat
  | .primary => 2
  | .backup => sub64 d.lba gptBackupSize

def Copy.other : Copy → Copy
  | .primary => .backup
  | .backup => .primary

def Disk.maxLast (d : Disk) : Copy → Nat
  | .primary => sub64 (sub64 d.lba 1) gptBackupSize
  | .backup => sub64 (sub64 d.lba 1) gptPrimarySize

def setPlaces (d : Disk) (c : Copy) (h : Bytes) : Bytes :=
  put (put (put h 24 8 (d.headerLba c)) 32 8 (d.headerLba c.other)) 72 8 (d.entriesLba c)

def autofix (d : Disk) (c : Copy) (h : Bytes) : Bytes :=
  if myLba h ≠ d.headerLba c ∨ alternateLba h ≠ d.headerLba c.other ∨ lastUsableLba h > d.maxLast c ∨
      partitionEntryLba h ≠ d.entriesLba c then
    let h' := setPlaces d c h
    gptFixHeaderCrc (if lastUsableLba h > d.maxLast c then put h' 48 8 (d.maxLast c) else h')
  else h

def mbrBuffer (d : Disk) : Bytes :=
  let buf := List.replicate (gptPrimarySize * d.blksz) 0
  let buf := patch buf (446 + 4) [0xEE]
  let buf := put buf (446 + 8) 4 1
  let buf := put buf (446 + 12) 4 (sub64 d.lba 1)
  patch buf 510 [0x55, 0xAA]

def srcCopy (src : Bytes) : Copy :=
  if src.getD 510 0 = 0x55 ∧ src.getD 511 0 = 0xAA then .primary else .backup

def Copy.size : Copy → Nat
  | .primary => gptPrimarySize
  | .backup => gptBackupSize

def Copy.headerBlock : Copy → Nat
  | .primary => 1
  | .backup => gptBackupSize - 1

def Copy.entriesBlock : Copy → Nat
  | .primary => 2
  | .backup => 0

def srcHeader (d : Disk) (src : Bytes) : Bytes :=
  slice src ((srcCopy src).headerBlock * d.blksz) d.blksz

def entriesBytes (h : Bytes) : Nat := numPartitionEntries h * sizeofPartitionEntry h

def accepts (d : Disk) (src : Bytes) : Bool :=
  let h := srcHeader d src
  let c := srcCopy src
  d.blksz ≤ src.length && !(c = .primary && src.length < 2 * d.blksz) &&
    c.size * d.blksz ≤ src.length &&
    gptVerifyHeaderCrc h d.blksz &&
    numPartitionEntries h ≠ 0 && 128 ≤ sizeofPartitionEntry h && sizeofPartitionEntry h ≤ d.blksz &&
    sizeofPartitionEntry h % 128 = 0 &&
    entriesBytes h ≠ 0 && entriesBytes h ≤ (gptPrimarySize - 2) * d.blksz &&
    (match c with
    | .primary => entriesBytes h ≤ src.length - 2 * d.blksz
    | .backup => entriesBytes h ≤ src.length - d.blksz) &&
    gptVerifyEntriesCrc h (slice src (c.entriesBlock * d.blksz) (entriesBytes h))

def Disk.writeLba (d : Disk) : Copy → Nat
  | .primary => 0
  | .backup => sub64 d.lba gptBackupSize % 2 ^ 32

def written (d : Disk) (dst : Copy) (src : Bytes) : Bytes :=
  let h := srcHeader d src
  let entriesSectors := gptPrimarySize - 2
  match srcCopy src, dst with
  | .primary, .primary => (patch src d.blksz (autofix d .primary h)).take (gptPrimarySize * d.blksz)
  | .backup, .backup =>
    (patch src ((gptBackupSize - 1) * d.blksz) (autofix d .backup h)).take (gptBackupSize * d.blksz)
  | .primary, .backup =>
    slice src (2 * d.blksz) (entriesSectors * d.blksz) ++ gptFixHeaderCrc (setPlaces d .backup h)
  | .backup, .primary =>
    patch (patch (mbrBuffer d) d.blksz (gptFixHeaderCrc (setPlaces d .primary h))) (2 * d.blksz)
      (slice src 0 (entriesSectors * d.blksz))

def gptConvertAndWrite (d : Disk) (dst : Copy) (src : Bytes) : Option (Nat × Bytes) :=
  if accepts d src then some (d.writeLba dst, written d dst src) else none

/-! ### The reader -/

def Disk.blockRead (d : Disk) (m : Mem) (lba n : Nat) : Option Bytes :=
  if (lba + n) % 2 ^ 32 > d.lba then none else some (m.read (lba * d.blksz) (n * d.blksz))

def validateGptHeader (h : Bytes) (lba lastLba : Nat) : Bool :=
  signature h = gptHeaderSignature && headerCrc crc32 h = headerCrc32 h && myLba h = lba &&
    firstUsableLba h ≤ lastLba && lastUsableLba h ≤ lastLba

def readGptEntries (d : Disk) (m : Mem) (h : Bytes) : Option Bytes :=
  let count := entriesBytes h % 2 ^ 32
  if count = 0 then none
  else
    let blkCnt := (count + d.blksz - 1) / d.blksz
    (d.blockRead m (partitionEntryLba h % 2 ^ 32) blkCnt).map (·.take count)

def isGptValid (d : Disk) (m : Mem) (lba : Nat) : Bool :=
  match d.blockRead m (lba % 2 ^ 32) 1 with
  | none => false
  | some h =>
    validateGptHeader h (lba % 2 ^ 32) d.lba &&
      match readGptEntries d m h with
      | none => false
      | some entries => crc32 entries = partitionEntryArrayCrc32 h

structure ValidCopy (d : Disk) (m : Mem) (c : Copy) : Prop where
  valid : isGptValid d m (d.headerLba c) = true
  alternate : alternateLba (m.read (d.headerLba c * d.blksz) d.blksz) = d.headerLba c.other
  entries : partitionEntryLba (m.read (d.headerLba c * d.blksz) d.blksz) = d.entriesLba c
  usable : lastUsableLba (m.read (d.headerLba c * d.blksz) d.blksz) + gptBackupSize < d.lba

end ResQBoot.Gpt
