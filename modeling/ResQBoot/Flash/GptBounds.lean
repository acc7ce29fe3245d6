import ResQBoot.Flash.GptExact
import ResQBoot.Lib.Checked

/-!
# What the GPT writer reads

`gpt_convert_and_write` as a checked run over the upload in RAM. On a device with room for both copies the run does not
stop; one of fewer than 35 blocks makes the block numbers wrap.
-/

namespace ResQBoot.Gpt

/-! ### The checked writer -/

structure MmcWrite where
  start : Nat
  blocks : Nat
  data : Bytes
  deriving DecidableEq

def checkedKind (b : Buffer) : Checked Copy := do
  if (← b.load 510 1) = [0x55] then
    if (← b.load 511 1) = [0xAA] then return .primary else return .backup
  else return .backup

def checkedHeader (b : Buffer) (hdr maxSize : Nat) : Checked Bool := do
  let storedCrc ← b.loadField (hdr + 16) 4
  let hdrSize ← b.loadField (hdr + 12) 4
  if hdrSize < sizeofGptHeader ∨ hdrSize > maxSize then return false
  else
    let header ← b.load hdr hdrSize
    return efiCrc32 (put header 16 4 0) = storedCrc

def checkedRest (d : Disk) (b : Buffer) : Copy → Checked Nat
  | .primary => do Checked.sub b.size (← Checked.mul 32 2 d.blksz)
  | .backup => Checked.sub b.size d.blksz

def checkedEntries (d : Disk) (b : Buffer) (c : Copy) (hdr : Nat) : Checked Bool := do
  let numEntries ← b.loadField (hdr + 80) 4
  let entrySize ← b.loadField (hdr + 84) 4
  if numEntries = 0 ∨ entrySize < 128 ∨ entrySize > d.blksz ∨ entrySize % 128 ≠ 0 then return false
  else
    let entriesBytes ← Checked.mul 64 numEntries entrySize
    let region ← Checked.mul 64 (gptPrimarySize - 2) d.blksz
    if entriesBytes = 0 ∨ entriesBytes > region then return false
    else if entriesBytes > (← checkedRest d b c) then return false
    else
      let count ← Checked.cast 32 entriesBytes
      let storedCrc ← b.loadField (hdr + 88) 4
      let entries ← b.load (c.entriesBlock * d.blksz) count
      return efiCrc32 entries = storedCrc

def checkedShort (d : Disk) (b : Buffer) : Copy → Checked Bool
  | .primary => do
    if b.size < (← Checked.mul 32 2 d.blksz) then return true
    else return b.size < (← Checked.mul 64 gptPrimarySize d.blksz)
  | .backup => do return b.size < (← Checked.mul 64 gptBackupSize d.blksz)

def checkedWriteLba (d : Disk) : Copy → Checked Nat
  | .primary => return 0
  | .backup => do Checked.cast 32 (← Checked.sub d.lba gptBackupSize)

def checkedSame (d : Disk) (b : Buffer) (c : Copy) (hdr : Nat) : Checked MmcWrite := do
  let lastLba ← Checked.sub d.lba 1
  let _maxLast ← Checked.sub lastLba c.other.size
  let start ← checkedWriteLba d c
  let header ← b.load hdr d.blksz
  let region ← b.load 0 (c.size * d.blksz)
  return ⟨start, c.size, patch region hdr (autofix d c header)⟩

def checkedConvert (d : Disk) (b : Buffer) (dst : Copy) : Checked MmcWrite := do
  let _bufSize ← Checked.mul 32 gptPrimarySize d.blksz
  let lastLba ← Checked.sub d.lba 1
  match dst with
  | .backup =>
    let entries ← b.load (2 * d.blksz) (32 * d.blksz)
    let header ← b.load d.blksz d.blksz
    let _entriesLba ← Checked.sub (← Checked.sub d.lba 32) 1
    let start ← checkedWriteLba d .backup
    return ⟨start, gptBackupSize, entries ++ gptFixHeaderCrc (setPlaces d .backup header)⟩
  | .primary =>
    let _nrSects ← Checked.cast 32 lastLba
    let header ← b.load (32 * d.blksz) d.blksz
    let entries ← b.load 0 (32 * d.blksz)
    return ⟨0, gptPrimarySize, patch (patch (mbrBuffer d) d.blksz (gptFixHeaderCrc (setPlaces d .primary header)))
      (2 * d.blksz) entries⟩

def checkedConvertAndWrite (d : Disk) (dst : Copy) (b : Buffer) (alloc : Bool) : Checked (Option MmcWrite) := do
  if b.size < d.blksz then return none
  else
    let c ← checkedKind b
    if ← checkedShort d b c then return none
    else
      let hdr := c.headerBlock * d.blksz
      if !(← checkedHeader b hdr d.blksz) then return none
      else if !(← checkedEntries d b c hdr) then return none
      else if c = dst then return some (← checkedSame d b c hdr)
      else if !alloc then return none
      else return some (← checkedConvert d b dst)

/-! ### The run does not stop -/

section Run

variable {d : Disk} {b : Buffer} {c : Copy} {hdr : Nat}

lemma checkedKind_ok (whole : 512 ≤ b.size) : checkedKind b = .ok (srcCopy b.bytes) := by
  have first := @slice_byte b.bytes 510 (by rw [b.length_bytes]; omega)
  have second := @slice_byte b.bytes 511 (by rw [b.length_bytes]; omega)
  rw [checkedKind, Buffer.load_ok (by omega), Buffer.load_ok (by omega), Checked.ok_bind, srcCopy]
  simp only [first, second, Checked.ok_bind]
  by_cases a : b.bytes.getD 510 0 = 0x55
  · by_cases z : b.bytes.getD 511 0 = 0xAA
    · rw [if_pos a, if_pos z, if_pos ⟨a, z⟩]
      rfl
    · rw [if_pos a, if_neg z, if_neg (by rintro ⟨-, h⟩; exact z h)]
      rfl
  · rw [if_neg a, if_neg (by rintro ⟨h, -⟩; exact a h)]
    rfl

lemma checkedShort_ok (d : Disk) (b : Buffer) (c : Copy) : checkedShort d b c = .ok (decide (b.size < c.size * d.blksz)) := by
  have small := d.blksz_le
  cases c with
  | primary =>
    rw [checkedShort, Checked.mul_ok (by omega), Checked.ok_bind, Copy.size, gptPrimarySize]
    split
    · rw [decide_eq_true (by omega)]
      rfl
    · rw [Checked.mul_ok (by omega)]
      rfl
  | backup =>
    rw [checkedShort, Copy.size, gptBackupSize, Checked.mul_ok (by omega)]
    rfl

lemma checkedHeader_ok (sector : d.blksz = 512) (inside : hdr + d.blksz ≤ b.size) :
    checkedHeader b hdr d.blksz = .ok (gptVerifyHeaderCrc (slice b.bytes hdr d.blksz) d.blksz) := by
  have size : headerSize (slice b.bytes hdr d.blksz) = field b.bytes (hdr + 12) 4 := field_slice (by omega)
  have crc : headerCrc32 (slice b.bytes hdr d.blksz) = field b.bytes (hdr + 16) 4 := field_slice (by omega)
  have length : (slice b.bytes hdr d.blksz).length = d.blksz := length_slice (by rw [b.length_bytes]; exact inside)
  rw [checkedHeader, Buffer.loadField_ok (by omega), Buffer.loadField_ok (by omega), Checked.ok_bind, Checked.ok_bind,
    gptVerifyHeaderCrc, headerCrc, crc, size]
  generalize field b.bytes (hdr + 12) 4 = n
  split
  · rename_i odd
    have refused : (decide (sizeofGptHeader ≤ n) && decide (n ≤ d.blksz)) = false := by
      rw [Bool.and_eq_false_iff, decide_eq_false_iff_not, decide_eq_false_iff_not]
      omega
    rw [refused]
    rfl
  · rename_i fits
    rw [sizeofGptHeader] at fits
    have part : (put (slice b.bytes hdr d.blksz) 16 4 0).take n = put (slice b.bytes hdr n) 16 4 0 := by
      rw [put, patch_take (by rw [length_toLe]; omega) (by omega), slice, List.take_take, Nat.min_eq_left (by omega)]
      rfl
    rw [Buffer.load_ok (by omega), Checked.ok_bind, part, sizeofGptHeader, decide_eq_true (by omega : 92 ≤ n),
      decide_eq_true (by omega : n ≤ d.blksz)]
    rfl

def EntriesValid (d : Disk) (c : Copy) (src h : Bytes) : Prop :=
  numPartitionEntries h ≠ 0 ∧
    (128 ≤ sizeofPartitionEntry h ∧ sizeofPartitionEntry h ≤ d.blksz ∧ sizeofPartitionEntry h % 128 = 0) ∧
    entriesBytes h ≤ 32 * d.blksz ∧
    efiCrc32 (slice src (c.entriesBlock * d.blksz) (entriesBytes h)) = partitionEntryArrayCrc32 h

instance (d : Disk) (c : Copy) (src h : Bytes) : Decidable (EntriesValid d c src h) :=
  inferInstanceAs (Decidable (_ ∧ _))

lemma checkedRest_ok (complete : c.size * d.blksz ≤ b.size) : ∃ n, checkedRest d b c = .ok n ∧ 32 * d.blksz ≤ n := by
  have small := d.blksz_le
  cases c with
  | primary =>
    rw [Copy.size, gptPrimarySize] at complete
    refine ⟨b.size - 2 * d.blksz, ?_, by omega⟩
    rw [checkedRest, Checked.mul_ok (by omega), Checked.ok_bind, Checked.sub_ok (by omega)]
  | backup =>
    rw [Copy.size, gptBackupSize] at complete
    refine ⟨b.size - d.blksz, ?_, by omega⟩
    rw [checkedRest, Checked.sub_ok (by omega)]

lemma checkedEntries_ok (sector : d.blksz = 512) (complete : c.size * d.blksz ≤ b.size) :
    checkedEntries d b c (c.headerBlock * d.blksz) =
      .ok (decide (EntriesValid d c b.bytes (slice b.bytes (c.headerBlock * d.blksz) d.blksz))) := by
  have inside := headerBlock_inside d c
  have room := entriesBlock_inside d c
  have part (o : Nat) (le : o + 4 ≤ 512) : field (slice b.bytes (c.headerBlock * d.blksz) d.blksz) o 4 =
      field b.bytes (c.headerBlock * d.blksz + o) 4 := field_slice (by omega)
  have count := part 80 (by decide)
  have size := part 84 (by decide)
  have crc := part 88 (by decide)
  have num_lt := field_lt b.bytes (c.headerBlock * d.blksz + 80) 4
  obtain ⟨rest, run, much⟩ := checkedRest_ok complete
  rw [checkedEntries, Buffer.loadField_ok (by omega), Buffer.loadField_ok (by omega), Checked.ok_bind, Checked.ok_bind]
  simp only [EntriesValid, numPartitionEntries, sizeofPartitionEntry, partitionEntryArrayCrc32, entriesBytes, count, size,
    crc]
  generalize field b.bytes (c.headerBlock * d.blksz + 80) 4 = num at num_lt
  generalize field b.bytes (c.headerBlock * d.blksz + 84) 4 = entry
  split
  · rename_i odd
    exact congrArg _ (decide_eq_false (by omega)).symm
  rename_i sizes
  -- the entry size is at most a block, so the product has fewer than 64 bits
  have bound : num * entry ≤ num * 512 := Nat.mul_le_mul_left num (by omega)
  rw [Checked.mul_ok (by omega), Checked.ok_bind, gptPrimarySize, Checked.mul_ok (by omega), Checked.ok_bind]
  have pos : num * entry ≠ 0 := Nat.mul_ne_zero (by omega) (by omega)
  generalize num * entry = total at bound pos
  split
  · rename_i odd
    exact congrArg _ (decide_eq_false (by omega)).symm
  rename_i fits
  rw [run, Checked.ok_bind, if_neg (by omega), Checked.cast_ok (by omega), Checked.ok_bind,
    Buffer.loadField_ok (by omega), Checked.ok_bind, Buffer.load_ok (by omega)]
  refine congrArg _ (decide_eq_decide.mpr ?_)
  constructor
  · intro same
    exact ⟨by omega, by omega, by omega, same⟩
  · rintro ⟨-, -, -, same⟩
    exact same

lemma checkedWriteLba_ok (room : 35 ≤ d.lba) : checkedWriteLba d c = .ok (d.writeLba c) := by
  have lt := d.lba_lt
  cases c with
  | primary => rfl
  | backup =>
    rw [checkedWriteLba, gptBackupSize, Checked.sub_ok (by omega), Checked.ok_bind, Checked.cast_ok (by omega),
      Disk.writeLba, gptBackupSize, sub64_eq (by omega) lt, Nat.mod_eq_of_lt (by omega)]

lemma checkedSame_ok (room : 35 ≤ d.lba) (ok : Accepted d b.bytes) (kind : srcCopy b.bytes = c) :
    checkedSame d b c (c.headerBlock * d.blksz) = .ok ⟨d.writeLba c, c.size, written d c b.bytes⟩ := by
  have inside := headerBlock_inside d c
  have complete := ok.complete
  rw [kind, b.length_bytes] at complete
  have length : (autofix d c (srcHeader d b.bytes)).length = d.blksz :=
    (autofix_spec ok.whole ok.crc).2.1.length.trans ok.length
  have margin : c.other.size ≤ d.lba - 1 := by
    cases c <;> simp only [Copy.other, Copy.size, gptBackupSize, gptPrimarySize] <;> omega
  have header : slice b.bytes (c.headerBlock * d.blksz) d.blksz = srcHeader d b.bytes := by rw [srcHeader, kind]
  rw [checkedSame, Checked.sub_ok (by omega), Checked.ok_bind, Checked.sub_ok margin, Checked.ok_bind,
    checkedWriteLba_ok room, Checked.ok_bind, Buffer.load_ok (by omega), Checked.ok_bind, Buffer.load_ok (by omega),
    Checked.ok_bind, header, written_same kind, patch_take (by rw [length]; exact inside) (by rw [b.length_bytes]; exact complete),
    slice, List.drop_zero]
  rfl

lemma checkedConvert_ok {dst : Copy} (room : 35 ≤ d.lba) (ok : Accepted d b.bytes) (other : srcCopy b.bytes ≠ dst) :
    checkedConvert d b dst = .ok ⟨d.writeLba dst, dst.size, written d dst b.bytes⟩ := by
  have lt := d.lba_lt
  have small := d.blksz_le
  have complete := ok.complete
  rw [b.length_bytes] at complete
  rw [checkedConvert, gptPrimarySize, Checked.mul_ok (by omega), Checked.ok_bind, Checked.sub_ok (by omega), Checked.ok_bind]
  cases dst with
  | backup =>
    have kind : srcCopy b.bytes = .primary := by
      cases kind : srcCopy b.bytes with
      | primary => rfl
      | backup => exact absurd kind other
    rw [kind, Copy.size, gptPrimarySize] at complete
    simp only [written, srcHeader, kind]
    rw [Buffer.load_ok (by omega), Checked.ok_bind, Buffer.load_ok (by omega), Checked.ok_bind, Checked.sub_ok (by omega),
      Checked.ok_bind, Checked.sub_ok (by omega), Checked.ok_bind, checkedWriteLba_ok room, Checked.ok_bind,
      Copy.headerBlock, Nat.one_mul]
    rfl
  | primary =>
    have kind : srcCopy b.bytes = .backup := by
      cases kind : srcCopy b.bytes with
      | primary => exact absurd kind other
      | backup => rfl
    rw [kind, Copy.size, gptBackupSize] at complete
    simp only [written, srcHeader, kind]
    rw [Checked.cast_ok (by omega), Checked.ok_bind, Buffer.load_ok (by omega), Checked.ok_bind, Buffer.load_ok (by omega),
      Checked.ok_bind]
    rfl

lemma accepts_checks {src : Bytes} : accepts d src = true ↔ (srcCopy src).size * d.blksz ≤ src.length ∧
    gptVerifyHeaderCrc (srcHeader d src) d.blksz = true ∧ EntriesValid d (srcCopy src) src (srcHeader d src) := by
  rw [accepts_iff, EntriesValid]
  simp only [gptVerifyHeaderCrc, Bool.and_eq_true, decide_eq_true_eq]
  constructor
  · rintro ⟨complete, geometry, crc, array⟩
    exact ⟨complete, ⟨geometry.headerSize, crc⟩, geometry.count, geometry.entry, geometry.fits, array⟩
  · rintro ⟨complete, ⟨size, crc⟩, count, entry, fits, array⟩
    exact ⟨complete, ⟨size, count, entry, fits⟩, crc, array⟩

def issued (d : Disk) (dst : Copy) (src : Bytes) (alloc : Bool) : Option MmcWrite :=
  if accepts d src = true ∧ (srcCopy src = dst ∨ alloc = true) then
    some ⟨d.writeLba dst, dst.size, written d dst src⟩
  else none

lemma checkedConvertAndWrite_eq (dst : Copy) (b : Buffer) (alloc : Bool) (sector : d.blksz = 512) :
    checkedConvertAndWrite d dst b alloc =
      if accepts d b.bytes = true then
        if srcCopy b.bytes = dst then some <$> checkedSame d b dst (dst.headerBlock * d.blksz)
        else if !alloc then return none
        else some <$> checkedConvert d b dst
      else return none := by
  have spec := @accepts_checks d b.bytes
  rw [b.length_bytes] at spec
  have inside := headerBlock_inside d (srcCopy b.bytes)
  rw [checkedConvertAndWrite]
  by_cases short : b.size < (srcCopy b.bytes).size * d.blksz
  · rw [if_neg (by rw [spec]; omega : ¬ accepts d b.bytes = true)]
    by_cases tiny : b.size < d.blksz
    · rw [if_pos tiny]
    · rw [if_neg tiny, checkedKind_ok (by omega), Checked.ok_bind, checkedShort_ok, Checked.ok_bind, decide_eq_true short,
        if_pos rfl]
  have complete : (srcCopy b.bytes).size * d.blksz ≤ b.size := by omega
  rw [if_neg (by omega : ¬ b.size < d.blksz), checkedKind_ok (by omega), Checked.ok_bind, checkedShort_ok,
    Checked.ok_bind, decide_eq_false short]
  simp only [Bool.false_eq_true, if_false, checkedHeader_ok sector (Nat.le_trans inside complete), Checked.ok_bind,
    checkedEntries_ok sector complete]
  rw [← srcHeader]
  cases header : gptVerifyHeaderCrc (srcHeader d b.bytes) d.blksz with
  | false => rw [if_neg (by rw [spec, header]; simp : ¬ accepts d b.bytes = true), Bool.not_false, if_pos rfl]
  | true =>
    by_cases entries : EntriesValid d (srcCopy b.bytes) b.bytes (srcHeader d b.bytes)
    · rw [if_pos (spec.mpr ⟨complete, header, entries⟩), decide_eq_true entries]
      simp only [Bool.not_true, Bool.false_eq_true, if_false]
      by_cases kind : srcCopy b.bytes = dst
      · rw [if_pos kind, if_pos kind, kind]
        rfl
      · rw [if_neg kind, if_neg kind]
        rfl
    · rw [if_neg (by rw [spec]; simp [entries] : ¬ accepts d b.bytes = true), decide_eq_false entries]
      rfl

lemma checkedConvertAndWrite_ok (dst : Copy) (b : Buffer) (alloc : Bool) (sector : d.blksz = 512) (room : 35 ≤ d.lba) :
    checkedConvertAndWrite d dst b alloc = .ok (issued d dst b.bytes alloc) := by
  rw [checkedConvertAndWrite_eq dst b alloc sector, issued]
  by_cases ok : accepts d b.bytes = true
  · have accepted := accepted_of_accepts ok
    rw [if_pos ok]
    by_cases kind : srcCopy b.bytes = dst
    · rw [if_pos kind, checkedSame_ok room accepted kind, if_pos ⟨ok, .inl kind⟩]
      rfl
    rw [if_neg kind, checkedConvert_ok room accepted kind]
    cases alloc with
    | false =>
      rw [if_neg (by simp [kind] : ¬ (accepts d b.bytes = true ∧ (srcCopy b.bytes = dst ∨ false = true)))]
      rfl
    | true =>
      rw [if_pos (⟨ok, .inr rfl⟩ : accepts d b.bytes = true ∧ (srcCopy b.bytes = dst ∨ true = true))]
      rfl
  · rw [if_neg ok, if_neg (by rintro ⟨h, -⟩; exact ok h)]
    rfl

end Run

def MmcWrite.Covers (w : MmcWrite) (d : Disk) : Copy → Prop
  | .primary => w.start = 0 ∧ w.blocks = 34
  | .backup => w.start + 33 = d.lba ∧ w.blocks = 33

/-- On a device with room for both copies no access leaves the upload and no number wraps, and what is written is a
complete region with valid CRCs, at its place. -/
theorem gpt_input_validated (d : Disk) (dst : Copy) (b : Buffer) (alloc : Bool) (sector : d.blksz = 512)
    (room : 35 ≤ d.lba) :
    ∃ result, checkedConvertAndWrite d dst b alloc = .ok result ∧
      ∀ w, result = some w →
        (srcCopy b.bytes).size * 512 ≤ b.size ∧
        Geometry d (srcHeader d b.bytes) ∧
        headerCrc efiCrc32 (srcHeader d b.bytes) = headerCrc32 (srcHeader d b.bytes) ∧
        efiCrc32 (slice b.bytes ((srcCopy b.bytes).entriesBlock * 512) (entriesBytes (srcHeader d b.bytes))) =
          partitionEntryArrayCrc32 (srcHeader d b.bytes) ∧
        w.Covers d dst ∧ w.data.length = w.blocks * 512 ∧
        gptConvertAndWrite d dst b.bytes = some (w.start, w.data) := by
  refine ⟨_, checkedConvertAndWrite_ok dst b alloc sector room, ?_⟩
  intro w write
  rw [issued] at write
  split at write
  case isFalse => cases write
  rename_i may
  obtain ⟨ok, -⟩ := may
  cases write
  obtain ⟨complete, geometry, crc, array⟩ := accepts_iff.mp ok
  rw [b.length_bytes, sector] at complete
  rw [sector] at array
  have length := (written_layout (accepted_of_accepts ok) dst).length
  rw [sector] at length
  refine ⟨complete, geometry, crc, array, ?_, length, if_pos ok⟩
  cases dst with
  | primary => exact ⟨rfl, rfl⟩
  | backup =>
    have lt := d.lba_lt
    have start : d.writeLba .backup + 33 = d.lba := by
      rw [Disk.writeLba, gptBackupSize, sub64_eq (by omega) lt]
      omega
    exact ⟨start, rfl⟩

def primaryUpload : Buffer := ⟨Mem.write (fun _ => 0) 0x4B000000 (primaryImage 4062), 0x4B000000, 34 * 512⟩

theorem gpt_input_validated_small : ∃ result, checkedConvertAndWrite smallDisk .backup primaryUpload true = .ok result :=
  (gpt_input_validated smallDisk .backup primaryUpload true rfl (by decide)).imp fun _ run => run.1

lemma primaryUpload_bytes : primaryUpload.bytes = primaryImage 4062 := by
  have length : (primaryImage 4062).length = 34 * 512 := by decide +kernel
  rw [Buffer.bytes, primaryUpload, ← length, Mem.read_write]

lemma accepts_congr {d d' : Disk} {src : Bytes} (same : d.blksz = d'.blksz) : accepts d src = accepts d' src := by
  cases d
  cases d'
  simp only at same
  subst same
  rfl

def tinyDisk : Disk := { smallDisk with lba := 20, lba_lt := by decide }

/-- On a device without room for a backup GPT the number of its first block wraps. -/
theorem gpt_tiny_wraps :
    checkedConvertAndWrite tinyDisk .backup primaryUpload true = .error .overflow ∧
    gptConvertAndWrite tinyDisk .backup primaryUpload.bytes =
      some (2 ^ 32 - 13, written tinyDisk .backup primaryUpload.bytes) := by
  have ok : accepts tinyDisk primaryUpload.bytes = true := by
    have same : accepts tinyDisk (primaryImage 4062) = accepts smallDisk (primaryImage 4062) := accepts_congr rfl
    rw [primaryUpload_bytes, same, primaryImage_accepted]
  have kind : srcCopy primaryUpload.bytes = .primary := by
    rw [primaryUpload_bytes]
    decide +kernel
  refine ⟨?_, if_pos ok⟩
  rw [checkedConvertAndWrite_eq _ _ _ rfl, if_pos ok, if_neg (by rw [kind]; decide)]
  have stops : checkedConvert tinyDisk primaryUpload .backup = .error .overflow := by
    rw [checkedConvert, Checked.mul_ok (by decide), Checked.ok_bind, Checked.sub_ok (by decide), Checked.ok_bind]
    simp only
    rw [Buffer.load_ok (by decide), Checked.ok_bind, Buffer.load_ok (by decide), Checked.ok_bind]
    rfl
  rw [stops]
  rfl

end ResQBoot.Gpt
