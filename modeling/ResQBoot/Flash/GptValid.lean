import ResQBoot.Flash.Gpt

/-!
# Validity of a written GPT

What the writer puts on the device, in three steps: the fields of the header that it stores
(`Placed`, `SameTable`), where header and entries stand in the written blocks (`written_header`,
`written_entries`), and what the reader makes of them (`validCopy_iff`).
-/

namespace ResQBoot.Gpt

/-! ### The stored header -/

structure SameTable (h h' : Bytes) : Prop where
  length : h'.length = h.length
  signature : signature h' = signature h
  headerSize : headerSize h' = headerSize h
  firstUsable : firstUsableLba h' = firstUsableLba h
  entriesBytes : entriesBytes h' = entriesBytes h
  arrayCrc : partitionEntryArrayCrc32 h' = partitionEntryArrayCrc32 h

structure Placed (d : Disk) (c : Copy) (h : Bytes) : Prop where
  crc : headerCrc efiCrc32 h = headerCrc32 h
  my : myLba h = d.headerLba c
  alternate : alternateLba h = d.headerLba c.other
  entries : partitionEntryLba h = d.entriesLba c

section Header

variable {d : Disk} {c : Copy} {h h' h'' : Bytes}

lemma SameTable.trans (first : SameTable h h') (second : SameTable h' h'') : SameTable h h'' where
  length := second.length.trans first.length
  signature := second.signature.trans first.signature
  headerSize := second.headerSize.trans first.headerSize
  firstUsable := second.firstUsable.trans first.firstUsable
  entriesBytes := second.entriesBytes.trans first.entriesBytes
  arrayCrc := second.arrayCrc.trans first.arrayCrc

lemma SameTable.whole (table : SameTable h h') (len : 92 ≤ h.length) : 92 ≤ h'.length := by
  rw [table.length]
  exact len

lemma SameTable.put {o w : Nat} (v : Nat) (len : 92 ≤ h.length)
    (keep : 16 ≤ o ∧ o + w ≤ 40 ∨ 48 ≤ o ∧ o + w ≤ 80) : SameTable h (put h o w v) := by
  have fits : o + w ≤ h.length := by omega
  have other : ∀ p n, p + n ≤ o ∨ o + w ≤ p → field (ResQBoot.put h o w v) p n = field h p n :=
    fun p n apart => field_put_other v fits apart
  refine ⟨length_put fits v, other 0 8 (by omega), other 12 4 (by omega), other 40 8 (by omega), ?_,
    other 88 4 (by omega)⟩
  rw [Gpt.entriesBytes, Gpt.entriesBytes, numPartitionEntries, sizeofPartitionEntry,
    other 80 4 (by omega), other 84 4 (by omega)]
  rfl

lemma efiCrc32_lt (bs : Bytes) : efiCrc32 bs < 256 ^ 4 := BitVec.isLt _

lemma gptFixHeaderCrc_sameTable (len : 92 ≤ h.length) : SameTable h (gptFixHeaderCrc h) := by
  have zeroed : SameTable h (put h 16 4 0) := SameTable.put 0 len (by omega)
  exact zeroed.trans (SameTable.put _ (zeroed.whole len) (by omega))

lemma gptFixHeaderCrc_field (len : 92 ≤ h.length) {o n : Nat} (apart : o + n ≤ 16 ∨ 20 ≤ o) :
    field (gptFixHeaderCrc h) o n = field h o n := by
  have fits : 16 + 4 ≤ h.length := by omega
  rw [gptFixHeaderCrc, field_put_other _ (by rw [length_put fits]; exact fits) apart, field_put_other _ fits apart]

lemma gptFixHeaderCrc_crc (len : 92 ≤ h.length) :
    headerCrc efiCrc32 (gptFixHeaderCrc h) = headerCrc32 (gptFixHeaderCrc h) := by
  have fits : 16 + 4 ≤ h.length := by omega
  have fits' : 16 + 4 ≤ (put h 16 4 0).length := by rw [length_put fits]; exact fits
  have zeroed : put (gptFixHeaderCrc h) 16 4 0 = put h 16 4 0 := by
    rw [gptFixHeaderCrc, put, put, patch_patch (by simpa using fits') (by simp), put,
      patch_patch (by simpa using fits) (by simp)]
  have size : headerSize (put h 16 4 0) = headerSize h := (SameTable.put 0 len (by omega)).headerSize
  rw [headerCrc, zeroed, (gptFixHeaderCrc_sameTable len).headerSize, headerCrc32, gptFixHeaderCrc,
    field_put_same fits' (efiCrc32_lt _), size]

lemma sub64_lt (a b : Nat) : sub64 a b < 256 ^ 8 := Nat.mod_lt _ (by decide)

lemma headerLba_lt (d : Disk) (c : Copy) : d.headerLba c < 256 ^ 8 := by
  cases c with
  | primary => exact (by decide : 1 < 256 ^ 8)
  | backup => exact sub64_lt _ _

lemma entriesLba_lt (d : Disk) (c : Copy) : d.entriesLba c < 256 ^ 8 := by
  cases c with
  | primary => exact (by decide : 2 < 256 ^ 8)
  | backup => exact sub64_lt _ _

lemma maxLast_lt (d : Disk) (c : Copy) : d.maxLast c < 256 ^ 8 := by
  cases c <;> exact sub64_lt _ _

section

variable (len : 92 ≤ h.length)
include len

lemma setPlaces_sameTable : SameTable h (setPlaces d c h) := by
  have t₁ : SameTable h (put h 24 8 (d.headerLba c)) := SameTable.put _ len (by omega)
  have t₂ := t₁.trans (SameTable.put (o := 32) (w := 8) (d.headerLba c.other) (t₁.whole len) (by omega))
  exact t₂.trans (SameTable.put _ (t₂.whole len) (by omega))

lemma length_places (v v' : Nat) :
    (put h 24 8 v).length = h.length ∧ (put (put h 24 8 v) 32 8 v').length = h.length := by
  have first : (put h 24 8 v).length = h.length := length_put (by omega) v
  exact ⟨first, (length_put (by omega) v').trans first⟩

lemma setPlaces_places : myLba (setPlaces d c h) = d.headerLba c ∧
    alternateLba (setPlaces d c h) = d.headerLba c.other ∧ partitionEntryLba (setPlaces d c h) = d.entriesLba c := by
  obtain ⟨l₁, l₂⟩ := length_places len (d.headerLba c) (d.headerLba c.other)
  refine ⟨?_, ?_, field_put_same (by omega) (entriesLba_lt d c)⟩
  · rw [myLba, setPlaces, field_put_other _ (by omega) (by omega), field_put_other _ (by omega) (by omega),
      field_put_same (by omega) (headerLba_lt d c)]
  · rw [alternateLba, setPlaces, field_put_other _ (by omega) (by omega),
      field_put_same (by omega) (headerLba_lt d c.other)]

lemma setPlaces_field {o n : Nat}
    (apart : o + n ≤ 24 ∨ 40 ≤ o ∧ o + n ≤ 72 ∨ 80 ≤ o) : field (setPlaces d c h) o n = field h o n := by
  obtain ⟨l₁, l₂⟩ := length_places len (d.headerLba c) (d.headerLba c.other)
  rw [setPlaces, field_put_other _ (by omega) (by omega), field_put_other _ (by omega) (by omega),
    field_put_other _ (by omega) (by omega)]

lemma gptFixHeaderCrc_placed (my : myLba h = d.headerLba c)
    (alternate : alternateLba h = d.headerLba c.other) (entries : partitionEntryLba h = d.entriesLba c) :
    Placed d c (gptFixHeaderCrc h) where
  crc := gptFixHeaderCrc_crc len
  my := (gptFixHeaderCrc_field len (by omega)).trans my
  alternate := (gptFixHeaderCrc_field len (by omega)).trans alternate
  entries := (gptFixHeaderCrc_field len (by omega)).trans entries

end

def convert (d : Disk) (c : Copy) (h : Bytes) : Bytes := gptFixHeaderCrc (setPlaces d c h)

lemma convert_spec (len : 92 ≤ h.length) : Placed d c (convert d c h) ∧ SameTable h (convert d c h) ∧
      lastUsableLba (convert d c h) = lastUsableLba h := by
  have table : SameTable h (setPlaces d c h) := setPlaces_sameTable len
  have len' := table.whole len
  obtain ⟨my, alternate, entries⟩ := setPlaces_places (d := d) (c := c) len
  refine ⟨gptFixHeaderCrc_placed len' my alternate entries, table.trans (gptFixHeaderCrc_sameTable len'), ?_⟩
  exact (gptFixHeaderCrc_field len' (by omega)).trans (setPlaces_field len (by omega))

def Disk.clamp (d : Disk) (c : Copy) (last : Nat) : Nat :=
  if last > d.maxLast c then d.maxLast c else last

lemma autofix_spec (len : 92 ≤ h.length) (crc : headerCrc efiCrc32 h = headerCrc32 h) :
    Placed d c (autofix d c h) ∧ SameTable h (autofix d c h) ∧
      lastUsableLba (autofix d c h) = d.clamp c (lastUsableLba h) := by
  rw [autofix, Disk.clamp]
  split
  · by_cases far : lastUsableLba h > d.maxLast c
    · have table : SameTable h (setPlaces d c h) := setPlaces_sameTable len
      have len' := table.whole len
      have clamped := SameTable.put (o := 48) (w := 8) (d.maxLast c) len' (by omega)
      have len'' := clamped.whole len'
      have other : ∀ o n, o + n ≤ 48 ∨ 48 + 8 ≤ o →
          field (put (setPlaces d c h) 48 8 (d.maxLast c)) o n = field (setPlaces d c h) o n :=
        fun o n apart => field_put_other _ (by omega) apart
      obtain ⟨my, alternate, entries⟩ := setPlaces_places (d := d) (c := c) len
      simp only [if_pos far]
      refine ⟨gptFixHeaderCrc_placed len'' ?_ ?_ ?_, (table.trans clamped).trans (gptFixHeaderCrc_sameTable len''), ?_⟩
      · exact (other 24 8 (by omega)).trans my
      · exact (other 32 8 (by omega)).trans alternate
      · exact (other 72 8 (by omega)).trans entries
      · exact (gptFixHeaderCrc_field len'' (by omega)).trans (field_put_same (by omega) (maxLast_lt d c))
    · simp only [if_neg far]
      exact convert_spec len
  · rename_i fits
    simp only [not_or, not_not] at fits
    rw [if_neg fits.2.2.1]
    exact ⟨⟨crc, fits.1, fits.2.1, fits.2.2.2⟩, ⟨rfl, rfl, rfl, rfl, rfl, rfl⟩, rfl⟩

end Header

/-! ### The written blocks -/

structure Accepted (d : Disk) (src : Bytes) : Prop where
  complete : (srcCopy src).size * d.blksz ≤ src.length
  headerSize : sizeofGptHeader ≤ headerSize (srcHeader d src) ∧ headerSize (srcHeader d src) ≤ d.blksz
  crc : headerCrc efiCrc32 (srcHeader d src) = headerCrc32 (srcHeader d src)
  entries : 0 < entriesBytes (srcHeader d src) ∧ entriesBytes (srcHeader d src) ≤ 32 * d.blksz
  array : efiCrc32 (slice src ((srcCopy src).entriesBlock * d.blksz) (entriesBytes (srcHeader d src))) =
    partitionEntryArrayCrc32 (srcHeader d src)

section Blocks

variable {d : Disk} {src : Bytes}

lemma accepted_of_accepts (ok : accepts d src = true) : Accepted d src := by
  simp only [accepts, Bool.and_eq_true, decide_eq_true_eq, gptVerifyHeaderCrc, gptVerifyEntriesCrc] at ok
  obtain ⟨⟨⟨⟨⟨⟨⟨⟨⟨⟨-, complete⟩, ⟨low, high⟩, crc⟩, -⟩, -⟩, -⟩, -⟩, pos⟩, fits⟩, -⟩, array⟩ := ok
  exact ⟨complete, ⟨low, high⟩, crc, ⟨Nat.pos_of_ne_zero pos, fits⟩, array⟩

lemma headerBlock_inside (d : Disk) (c : Copy) : c.headerBlock * d.blksz + d.blksz ≤ c.size * d.blksz := by
  cases c <;> simp only [Copy.headerBlock, Copy.size, gptBackupSize, gptPrimarySize] <;> omega

lemma Accepted.length (ok : Accepted d src) : (srcHeader d src).length = d.blksz :=
  length_slice (Nat.le_trans (headerBlock_inside d _) ok.complete)

lemma Accepted.large (ok : Accepted d src) : 92 ≤ d.blksz := Nat.le_trans ok.headerSize.1 ok.headerSize.2

lemma Accepted.whole (ok : Accepted d src) : 92 ≤ (srcHeader d src).length := by
  rw [ok.length]
  exact ok.large

def storedHeader (d : Disk) (dst : Copy) (src : Bytes) : Bytes :=
  if srcCopy src = dst then autofix d dst (srcHeader d src) else convert d dst (srcHeader d src)

def storedLast (d : Disk) (dst : Copy) (src : Bytes) : Nat :=
  if srcCopy src = dst then d.clamp dst (lastUsableLba (srcHeader d src))
  else lastUsableLba (srcHeader d src)

lemma storedHeader_spec (ok : Accepted d src) (dst : Copy) :
    Placed d dst (storedHeader d dst src) ∧ SameTable (srcHeader d src) (storedHeader d dst src) ∧
      lastUsableLba (storedHeader d dst src) = storedLast d dst src := by
  rw [storedHeader, storedLast]
  split
  · exact autofix_spec ok.whole ok.crc
  · exact convert_spec ok.whole

lemma storedHeader_length (ok : Accepted d src) (dst : Copy) : (storedHeader d dst src).length = d.blksz :=
  (storedHeader_spec ok dst).2.1.length.trans ok.length

structure Layout (d : Disk) (dst : Copy) (src data : Bytes) : Prop where
  length : data.length = dst.size * d.blksz
  header : slice data (dst.headerBlock * d.blksz) d.blksz = storedHeader d dst src
  entries : ∀ n ≤ 32 * d.blksz, slice data (dst.entriesBlock * d.blksz) n =
    slice src ((srcCopy src).entriesBlock * d.blksz) n

lemma layout_same {c : Copy} (ok : Accepted d src) (kind : srcCopy src = c) :
    Layout d c src ((patch src (c.headerBlock * d.blksz) (storedHeader d c src)).take (c.size * d.blksz)) := by
  have len := storedHeader_length ok c
  have complete := ok.complete
  rw [kind] at complete
  have inside := headerBlock_inside d c
  have fits : c.headerBlock * d.blksz + (storedHeader d c src).length ≤ src.length := by omega
  refine ⟨?_, ?_, fun n le => ?_⟩
  · rw [List.length_take, length_patch fits, Nat.min_eq_left complete]
  · rw [slice_take inside]
    have same := slice_patch_same fits
    rwa [len] at same
  · have apart : c.entriesBlock * d.blksz + n ≤ c.headerBlock * d.blksz ∨
        c.headerBlock * d.blksz + d.blksz ≤ c.entriesBlock * d.blksz := by
      cases c <;> simp only [Copy.entriesBlock, Copy.headerBlock, gptBackupSize] <;> omega
    have room : c.entriesBlock * d.blksz + n ≤ c.size * d.blksz := by
      cases c <;> simp only [Copy.entriesBlock, Copy.size, gptBackupSize, gptPrimarySize] <;> omega
    rw [slice_take room, slice_patch_other fits (by rw [len]; exact apart), kind]

lemma mbrBuffer_length (d : Disk) (large : 92 ≤ d.blksz) : (mbrBuffer d).length = gptPrimarySize * d.blksz := by
  rw [mbrBuffer]
  have room : 34 * 92 ≤ gptPrimarySize * d.blksz := Nat.mul_le_mul_left 34 large
  generalize gptPrimarySize * d.blksz = n at room
  have l₁ : (patch (List.replicate n 0) (446 + 4) [0xEE]).length = n :=
    (length_patch (by simp; omega)).trans List.length_replicate
  have l₂ := (length_put (o := 446 + 8) (n := 4) (by rw [l₁]; omega) 1).trans l₁
  have l₃ := (length_put (o := 446 + 12) (n := 4) (by rw [l₂]; omega) (sub64 d.lba 1)).trans l₂
  exact (length_patch (by rw [l₃]; simp; omega)).trans l₃

lemma layout_toBackup (ok : Accepted d src) (kind : srcCopy src = .primary) :
    Layout d .backup src (slice src (2 * d.blksz) (32 * d.blksz) ++ convert d .backup (srcHeader d src)) := by
  have stored : storedHeader d .backup src = convert d .backup (srcHeader d src) := by
    rw [storedHeader, if_neg (by rw [kind]; decide)]
  have len := storedHeader_length ok .backup
  have complete := ok.complete
  rw [kind, Copy.size, gptPrimarySize] at complete
  have half : (slice src (2 * d.blksz) (32 * d.blksz)).length = 32 * d.blksz := length_slice (by omega)
  rw [← stored]
  refine ⟨?_, ?_, fun n le => ?_⟩
  · rw [List.length_append, half, len, Copy.size, gptBackupSize]
    omega
  · have right := slice_append_right (slice src (2 * d.blksz) (32 * d.blksz)) (storedHeader d .backup src)
    rwa [half, len] at right
  · rw [Copy.entriesBlock, Nat.zero_mul, slice_append_left (by rw [half]; omega), slice_slice (by omega), kind]
    rfl

lemma layout_toPrimary (ok : Accepted d src) (kind : srcCopy src = .backup) :
    Layout d .primary src (patch (patch (mbrBuffer d) d.blksz (convert d .primary (srcHeader d src)))
      (2 * d.blksz) (slice src 0 (32 * d.blksz))) := by
  have stored : storedHeader d .primary src = convert d .primary (srcHeader d src) := by
    rw [storedHeader, if_neg (by rw [kind]; decide)]
  have len := storedHeader_length ok .primary
  have complete := ok.complete
  rw [kind, Copy.size, gptBackupSize] at complete
  have half : (slice src 0 (32 * d.blksz)).length = 32 * d.blksz := length_slice (by omega)
  have whole : (mbrBuffer d).length = 34 * d.blksz := mbrBuffer_length d ok.large
  rw [← stored]
  have fits : d.blksz + (storedHeader d .primary src).length ≤ (mbrBuffer d).length := by omega
  have fits' : 2 * d.blksz + (slice src 0 (32 * d.blksz)).length ≤
      (patch (mbrBuffer d) d.blksz (storedHeader d .primary src)).length := by
    rw [length_patch fits]
    omega
  refine ⟨?_, ?_, fun n le => ?_⟩
  · rw [length_patch fits', length_patch fits, whole]
    rfl
  · have same := slice_patch_same fits
    rw [len] at same
    rw [Copy.headerBlock, Nat.one_mul, slice_patch_other fits' (by omega), same]
  · have same := slice_patch_same fits'
    rw [half] at same
    have entries := congrArg (slice · 0 n) same
    simp only [slice_slice (show 0 + n ≤ 32 * d.blksz by omega), Nat.add_zero] at entries
    rw [Copy.entriesBlock, entries, kind, Copy.entriesBlock, Nat.zero_mul]

lemma written_layout (ok : Accepted d src) (dst : Copy) : Layout d dst src (written d dst src) := by
  cases kind : srcCopy src <;> cases dst <;> simp only [written, kind]
  case primary.primary =>
    have same := layout_same ok kind
    rw [storedHeader, if_pos kind] at same
    rwa [Copy.headerBlock, Nat.one_mul] at same
  case primary.backup => exact layout_toBackup ok kind
  case backup.primary => exact layout_toPrimary ok kind
  case backup.backup =>
    have same := layout_same ok kind
    rw [storedHeader, if_pos kind] at same
    exact same

end Blocks

/-! ### Reading back -/

section Reader

variable {d : Disk} {m : Mem} {c : Copy} {h : Bytes}

lemma sub64_eq {a b : Nat} (le : b ≤ a) (lt : a < 2 ^ 32) : sub64 a b = a - b := by
  rw [sub64]
  omega

lemma Disk.blksz_le (d : Disk) : d.blksz ≤ 512 := Nat.le_of_dvd (by decide) d.divides

lemma blockRead_eq {a n : Nat} (inside : a + n ≤ d.lba) :
    d.blockRead m a n = some (m.read (a * d.blksz) (n * d.blksz)) := by
  have lt := d.lba_lt
  rw [Disk.blockRead, if_neg]
  omega

lemma headerLba_inside (d : Disk) (c : Copy) (room : 33 < d.lba) : d.headerLba c + 1 ≤ d.lba := by
  have lt := d.lba_lt
  cases c with
  | primary => simp only [Disk.headerLba]; omega
  | backup => rw [Disk.headerLba, sub64_eq (by omega) lt]; omega

lemma entriesLba_inside (d : Disk) (c : Copy) (room : 33 < d.lba) : d.entriesLba c + 32 ≤ d.lba := by
  have lt := d.lba_lt
  cases c with
  | primary => simp only [Disk.entriesLba]; omega
  | backup => rw [Disk.entriesLba, gptBackupSize, sub64_eq (by omega) lt]; omega

lemma readGptEntries_eq (room : 33 < d.lba) (place : partitionEntryLba h = d.entriesLba c)
    (fits : 0 < entriesBytes h ∧ entriesBytes h ≤ 32 * d.blksz) :
    readGptEntries d m h = some (m.read (d.entriesLba c * d.blksz) (entriesBytes h)) := by
  have lt := d.lba_lt
  have small := d.blksz_le
  have pos := d.blksz_pos
  have inside := entriesLba_inside d c room
  have count : entriesBytes h % 2 ^ 32 = entriesBytes h := Nat.mod_eq_of_lt (by omega)
  have blocks : (entriesBytes h + d.blksz - 1) / d.blksz ≤ 32 := by
    rw [← Nat.lt_succ_iff, Nat.div_lt_iff_lt_mul pos]
    omega
  have covers : entriesBytes h ≤ (entriesBytes h + d.blksz - 1) / d.blksz * d.blksz := le_roundUp pos
  rw [readGptEntries]
  simp only [count, place]
  rw [if_neg (by omega), Nat.mod_eq_of_lt (by omega), blockRead_eq (by omega), Option.map_some,
    Mem.take_read _ _ covers]

lemma validCopy_iff (room : 33 < d.lba) (held : m.read (d.headerLba c * d.blksz) d.blksz = h)
    (placed : Placed d c h) (fits : 0 < entriesBytes h ∧ entriesBytes h ≤ 32 * d.blksz)
    (array : efiCrc32 (m.read (d.entriesLba c * d.blksz) (entriesBytes h)) = partitionEntryArrayCrc32 h) :
    ValidCopy d m c ↔ signature h = gptHeaderSignature ∧ firstUsableLba h ≤ d.lba ∧
        lastUsableLba h + gptBackupSize < d.lba := by
  have lt := d.lba_lt
  have inside := headerLba_inside d c room
  have small : d.headerLba c % 2 ^ 32 = d.headerLba c := Nat.mod_eq_of_lt (by omega)
  have crc : headerCrc crc32 h = headerCrc32 h := by
    rw [headerCrc, crc32_eq]
    exact placed.crc
  have valid : isGptValid d m (d.headerLba c) = true ↔
      signature h = gptHeaderSignature ∧ firstUsableLba h ≤ d.lba ∧ lastUsableLba h ≤ d.lba := by
    rw [isGptValid, small, blockRead_eq inside, Nat.one_mul, held]
    simp only [readGptEntries_eq room placed.entries fits, crc32_eq, array, validateGptHeader, crc, placed.my]
    simp [and_assoc]
  constructor
  · intro copy
    have usable := copy.usable
    rw [held] at usable
    exact ⟨(valid.mp copy.valid).1, (valid.mp copy.valid).2.1, usable⟩
  · rintro ⟨sig, first, last⟩
    refine ⟨valid.mpr ⟨sig, first, by omega⟩, ?_, ?_, ?_⟩ <;> rw [held]
    · exact placed.alternate
    · exact placed.entries
    · exact last

lemma writeLba_header (d : Disk) (c : Copy) (room : 33 < d.lba) : d.writeLba c + c.headerBlock = d.headerLba c := by
  have lt := d.lba_lt
  cases c with
  | primary => rfl
  | backup =>
    rw [Disk.writeLba, Disk.headerLba, gptBackupSize, sub64_eq (by omega) lt, sub64_eq (by omega) lt,
      Nat.mod_eq_of_lt (by omega), Copy.headerBlock, gptBackupSize]
    omega

lemma writeLba_entries (d : Disk) (c : Copy) (room : 33 < d.lba) : d.writeLba c + c.entriesBlock = d.entriesLba c := by
  have lt := d.lba_lt
  cases c with
  | primary => rfl
  | backup =>
    rw [Disk.writeLba, Disk.entriesLba, gptBackupSize, sub64_eq (by omega) lt, Nat.mod_eq_of_lt (by omega),
      Copy.entriesBlock, Nat.add_zero]

lemma entriesBlock_inside (d : Disk) (c : Copy) : c.entriesBlock * d.blksz + 32 * d.blksz ≤ c.size * d.blksz := by
  cases c <;> simp only [Copy.entriesBlock, Copy.size, gptPrimarySize, gptBackupSize] <;> omega

lemma validCopy_written {dst : Copy} {src : Bytes} (ok : Accepted d src)
    (stored : m.read (d.writeLba dst * d.blksz) (written d dst src).length = written d dst src) :
    ValidCopy d m dst ↔ signature (srcHeader d src) = gptHeaderSignature ∧ firstUsableLba (srcHeader d src) ≤ d.lba ∧
        storedLast d dst src + gptBackupSize < d.lba := by
  have layout := written_layout ok dst
  obtain ⟨placed, table, last⟩ := storedHeader_spec ok dst
  by_cases room : 33 < d.lba
  · have header := writeLba_header d dst room
    have entries := writeLba_entries d dst room
    have inside := headerBlock_inside d dst
    have entriesInside := entriesBlock_inside d dst
    have held : m.read (d.headerLba dst * d.blksz) d.blksz = storedHeader d dst src := by
      rw [← header, Nat.add_mul, Mem.read_slice stored (by rw [layout.length]; exact inside), layout.header]
    have fits := ok.entries
    rw [← table.entriesBytes] at fits
    have array : efiCrc32 (m.read (d.entriesLba dst * d.blksz) (entriesBytes (storedHeader d dst src))) =
        partitionEntryArrayCrc32 (storedHeader d dst src) := by
      rw [← entries, Nat.add_mul, Mem.read_slice stored (by rw [layout.length]; omega),
        layout.entries _ fits.2, table.entriesBytes, ok.array, table.arrayCrc]
    rw [validCopy_iff room held placed fits array, table.signature, table.firstUsable, last]
  · constructor
    · intro copy
      have usable := copy.usable
      rw [gptBackupSize] at usable
      omega
    · rintro ⟨-, -, last⟩
      rw [gptBackupSize] at last
      omega

end Reader

/-- A GPT that the writer stores is valid where it stands exactly when the upload has the signature,
its first usable block is on the device, and its last usable block, clamped if the upload is of the
kind of its target, ends before the backup GPT. -/
theorem gpt_written_valid_iff (d : Disk) (dst : Copy) (src : Bytes) (start : Nat) (data : Bytes) (m : Mem)
    (issued : gptConvertAndWrite d dst src = some (start, data))
    (stored : m.read (start * d.blksz) data.length = data) :
    ValidCopy d m dst ↔
      signature (srcHeader d src) = gptHeaderSignature ∧ firstUsableLba (srcHeader d src) ≤ d.lba ∧
        storedLast d dst src + gptBackupSize < d.lba := by
  rw [gptConvertAndWrite] at issued
  split at issued
  case isFalse => cases issued
  rename_i checks
  obtain ⟨rfl, rfl⟩ : d.writeLba dst = start ∧ written d dst src = data := by simpa using issued
  exact validCopy_written (accepted_of_accepts checks) stored

def smallDisk : Disk := ⟨512, 2048, sector_dvd, by decide⟩

def primaryImage (last : Nat) : Bytes :=
  let h := put (List.replicate 512 0) 0 8 gptHeaderSignature
  let h := put h 12 4 92
  let h := put h 24 8 1
  let h := put h 40 8 34
  let h := put h 48 8 last
  let h := put h 72 8 2
  let h := put h 80 4 1
  let h := put h 84 4 128
  let h := put h 88 4 (efiCrc32 (List.replicate 128 0))
  List.replicate 510 0 ++ [0x55, 0xAA] ++ gptFixHeaderCrc h ++ List.replicate (32 * 512) 0

lemma primaryImage_accepted : accepts smallDisk (primaryImage 4062) = true := by
  decide +kernel

/-- As a primary GPT its last usable block is clamped to the smaller device. -/
theorem gpt_written_valid_primary :
    gptConvertAndWrite smallDisk .primary (primaryImage 4062) =
        some (0, written smallDisk .primary (primaryImage 4062)) ∧
      ValidCopy smallDisk (Mem.write (fun _ => 0) 0 (written smallDisk .primary (primaryImage 4062)))
        .primary := by
  have issued : gptConvertAndWrite smallDisk .primary (primaryImage 4062) =
      some (0, written smallDisk .primary (primaryImage 4062)) := by
    rw [gptConvertAndWrite, if_pos primaryImage_accepted]
    rfl
  refine ⟨issued, (gpt_written_valid_iff _ _ _ _ _ _ issued ?_).mpr ?_⟩
  · rw [Nat.zero_mul, Mem.read_write]
  · decide +kernel

/-- Converted to a backup GPT it keeps a last usable block that the device does not have. -/
theorem gpt_conversion_keeps_last :
    gptConvertAndWrite smallDisk .backup (primaryImage 4062) =
        some (2015, written smallDisk .backup (primaryImage 4062)) ∧
      ¬ ValidCopy smallDisk
        (Mem.write (fun _ => 0) (2015 * 512) (written smallDisk .backup (primaryImage 4062))) .backup := by
  refine ⟨?_, fun valid => ?_⟩
  · rw [gptConvertAndWrite, if_pos primaryImage_accepted]
    rfl
  have place : smallDisk.writeLba .backup * smallDisk.blksz = 2015 * 512 := by decide
  have ok := accepted_of_accepts primaryImage_accepted
  have last := ((validCopy_written ok (by rw [place, Mem.read_write])).mp valid).2.2
  have known : storedLast smallDisk .backup (primaryImage 4062) = 4062 := by decide +kernel
  rw [known] at last
  exact absurd last (by decide)

end ResQBoot.Gpt
