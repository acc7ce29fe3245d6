import ResQBoot.Flash.GptValid

/-!
# Uploads that fit the device

A GPT that is already valid for the device should stay as it is, but the writer bounds `last_usable_lba` of a backup by
one block less than that of a primary.
-/

namespace ResQBoot.Gpt

/-! ### The checks -/

structure Geometry (d : Disk) (h : Bytes) : Prop where
  headerSize : sizeofGptHeader ≤ headerSize h ∧ headerSize h ≤ d.blksz
  count : numPartitionEntries h ≠ 0
  entry : 128 ≤ sizeofPartitionEntry h ∧ sizeofPartitionEntry h ≤ d.blksz ∧ sizeofPartitionEntry h % 128 = 0
  fits : entriesBytes h ≤ 32 * d.blksz

section Checks

variable {d : Disk} {c : Copy} {src : Bytes} {m : Mem}

lemma Geometry.entries {h : Bytes} (geometry : Geometry d h) : 0 < entriesBytes h ∧ entriesBytes h ≤ 32 * d.blksz :=
  ⟨Nat.mul_pos (Nat.pos_of_ne_zero geometry.count) (by have := geometry.entry.1; omega), geometry.fits⟩

lemma accepts_iff : accepts d src = true ↔ (srcCopy src).size * d.blksz ≤ src.length ∧ Geometry d (srcHeader d src) ∧
      headerCrc efiCrc32 (srcHeader d src) = headerCrc32 (srcHeader d src) ∧
      efiCrc32 (slice src ((srcCopy src).entriesBlock * d.blksz) (entriesBytes (srcHeader d src))) =
        partitionEntryArrayCrc32 (srcHeader d src) := by
  constructor
  · intro ok
    obtain ⟨complete, headerSize, crc, entries, array⟩ := accepted_of_accepts ok
    simp only [accepts, Bool.and_eq_true, decide_eq_true_eq] at ok
    obtain ⟨⟨⟨⟨⟨⟨⟨⟨-, count⟩, low⟩, high⟩, whole⟩, -⟩, -⟩, -⟩, -⟩ := ok
    exact ⟨complete, ⟨headerSize, by simpa using count, ⟨low, high, whole⟩, entries.2⟩, crc, array⟩
  · rintro ⟨complete, geometry, crc, array⟩
    have entries := geometry.entries
    have header : gptVerifyHeaderCrc (srcHeader d src) d.blksz = true := by
      simp only [gptVerifyHeaderCrc, Bool.and_eq_true, decide_eq_true_eq]
      exact ⟨geometry.headerSize, crc⟩
    have array : gptVerifyEntriesCrc (srcHeader d src)
        (slice src ((srcCopy src).entriesBlock * d.blksz) (entriesBytes (srcHeader d src))) = true :=
      decide_eq_true array
    have some : entriesBytes (srcHeader d src) ≠ 0 := Nat.pos_iff_ne_zero.mp entries.1
    obtain ⟨low, high, whole⟩ := geometry.entry
    -- the region of a kind has room for two blocks and for the entries
    cases kind : srcCopy src with
    | primary =>
      rw [kind, Copy.size, gptPrimarySize] at complete
      rw [kind] at array
      have first : d.blksz ≤ src.length := by omega
      have second : ¬ src.length < 2 * d.blksz := by omega
      have room : entriesBytes (srcHeader d src) ≤ src.length - 2 * d.blksz := by omega
      simp [accepts, kind, Copy.size, gptPrimarySize, complete, first, second, header, geometry.count, low, high, whole,
        some, entries.2, room, array]
    | backup =>
      rw [kind, Copy.size, gptBackupSize] at complete
      rw [kind] at array
      have first : d.blksz ≤ src.length := by omega
      have room : entriesBytes (srcHeader d src) ≤ src.length - d.blksz := by omega
      simp [accepts, kind, Copy.size, gptPrimarySize, gptBackupSize, complete, first, header, geometry.count, low, high,
        whole, some, entries.2, room, array]

structure ValidHere (d : Disk) (c : Copy) (src : Bytes) (m : Mem) : Prop where
  complete : c.size * d.blksz ≤ src.length
  held : m.read (d.writeLba c * d.blksz) (c.size * d.blksz) = src.take (c.size * d.blksz)
  valid : ValidCopy d m c

section

variable (here : ValidHere d c src m)
include here

lemma ValidHere.room : 33 < d.lba := by
  have usable := here.valid.usable
  rw [gptBackupSize] at usable
  omega

lemma ValidHere.read {o n : Nat} (inside : o + n ≤ c.size * d.blksz) :
    m.read (d.writeLba c * d.blksz + o) n = slice src o n := by
  have length : (src.take (c.size * d.blksz)).length = c.size * d.blksz := by
    rw [List.length_take, Nat.min_eq_left here.complete]
  have held := here.held
  rw [← slice_take inside]
  refine Mem.read_slice ?_ (by rwa [length])
  rwa [length]

lemma ValidHere.header :
    m.read (d.headerLba c * d.blksz) d.blksz = slice src (c.headerBlock * d.blksz) d.blksz := by
  rw [← writeLba_header d c here.room, Nat.add_mul, here.read (headerBlock_inside d c)]

lemma ValidHere.placed : Placed d c (slice src (c.headerBlock * d.blksz) d.blksz) := by
  have lt := d.lba_lt
  have inside := headerLba_inside d c here.room
  have small : d.headerLba c % 2 ^ 32 = d.headerLba c := Nat.mod_eq_of_lt (by omega)
  have valid := here.valid.valid
  rw [isGptValid, small, blockRead_eq inside, Nat.one_mul, here.header] at valid
  simp only [Bool.and_eq_true, validateGptHeader, decide_eq_true_eq] at valid
  obtain ⟨⟨⟨⟨⟨-, crc⟩, my⟩, -⟩, -⟩, -⟩ := valid
  refine ⟨?_, my, ?_, ?_⟩
  · rwa [headerCrc, crc32_eq] at crc
  · rw [← here.header]
    exact here.valid.alternate
  · rw [← here.header]
    exact here.valid.entries

lemma ValidHere.array {h : Bytes} (header : slice src (c.headerBlock * d.blksz) d.blksz = h)
    (fits : 0 < entriesBytes h ∧ entriesBytes h ≤ 32 * d.blksz) :
    efiCrc32 (slice src (c.entriesBlock * d.blksz) (entriesBytes h)) = partitionEntryArrayCrc32 h := by
  have lt := d.lba_lt
  have inside := headerLba_inside d c here.room
  have room := entriesBlock_inside d c
  have small : d.headerLba c % 2 ^ 32 = d.headerLba c := Nat.mod_eq_of_lt (by omega)
  have placed := here.placed
  rw [header] at placed
  have valid := here.valid.valid
  rw [isGptValid, small, blockRead_eq inside, Nat.one_mul, here.header, header] at valid
  simp only [Bool.and_eq_true, readGptEntries_eq here.room placed.entries fits, decide_eq_true_eq] at valid
  rw [← crc32_eq, ← valid.2, ← writeLba_entries d c here.room, Nat.add_mul, here.read (by omega)]

end

end Checks

/-! ### Stored headers -/

section Convert

variable {d : Disk} {c c' : Copy} {h src : Bytes} {m : Mem}

section

variable (len : 92 ≤ h.length)
include len

lemma gptFixHeaderCrc_put (v : Nat) : gptFixHeaderCrc (put h 16 4 v) = gptFixHeaderCrc h := by
  rw [gptFixHeaderCrc, gptFixHeaderCrc, put_put v 0 (by omega)]

lemma gptFixHeaderCrc_eq (crc : headerCrc efiCrc32 h = headerCrc32 h) : gptFixHeaderCrc h = h := by
  have fits : 16 + 4 ≤ h.length := by omega
  have size : headerSize (put h 16 4 0) = headerSize h := (SameTable.put 0 len (by omega)).headerSize
  rw [headerCrc] at crc
  rw [gptFixHeaderCrc, put_put 0 _ fits, size, crc, headerCrc32, put_field fits]

lemma setPlaces_put (v : Nat) : setPlaces d c (put h 16 4 v) = put (setPlaces d c h) 16 4 v := by
  obtain ⟨l₁, l₂⟩ := length_places len (d.headerLba c) (d.headerLba c.other)
  rw [setPlaces, setPlaces, put_comm v _ (by omega) (by omega) (by omega),
    put_comm v _ (by omega) (by omega) (by omega), put_comm v _ (by omega) (by omega) (by omega)]

lemma setPlaces_setPlaces : setPlaces d c (setPlaces d c' h) = setPlaces d c h := by
  have l₁ (v : Nat) : (put h 24 8 v).length = h.length := length_put (by omega) v
  have l₂ (v v' : Nat) := (length_places len v v').2
  rw [setPlaces, setPlaces, setPlaces]
  rw [put_comm (d.entriesLba c') (d.headerLba c) (by rw [l₂]; omega) (by rw [l₂]; omega) (by omega),
    put_comm (d.headerLba c'.other) (d.headerLba c) (by rw [l₁]; omega) (by rw [l₁]; omega) (by omega),
    put_put (d.headerLba c') (d.headerLba c) (by omega),
    put_comm (d.entriesLba c') (d.headerLba c.other) (by rw [l₂]; omega) (by rw [l₂]; omega) (by omega),
    put_put (d.headerLba c'.other) (d.headerLba c.other) (by rw [l₁]; omega),
    put_put (d.entriesLba c') (d.entriesLba c) (by rw [l₂]; omega)]

lemma setPlaces_eq (placed : Placed d c h) : setPlaces d c h = h := by
  have my : put h 24 8 (d.headerLba c) = h := by
    rw [← placed.my]
    exact put_field (by omega)
  have alternate : put h 32 8 (d.headerLba c.other) = h := by
    rw [← placed.alternate]
    exact put_field (by omega)
  have entries : put h 72 8 (d.entriesLba c) = h := by
    rw [← placed.entries]
    exact put_field (by omega)
  rw [setPlaces, my, alternate, entries]

lemma convert_convert (placed : Placed d c h) : convert d c (convert d c' h) = h := by
  have len' : 92 ≤ (setPlaces d c' h).length := (setPlaces_sameTable len).whole len
  have all : 92 ≤ (setPlaces d c (setPlaces d c' h)).length := (setPlaces_sameTable len').whole len'
  obtain ⟨v, inner⟩ : ∃ v, gptFixHeaderCrc (setPlaces d c' h) = put (setPlaces d c' h) 16 4 v :=
    ⟨_, put_put 0 _ (by omega)⟩
  rw [convert, convert, inner, setPlaces_put len', gptFixHeaderCrc_put all, setPlaces_setPlaces len,
    setPlaces_eq len placed, gptFixHeaderCrc_eq len placed.crc]

lemma convert_field {o n : Nat} (apart : o + n ≤ 16 ∨ 80 ≤ o) :
    field (convert d c h) o n = field h o n := by
  have len' : 92 ≤ (setPlaces d c h).length := (setPlaces_sameTable len).whole len
  rw [convert, gptFixHeaderCrc_field len' (by omega), setPlaces_field len (by omega)]

lemma autofix_field {o n : Nat} (apart : o + n ≤ 16 ∨ 80 ≤ o) :
    field (autofix d c h) o n = field h o n := by
  rw [autofix]
  split
  · by_cases far : lastUsableLba h > d.maxLast c
    · have len' : 92 ≤ (setPlaces d c h).length := (setPlaces_sameTable len).whole len
      have len'' : 92 ≤ (put (setPlaces d c h) 48 8 (d.maxLast c)).length := by
        rw [length_put (by omega)]
        exact len'
      simp only [if_pos far]
      rw [gptFixHeaderCrc_field len'' (by omega), field_put_other _ (by omega) (by omega), setPlaces_field len (by omega)]
    · simp only [if_neg far]
      exact convert_field len apart
  · rfl

end

lemma Geometry.stored (geometry : Geometry d (srcHeader d src)) (ok : Accepted d src) (c : Copy) :
    Geometry d (storedHeader d c src) := by
  have table := (storedHeader_spec ok c).2.1
  have same {o n : Nat} (apart : o + n ≤ 16 ∨ 80 ≤ o) :
      field (storedHeader d c src) o n = field (srcHeader d src) o n := by
    rw [storedHeader]
    split
    · exact autofix_field ok.whole apart
    · exact convert_field ok.whole apart
  have count : numPartitionEntries (storedHeader d c src) = numPartitionEntries (srcHeader d src) := same (by omega)
  have size : sizeofPartitionEntry (storedHeader d c src) = sizeofPartitionEntry (srcHeader d src) := same (by omega)
  exact ⟨by rw [table.headerSize]; exact geometry.headerSize, by rw [count]; exact geometry.count,
    by rw [size]; exact geometry.entry, by rw [table.entriesBytes]; exact geometry.fits⟩

lemma accepts_written (ok : accepts d src = true) (kind : srcCopy (written d c src) = c) :
    accepts d (written d c src) = true ∧ srcHeader d (written d c src) = storedHeader d c src := by
  have accepted := accepted_of_accepts ok
  have layout := written_layout accepted c
  obtain ⟨-, geometry, -, array⟩ := accepts_iff.mp ok
  have header : srcHeader d (written d c src) = storedHeader d c src := by
    rw [srcHeader, kind, layout.header]
  obtain ⟨placed, table, -⟩ := storedHeader_spec accepted c
  refine ⟨accepts_iff.mpr ⟨?_, ?_, ?_, ?_⟩, header⟩
  · rw [kind, layout.length]
  · rw [header]
    exact geometry.stored accepted c
  · rw [header]
    exact placed.crc
  · rw [header, kind, table.entriesBytes, layout.entries _ accepted.entries.2, array, table.arrayCrc]

def EndsAsMbr (src : Bytes) : Prop := src.getD (2 * 512 + 510) 0 = 0x55 ∧ src.getD (2 * 512 + 511) 0 = 0xAA

lemma srcCopy_written (sector : d.blksz = 512) (ok : Accepted d src) (kind : srcCopy src = .primary)
    (plain : ¬ EndsAsMbr src) : srcCopy (written d .backup src) = .backup := by
  have complete := ok.complete
  rw [kind, Copy.size, gptPrimarySize, sector] at complete
  have byte (i : Nat) (lt : i < 512) : (written d .backup src).getD i 0 = src.getD (2 * 512 + i) 0 := by
    have length : (slice src (2 * d.blksz) (32 * d.blksz)).length = 32 * d.blksz := length_slice (by omega)
    simp only [written, kind, gptPrimarySize]
    rw [List.getD_append _ _ _ _ (by rw [length]; omega), slice, List.getD_eq_getElem?_getD,
      List.getElem?_take_of_lt (by omega), List.getElem?_drop, sector, List.getD_eq_getElem?_getD]
  rw [srcCopy, byte 510 (by decide), byte 511 (by decide)]
  exact if_neg plain

end Convert

/-! ### Written to its own place -/

section Verbatim

variable {d : Disk} {c : Copy} {src : Bytes}

def Verbatim (d : Disk) (c : Copy) (src : Bytes) : Prop :=
  gptConvertAndWrite d c src = some (d.writeLba c, src.take (c.size * d.blksz))

lemma verbatim_iff : Verbatim d c src ↔ accepts d src = true ∧ written d c src = src.take (c.size * d.blksz) := by
  rw [Verbatim, gptConvertAndWrite]
  split
  · rename_i ok
    simp [ok]
  · rename_i refused
    simp [refused]

lemma autofix_eq {h : Bytes} (placed : Placed d c h) (last : lastUsableLba h ≤ d.maxLast c) : autofix d c h = h := by
  rw [autofix, if_neg]
  rw [placed.my, placed.alternate, placed.entries]
  simpa using last

lemma written_same (kind : srcCopy src = c) : written d c src =
    (patch src (c.headerBlock * d.blksz) (autofix d c (srcHeader d src))).take (c.size * d.blksz) := by
  subst kind
  cases kind : srcCopy src <;> simp only [written, kind, Copy.headerBlock, Copy.size, Nat.one_mul]

end Verbatim

def LeftAlone (d : Disk) (c : Copy) (src : Bytes) : Prop :=
  if srcCopy src = c then Geometry d (srcHeader d src) ∧ lastUsableLba (srcHeader d src) ≤ d.maxLast c
  else accepts d src = true ∧ written d c src = src.take (c.size * d.blksz)

theorem gpt_verbatim_iff (d : Disk) (c : Copy) (src : Bytes) (m : Mem) (here : ValidHere d c src m) :
    Verbatim d c src ↔ LeftAlone d c src := by
  rw [verbatim_iff, LeftAlone]
  by_cases kind : srcCopy src = c
  · have header : slice src (c.headerBlock * d.blksz) d.blksz = srcHeader d src := by rw [srcHeader, kind]
    have placed := here.placed
    rw [header] at placed
    have inside : c.headerBlock * d.blksz + d.blksz ≤ src.length :=
      Nat.le_trans (headerBlock_inside d c) here.complete
    rw [if_pos kind, written_same kind]
    constructor
    · rintro ⟨ok, same⟩
      have geometry := (accepts_iff.mp ok).2.1
      have accepted := accepted_of_accepts ok
      refine ⟨geometry, ?_⟩
      -- the header that is written is that of the upload, so its last usable block was not clamped
      obtain ⟨-, table, last⟩ := autofix_spec (d := d) (c := c) accepted.whole accepted.crc
      have length : (autofix d c (srcHeader d src)).length = d.blksz := table.length.trans accepted.length
      have fixed : slice (patch src (c.headerBlock * d.blksz) (autofix d c (srcHeader d src))) (c.headerBlock * d.blksz)
          (autofix d c (srcHeader d src)).length = autofix d c (srcHeader d src) :=
        slice_patch_same (by rw [length]; exact inside)
      rw [length, ← slice_take (headerBlock_inside d c), same, slice_take (headerBlock_inside d c), header] at fixed
      rw [← fixed, Disk.clamp] at last
      split at last <;> omega
    · rintro ⟨geometry, last⟩
      have complete := here.complete
      have array := here.array header geometry.entries
      refine ⟨accepts_iff.mpr ⟨by rw [kind]; exact complete, geometry, placed.crc, by rw [kind]; exact array⟩, ?_⟩
      rw [autofix_eq placed last, ← header, patch_slice inside]
  · rw [if_neg kind]

lemma validHere_written {d : Disk} {dst : Copy} {src : Bytes} (ok : Accepted d src) (m : Mem) (a : Nat)
    (place : a = d.writeLba dst * d.blksz)
    (valid : signature (srcHeader d src) = gptHeaderSignature ∧ firstUsableLba (srcHeader d src) ≤ d.lba ∧
      storedLast d dst src + gptBackupSize < d.lba) :
    ValidHere d dst (written d dst src) (m.write a (written d dst src)) := by
  subst place
  have length := (written_layout ok dst).length
  have stored := Mem.read_write m (d.writeLba dst * d.blksz) (written d dst src)
  refine ⟨Nat.le_of_eq length.symm, ?_, (validCopy_written ok stored).mpr valid⟩
  rwa [← length, List.take_length]

def smallPrimary : Bytes := written smallDisk .primary (primaryImage 4062)

def smallBackup : Bytes := written smallDisk .backup smallPrimary

lemma primaryImage_valid : signature (srcHeader smallDisk (primaryImage 4062)) = gptHeaderSignature ∧
    firstUsableLba (srcHeader smallDisk (primaryImage 4062)) ≤ smallDisk.lba ∧
    storedLast smallDisk .primary (primaryImage 4062) = 2014 := by
  decide +kernel

lemma smallPrimary_kind : srcCopy smallPrimary = .primary := by decide +kernel

lemma smallPrimary_plain : ¬ EndsAsMbr smallPrimary := by
  rw [EndsAsMbr]
  decide +kernel

lemma smallPrimary_accepts : accepts smallDisk smallPrimary = true ∧
    srcHeader smallDisk smallPrimary = storedHeader smallDisk .primary (primaryImage 4062) :=
  accepts_written primaryImage_accepted smallPrimary_kind

lemma smallPrimary_header : signature (srcHeader smallDisk smallPrimary) = gptHeaderSignature ∧
    firstUsableLba (srcHeader smallDisk smallPrimary) ≤ smallDisk.lba ∧
    lastUsableLba (srcHeader smallDisk smallPrimary) = 2014 := by
  obtain ⟨-, table, last⟩ := storedHeader_spec (accepted_of_accepts primaryImage_accepted) .primary
  obtain ⟨sig, first, known⟩ := primaryImage_valid
  rw [smallPrimary_accepts.2]
  exact ⟨table.signature.trans sig, by rw [table.firstUsable]; exact first, last.trans known⟩

lemma smallPrimary_here : ValidHere smallDisk .primary smallPrimary (Mem.write (fun _ => 0) 0 smallPrimary) := by
  obtain ⟨sig, first, last⟩ := primaryImage_valid
  refine validHere_written (accepted_of_accepts primaryImage_accepted) _ 0 rfl ⟨sig, first, ?_⟩
  rw [last]
  decide

theorem gpt_verbatim_smallPrimary : Verbatim smallDisk .primary smallPrimary := by
  refine (gpt_verbatim_iff smallDisk .primary smallPrimary _ smallPrimary_here).mpr ?_
  rw [LeftAlone, if_pos smallPrimary_kind, smallPrimary_header.2.2]
  exact ⟨(accepts_iff.mp smallPrimary_accepts.1).2.1, by decide⟩

/-- The backup GPT names the last usable block of the primary, and the writer lowers it. -/
theorem gpt_backup_lowered :
    ValidHere smallDisk .backup smallBackup (Mem.write (fun _ => 0) (2015 * 512) smallBackup) ∧
    gptConvertAndWrite smallDisk .backup smallBackup = some (2015, written smallDisk .backup smallBackup) ∧
    lastUsableLba (slice smallBackup (32 * 512) 512) = smallDisk.lba - 34 ∧
    lastUsableLba (slice (written smallDisk .backup smallBackup) (32 * 512) 512) = smallDisk.lba - 35 ∧
    ¬ Verbatim smallDisk .backup smallBackup := by
  have accepted := accepted_of_accepts smallPrimary_accepts.1
  have kind : srcCopy smallBackup = .backup := srcCopy_written rfl accepted smallPrimary_kind smallPrimary_plain
  obtain ⟨ok, header⟩ : accepts smallDisk smallBackup = true ∧
      srcHeader smallDisk smallBackup = storedHeader smallDisk .backup smallPrimary :=
    accepts_written smallPrimary_accepts.1 kind
  obtain ⟨sig, first, known⟩ := smallPrimary_header
  have kept : storedLast smallDisk .backup smallPrimary = 2014 := by
    rw [storedLast, if_neg (by rw [smallPrimary_kind]; decide), known]
  have before : lastUsableLba (srcHeader smallDisk smallBackup) = 2014 := by
    rw [header, (storedHeader_spec accepted .backup).2.2, kept]
  have after : lastUsableLba (slice (written smallDisk .backup smallBackup) (32 * 512) 512) = 2013 := by
    have again := accepted_of_accepts ok
    have layout : slice (written smallDisk .backup smallBackup) (32 * 512) 512 = storedHeader smallDisk .backup smallBackup :=
      (written_layout again .backup).header
    rw [layout, (storedHeader_spec again .backup).2.2, storedLast, if_pos kind, before]
    decide
  have block : srcHeader smallDisk smallBackup = slice smallBackup (32 * 512) 512 := by
    rw [srcHeader, kind]
    rfl
  rw [block] at before
  refine ⟨validHere_written accepted _ _ rfl ⟨sig, first, ?_⟩, ?_, before, after, ?_⟩
  · rw [kept]
    decide
  · rw [gptConvertAndWrite, if_pos ok]
    rfl
  · intro verbatim
    rw [(verbatim_iff.mp verbatim).2, slice_take (by decide), before] at after
    exact absurd after (by decide)

/-! ### Converted and back -/

section Back

variable {d : Disk} {src : Bytes}

structure ProtectiveMbr (d : Disk) (sector : Bytes) : Prop where
  kind : slice sector (446 + 4) 1 = [0xEE]
  start : field sector (446 + 8) 4 = 1
  size : field sector (446 + 12) 4 + 1 = d.lba
  mark : slice sector 510 2 = [0x55, 0xAA]

lemma mbrBuffer_protective (sector : d.blksz = 512) (pos : 1 ≤ d.lba) : ProtectiveMbr d (mbrBuffer d) := by
  have lt := d.lba_lt
  have last : sub64 d.lba 1 = d.lba - 1 := sub64_eq pos lt
  have l₀ : (List.replicate (gptPrimarySize * d.blksz) (0 : UInt8)).length = 34 * 512 := by
    rw [List.length_replicate, sector, gptPrimarySize]
  have l₁ : (patch (List.replicate (gptPrimarySize * d.blksz) 0) (446 + 4) [0xEE]).length = 34 * 512 :=
    (length_patch (by rw [l₀]; decide)).trans l₀
  have l₂ := (length_put (o := 446 + 8) (n := 4) (by rw [l₁]; decide) 1).trans l₁
  have l₃ := (length_put (o := 446 + 12) (n := 4) (by rw [l₂]; decide) (sub64 d.lba 1)).trans l₂
  have outer (o n : Nat) (apart : o + n ≤ 510) : slice (mbrBuffer d) o n =
      slice (put (put (patch (List.replicate (gptPrimarySize * d.blksz) 0) (446 + 4) [0xEE]) (446 + 8) 4 1) (446 + 12) 4
        (sub64 d.lba 1)) o n := by
    rw [mbrBuffer, slice_patch_other (by rw [l₃]; decide) (.inl apart)]
  refine ⟨?_, ?_, ?_, ?_⟩
  · have kind := @slice_patch_same (List.replicate (gptPrimarySize * d.blksz) 0) [0xEE] (446 + 4) (by rw [l₀]; decide)
    rw [outer _ _ (by decide), put, put, slice_patch_other (by rw [← put, length_toLe, l₂]; decide) (.inl (by decide)),
      slice_patch_other (by rw [length_toLe, l₁]; decide) (.inl (by decide))]
    exact kind
  · rw [field, outer _ _ (by decide), ← field, field_put_other _ (by rw [l₂]; decide) (by decide),
      field_put_same (by rw [l₁]; decide) (by decide)]
  · rw [field, outer _ _ (by decide), ← field, field_put_same (by rw [l₂]; decide) (by rw [last]; omega), last]
    omega
  · exact slice_patch_same (by rw [l₃]; decide)

lemma back_sectors (sector : d.blksz = 512) (ok : Accepted d src) (kind : srcCopy src = .backup) {orig : Bytes}
    (header : convert d .primary (srcHeader d src) = slice orig 512 512)
    (entries : slice src 0 (32 * 512) = slice orig (2 * 512) (32 * 512)) :
    slice (written d .primary src) 512 (33 * 512) = slice orig 512 (33 * 512) := by
  have layout := written_layout ok .primary
  have first := layout.header
  rw [storedHeader, if_neg (by rw [kind]; decide), header, sector] at first
  have rest := layout.entries (32 * d.blksz) (Nat.le_refl _)
  rw [kind, sector] at rest
  rw [show 33 * 512 = 512 + 32 * 512 from rfl, slice_add, slice_add orig]
  exact congrArg₂ _ first (rest.trans entries)

lemma back_mbr (sector : d.blksz = 512) (ok : Accepted d src) (kind : srcCopy src = .backup) (pos : 1 ≤ d.lba) :
    ProtectiveMbr d (written d .primary src) := by
  have protective := mbrBuffer_protective sector pos
  have whole := mbrBuffer_length d ok.large
  have length : (convert d .primary (srcHeader d src)).length = 512 := by
    rw [(convert_spec ok.whole).2.1.length, ok.length, sector]
  have complete := ok.complete
  rw [kind, Copy.size, gptBackupSize, sector] at complete
  have half : (slice src 0 (32 * d.blksz)).length = 32 * 512 := by rw [length_slice (by omega), sector]
  rw [gptPrimarySize, sector] at whole
  have fits : d.blksz + (convert d .primary (srcHeader d src)).length ≤ (mbrBuffer d).length := by omega
  have fits' : 2 * d.blksz + (slice src 0 (32 * d.blksz)).length ≤
      (patch (mbrBuffer d) d.blksz (convert d .primary (srcHeader d src))).length := by
    rw [length_patch fits]
    omega
  -- header and entries stand behind sector 0
  have same (o n : Nat) (inside : o + n ≤ 512) : slice (written d .primary src) o n = slice (mbrBuffer d) o n := by
    simp only [written, kind]
    exact (slice_patch_other fits' (by omega)).trans (slice_patch_other fits (by omega))
  refine ⟨?_, ?_, ?_, ?_⟩
  · rw [same _ _ (by decide)]
    exact protective.kind
  · rw [field, same _ _ (by decide)]
    exact protective.start
  · rw [field, same _ _ (by decide)]
    exact protective.size
  · rw [same _ _ (by decide)]
    exact protective.mark

end Back

def RoundTrip (d : Disk) (src : Bytes) : Prop :=
  ∃ copy back, gptConvertAndWrite d .backup src = some (d.writeLba .backup, copy) ∧
    gptConvertAndWrite d .primary copy = some (0, back) ∧
    slice back 512 (33 * 512) = slice src 512 (33 * 512) ∧ ProtectiveMbr d back

theorem gpt_conversions_inverse (d : Disk) (src : Bytes) (m : Mem) (sector : d.blksz = 512)
    (here : ValidHere d .primary src m) (kind : srcCopy src = .primary) (plain : ¬ EndsAsMbr src) :
    (Geometry d (srcHeader d src) → RoundTrip d src) ∧
      (¬ Geometry d (srcHeader d src) → gptConvertAndWrite d .backup src = none) := by
  have header : slice src (Copy.headerBlock .primary * d.blksz) d.blksz = srcHeader d src := by rw [srcHeader, kind]
  have placed := here.placed
  rw [header] at placed
  have room := here.room
  constructor
  · intro geometry
    have array := here.array header geometry.entries
    have ok : accepts d src = true :=
      accepts_iff.mpr ⟨by rw [kind]; exact here.complete, geometry, placed.crc, by rw [kind]; exact array⟩
    have accepted := accepted_of_accepts ok
    have copyKind := srcCopy_written sector accepted kind plain
    obtain ⟨copyOk, copyHeader⟩ := accepts_written ok copyKind
    rw [storedHeader, if_neg (by rw [kind]; decide)] at copyHeader
    have copyAccepted := accepted_of_accepts copyOk
    refine ⟨written d .backup src, written d .primary (written d .backup src), if_pos ok, if_pos copyOk, ?_,
      back_mbr sector copyAccepted copyKind (by omega)⟩
    apply back_sectors sector copyAccepted copyKind
    · rw [copyHeader, convert_convert accepted.whole placed, ← header, sector]
      rfl
    · have entries := (written_layout accepted .backup).entries (32 * d.blksz) (Nat.le_refl _)
      rwa [kind, sector] at entries
  · intro odd
    refine if_neg ?_
    intro ok
    exact odd (accepts_iff.mp ok).2.1

theorem gpt_conversions_smallPrimary : RoundTrip smallDisk smallPrimary :=
  (gpt_conversions_inverse smallDisk smallPrimary _ rfl smallPrimary_here smallPrimary_kind smallPrimary_plain).1
    (accepts_iff.mp smallPrimary_accepts.1).2.1

end ResQBoot.Gpt
