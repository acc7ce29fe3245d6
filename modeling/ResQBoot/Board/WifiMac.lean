import ResQBoot.Board.Macaddr
import ResQBoot.Lib.Fields

/-!
# The checksum of a calibration area

`macaddr_modify_wifi` makes the XOR of the 16-bit words of the area `0xFFFF`. On IPQ40xx and IPQ806x these are
always the words of 12064 bytes, whatever the header declares.
-/

namespace ResQBoot

open Failsafe (isValidEthaddr)

/-! ### The XOR of the words -/

lemma le16_word (v : UInt16) : v.toUInt8.toUInt16 ||| (v >>> 8).toUInt8.toUInt16 <<< 8 = v := by
  apply UInt16.toBitVec_inj.mp
  apply BitVec.eq_of_getLsbD_eq
  intro i lt
  simp only [UInt16.toBitVec_or, UInt8.toBitVec_toUInt16, UInt16.toBitVec_toUInt8, UInt16.toBitVec_shiftLeft,
    UInt16.toBitVec_shiftRight, BitVec.getLsbD_or]
  by_cases low : i < 8
  · simp [low, lt]
  · have high : i - 8 < 8 := by omega
    have same : 8 + (i - 8) = i := by omega
    simp [low, lt, high, same]

section Xor

variable {bs xs cal : Bytes} {o : Nat}

lemma xor16_acc : ∀ (bs : Bytes) (cs : UInt16), xor16Checksum bs cs = cs ^^^ xor16Checksum bs 0
  | [], cs => by simp [xor16Checksum]
  | [_], cs => by simp [xor16Checksum]
  | lo :: hi :: rest, cs => by
    rw [xor16Checksum, xor16Checksum, xor16_acc rest, xor16_acc rest (0 ^^^ _), UInt16.zero_xor, UInt16.xor_assoc]

lemma xor16_append : ∀ {xs : Bytes} (ys : Bytes), xs.length % 2 = 0 →
    xor16Checksum (xs ++ ys) 0 = xor16Checksum xs 0 ^^^ xor16Checksum ys 0
  | [], ys, _ => by simp [xor16Checksum]
  | [_], _, even => by cases even
  | lo :: hi :: rest, ys, even => by
    have even' : rest.length % 2 = 0 := by
      simp only [List.length_cons] at even
      omega
    rw [List.cons_append, List.cons_append, xor16Checksum, xor16Checksum, xor16_acc, xor16_acc rest, xor16_append ys even']
    simp only [UInt16.xor_assoc]

lemma xor16_patch {v : Bytes} (two : v.length = 2) (even : o % 2 = 0) (fits : o + 2 ≤ cal.length) :
    xor16Checksum (patch cal o v) 0 =
      xor16Checksum (cal.take o) 0 ^^^ (xor16Checksum v 0 ^^^ xor16Checksum (cal.drop (o + 2)) 0) := by
  have half : (cal.take o).length % 2 = 0 := by
    rw [List.length_take, Nat.min_eq_left (by omega)]
    exact even
  rw [patch, two, List.append_assoc, xor16_append _ half, xor16_append _ (by rw [two])]

lemma xor16_le16 (v : UInt16) : xor16Checksum (le16 v) 0 = v := by
  rw [le16, xor16Checksum, xor16Checksum, UInt16.zero_xor, le16_word]
  rintro lo hi rest ⟨⟩

lemma xor16_replace {v w : UInt16} (even : o % 2 = 0) (fits : o + 2 ≤ cal.length) :
    xor16Checksum (patch cal o (le16 w)) 0 = xor16Checksum (patch cal o (le16 v)) 0 ^^^ (v ^^^ w) := by
  rw [xor16_patch (length_le16 w) even fits, xor16_patch (length_le16 v) even fits, xor16_le16, xor16_le16]
  generalize xor16Checksum (cal.take o) 0 = a
  generalize xor16Checksum (cal.drop (o + 2)) 0 = b
  have cancel : v ^^^ (v ^^^ w) = w := by rw [← UInt16.xor_assoc, UInt16.xor_self, UInt16.zero_xor]
  rw [UInt16.xor_comm v b, UInt16.xor_assoc a, UInt16.xor_assoc b, cancel, UInt16.xor_comm w b]

end Xor

/-! ### The edited area -/

section Edited

variable {cal : Bytes} {macOff : Nat}

def unsummed (cal : Bytes) (macOff : Nat) (newMac : Bytes) : Bytes :=
  patch (patch (patch cal artCalCrc [0, 0]) macOff newMac) artCalCrc [0, 0]

lemma artCal_eq (cal : Bytes) (macOff : Nat) (newMac : Bytes) : artCal cal macOff newMac =
    patch (unsummed cal macOff newMac) artCalCrc (le16 (xor16Checksum (unsummed cal macOff newMac) 0 ^^^ 0xFFFF)) := rfl

variable (mac : Mac) (crc : 12 ≤ cal.length) (fits : macOff + 6 ≤ cal.length)

include crc in
lemma length_cleared : (patch cal artCalCrc [0, 0]).length = cal.length := length_patch crc

include crc fits

lemma length_addressed : (patch (patch cal artCalCrc [0, 0]) macOff mac.1).length = cal.length := by
  have len := length_cleared crc
  rw [length_patch (by rw [mac.2, len]; exact fits), len]

lemma length_unsummed : (unsummed cal macOff mac.1).length = cal.length := by
  have len := length_addressed mac crc fits
  rw [unsummed, length_patch (by rw [len]; exact crc), len]

lemma length_artCal : (artCal cal macOff mac.1).length = cal.length := by
  have len := length_unsummed mac crc fits
  rw [artCal_eq, length_patch (by rw [len]; exact crc), len]

lemma patch_unsummed : patch (unsummed cal macOff mac.1) artCalCrc [0, 0] = unsummed cal macOff mac.1 :=
  patch_patch (by rw [length_addressed mac crc fits]; exact crc) rfl

lemma artCal_xor : xor16Checksum (artCal cal macOff mac.1) 0 = 0xFFFF := by
  have len := length_unsummed mac crc fits
  have zeroed : patch (unsummed cal macOff mac.1) artCalCrc (le16 0) = unsummed cal macOff mac.1 :=
    patch_unsummed mac crc fits
  rw [artCal_eq, xor16_replace (v := 0) (by decide) (by rw [len]; exact crc), zeroed, UInt16.zero_xor, ← UInt16.xor_assoc,
    UInt16.xor_self, UInt16.zero_xor]

lemma slice_artCal_other {o n : Nat} (sum : o + n ≤ 10 ∨ 12 ≤ o) (apart : o + n ≤ macOff ∨ macOff + 6 ≤ o) :
    slice (artCal cal macOff mac.1) o n = slice cal o n := by
  rw [artCal_eq, slice_patch_other (by rw [length_unsummed mac crc fits]; exact crc) sum, unsummed,
    slice_patch_other (by rw [length_addressed mac crc fits]; exact crc) sum,
    slice_patch_other (by rw [mac.2, length_cleared crc]; exact fits) (by rw [mac.2]; exact apart),
    slice_patch_other crc sum]

lemma slice_unsummed_mac (behind : 12 ≤ macOff) : slice (unsummed cal macOff mac.1) macOff 6 = mac.1 := by
  have same : slice (patch (patch cal artCalCrc [0, 0]) macOff mac.1) macOff mac.1.length = mac.1 :=
    slice_patch_same (by rw [mac.2, length_cleared crc]; exact fits)
  rw [mac.2] at same
  rw [unsummed, slice_patch_other (by rw [length_addressed mac crc fits]; exact crc) (.inr behind), same]

lemma slice_artCal_mac (behind : 12 ≤ macOff) : slice (artCal cal macOff mac.1) macOff 6 = mac.1 := by
  rw [artCal_eq, slice_patch_other (by rw [length_unsummed mac crc fits]; exact crc) (.inr behind),
    slice_unsummed_mac mac crc fits behind]

lemma artCal_artCal (behind : 12 ≤ macOff) :
    artCal (artCal cal macOff mac.1) macOff mac.1 = artCal cal macOff mac.1 := by
  have len := length_unsummed mac crc fits
  have cleared : patch (artCal cal macOff mac.1) artCalCrc [0, 0] = unsummed cal macOff mac.1 := by
    rw [artCal_eq]
    exact (patch_patch (by rw [len]; exact crc) (by rfl)).trans (patch_unsummed mac crc fits)
  have addressed : patch (unsummed cal macOff mac.1) macOff mac.1 = unsummed cal macOff mac.1 := by
    have same : patch (unsummed cal macOff mac.1) macOff (slice (unsummed cal macOff mac.1) macOff 6) =
        unsummed cal macOff mac.1 := patch_slice (by rw [len]; exact fits)
    rwa [slice_unsummed_mac mac crc fits behind] at same
  have again : unsummed (artCal cal macOff mac.1) macOff mac.1 = unsummed cal macOff mac.1 := by
    rw [unsummed, cleared, addressed, patch_unsummed mac crc fits]
  rw [artCal_eq (artCal cal macOff mac.1), again, ← artCal_eq]

end Edited

/-! ### Reading back -/

def readWifiArt (soc : Soc) (f : ArtFlash) (wifiIndex : Int) : Except Errno Bytes :=
  if wifiIndex < 0 ∨ wifiIndex ≥ wifiCalMaxIdx then .error .einval
  else
    let calOff := soc.calOffset (wifiIndex.toNat / 2)
    let macOff := artCalMac0 + wifiIndex.toNat % 2 * artMacLen
    do
      let hdr ← f.artRead calOff 16
      if hdr.getD 0 0 ≠ 0x01 then .error .enosys
      else
        let cal ← f.artRead calOff (artCalSize hdr)
        return slice cal macOff artMacLen

def wifiCsValidArt (soc : Soc) (f : ArtFlash) (wifiIndex : Int) : Bool :=
  if wifiIndex < 0 ∨ wifiIndex ≥ wifiCalMaxIdx then false
  else
    let calOff := soc.calOffset (wifiIndex.toNat / 2)
    match f.artRead calOff 16 with
    | .error _ => false
    | .ok hdr =>
      if hdr.getD 0 0 ≠ 0x01 then false
      else
        match f.artRead calOff (artCalSize hdr) with
        | .error _ => false
        | .ok cal => xor16Checksum cal 0 = 0xFFFF

def sibling (wifiIndex : Int) : Int := if wifiIndex % 2 = 0 then wifiIndex + 1 else wifiIndex - 1

def ArtFlash.Holds (f : ArtFlash) (offset : Nat) (bs : Bytes) : Prop :=
  ∀ n ≤ bs.length, f.artRead offset n = .ok (bs.take n)

def ArtFlash.Stored (f f' : ArtFlash) (offset : Nat) : Prop :=
  ∀ buf, f.artWrite offset buf = .ok f' → f'.Holds offset buf

/-! ### Writing again

Whether a write is accepted does not depend on the cells. -/

variable {f f' : ArtFlash} {buf : Bytes} {m : Mem} {offset : Nat}

lemma Nor.artWrite_accepts {n : Nor} {m' : Mem} {a : Nat} (ok : n.artWrite m a buf = .ok m') (other : Mem) :
    ∃ m'', n.artWrite other a buf = .ok m'' := by
  simp only [Nor.artWrite, Nor.eraseOps, Nor.writeOps] at ok ⊢
  split_ifs at ok ⊢ <;> first | cases ok; done | exact ⟨_, rfl⟩

lemma ArtFlash.written_accepts (ok : f.written offset buf = .ok m)
    (other : Mem) : ∃ m', ArtFlash.written { f with cells := other } offset buf = .ok m' := by
  rw [ArtFlash.written]
  obtain ⟨mmc, start, part, -⟩ | ⟨noMmc, base, part, kind⟩ := written_ok ok
  · rw [if_pos mmc, part]
    exact ⟨_, rfl⟩
  have place : ArtFlash.artPartOffset { f with cells := other } = some base := part
  rw [if_neg noMmc, place]
  simp only
  obtain ⟨nor, ok⟩ | ⟨noNor, nand, ok⟩ := kind
  · rw [if_pos nor]
    exact Nor.artWrite_accepts ok other
  · rw [if_neg noNor, if_pos nand]
    exact Nand.artWrite_accepts ok other

lemma ArtFlash.artWrite_again (aligned : 512 ∣ offset)
    (ok : f.artWrite offset buf = .ok f') : f'.artWrite offset buf = .ok f' := by
  have cells := artWrite_cells aligned ok
  obtain ⟨m, first, rfl⟩ := artWrite_ok ok
  obtain ⟨m', second⟩ := written_accepts first m
  have again : ArtFlash.artWrite { f with cells := m } offset buf = .ok { f with cells := m' } := by
    rw [ArtFlash.artWrite, second]
    rfl
  rw [again]
  congr 2
  funext x
  have here := cells x
  have there := artWrite_cells aligned again x
  have touches : ArtFlash.Touches { f with cells := m } offset buf.length x ↔ f.Touches offset buf.length x := Iff.rfl
  simp only [touches] at there
  split at here
  · rename_i inside
    rw [if_pos inside] at there
    exact there.trans here.symm
  · rename_i outside
    rw [if_neg outside] at there
    exact there

lemma ArtFlash.artRead_written (ok : f.written offset buf = .ok m)
    (o n : Nat) : ∃ got, ArtFlash.artRead { f with cells := m } o n = .ok got := by
  rw [ArtFlash.artRead]
  obtain ⟨mmc, start, part, -⟩ | ⟨noMmc, base, part, kind⟩ := written_ok ok
  · rw [if_pos mmc, part]
    exact ⟨_, rfl⟩
  have place : ArtFlash.artPartOffset { f with cells := m } = some base := part
  rw [if_neg noMmc, place]
  simp only
  obtain ⟨nor, -⟩ | ⟨noNor, nand, -⟩ := kind
  · rw [if_pos nor]
    exact ⟨_, rfl⟩
  · rw [if_neg noNor, if_pos nand]
    exact ⟨_, rfl⟩

lemma ArtFlash.artRead_part {o n : Nat} (aligned : 512 ∣ offset) (ok : f.artWrite offset buf = .ok f')
    (served : f.flashType = .mmcFlash → ∀ b, f.emmc.readable b = true ∧ f.emmc.writable b = true)
    (inside : o + n ≤ buf.length) : f'.artRead (offset + o) n = .ok (slice buf o n) := by
  have cells := artWrite_cells aligned ok
  obtain ⟨m, write, rfl⟩ := artWrite_ok ok
  obtain ⟨got, read⟩ := artRead_written write (offset + o) n
  rw [read, artRead_true read fun mmc b => (served mmc b).1]
  congr 1
  refine List.ext_getElem (by rw [Mem.length_read, length_slice inside]) ?_
  intro k lt lt'
  have bound : k < n := by simpa using lt
  have span := f.le_span buf.length
  have touched : f.Touches offset buf.length (f.base + offset + (o + k)) :=
    ⟨⟨Nat.le_add_right _ _, by omega⟩, fun mmc => (served mmc _).2⟩
  have cell := cells (f.base + offset + (o + k))
  rw [if_pos touched, Nat.add_sub_cancel_left, List.getD_eq_getElem _ _ (by omega)] at cell
  simp only [slice, List.getElem_take, List.getElem_drop, ← cell]
  simp only [Mem.read, List.getElem_map, List.getElem_range]
  congr 1
  simp only [ArtFlash.base, ArtFlash.artPartOffset]
  omega

lemma ArtFlash.stored_of_served (aligned : 512 ∣ offset)
    (served : f.flashType = .mmcFlash → ∀ b, f.emmc.readable b = true ∧ f.emmc.writable b = true) :
    f.Stored f' offset := by
  intro buf ok n le
  exact artRead_part (o := 0) aligned ok served (by omega)

section Held

variable {soc : Soc} {f f' : ArtFlash} {i : Int} {cal : Bytes}

/-- The offset of the area of an index and that of its address in the area. -/
abbrev Soc.areaOf (soc : Soc) (wifiIndex : Int) : Nat := soc.calOffset (wifiIndex.toNat / 2)

abbrev macOffOf (wifiIndex : Int) : Nat := artCalMac0 + wifiIndex.toNat % 2 * artMacLen

lemma artCalSize_ge (hdr : Bytes) : 0x10000 ≤ artCalSize hdr := by
  rw [artCalSize]
  split <;> decide

lemma header_held (held : f.Holds (soc.areaOf i) cal) (block : cal.length = artCalSize cal) :
    f.artRead (soc.areaOf i) 16 = .ok (cal.take 16) ∧ (cal.take 16).getD 0 0 = cal.getD 0 0 ∧
      f.artRead (soc.areaOf i) (artCalSize (cal.take 16)) = .ok cal := by
  have large := artCalSize_ge cal
  have same (k : Nat) (lt : k < 16) : (cal.take 16).getD k 0 = cal.getD k 0 := by
    rw [List.getD_eq_getElem?_getD, List.getElem?_take_of_lt lt, List.getD_eq_getElem?_getD]
  have size : artCalSize (cal.take 16) = cal.length := by
    rw [block, artCalSize, artCalSize, same 9 (by decide)]
  refine ⟨held 16 (by omega), same 0 (by decide), ?_⟩
  rw [size, held _ (Nat.le_refl _), List.take_length]

lemma modifyWifi_held (family : soc.ath10k = false) (held : f.Holds (soc.areaOf i) cal)
    (block : cal.length = artCalSize cal) (mac : Mac) : macaddrModifyWifi soc f mac i =
      if !isValidEthaddr mac.1 ∨ i < 0 ∨ i ≥ wifiCalMaxIdx then .error .einval
      else if cal.getD 0 0 ≠ 0x01 then .error .enosys
      else f.artWrite (soc.areaOf i) (artCal cal (macOffOf i) mac.1) := by
  obtain ⟨header, first, area⟩ := header_held held block
  rw [macaddrModifyWifi, family, modifyWifiArt]
  simp only [Bool.false_eq_true, if_false]
  split
  · rfl
  change (f.artRead (soc.areaOf i) 16 >>= _) = _
  rw [header]
  change (if (cal.take 16).getD 0 0 ≠ 0x01 then _ else _) = _
  rw [first]
  split
  · rfl
  · rw [area]
    rfl

lemma readWifi_held (held : f.Holds (soc.areaOf i) cal) (block : cal.length = artCalSize cal) : readWifiArt soc f i =
      if i < 0 ∨ i ≥ wifiCalMaxIdx then .error .einval
      else if cal.getD 0 0 ≠ 0x01 then .error .enosys
      else .ok (slice cal (macOffOf i) artMacLen) := by
  obtain ⟨header, first, area⟩ := header_held held block
  rw [readWifiArt]
  split
  · rfl
  change (f.artRead (soc.areaOf i) 16 >>= _) = _
  rw [header]
  change (if (cal.take 16).getD 0 0 ≠ 0x01 then _ else _) = _
  rw [first]
  split
  · rfl
  · rw [area]
    rfl

lemma csValid_held (held : f.Holds (soc.areaOf i) cal) (block : cal.length = artCalSize cal) : wifiCsValidArt soc f i =
      if i < 0 ∨ i ≥ wifiCalMaxIdx then false
      else if cal.getD 0 0 ≠ 0x01 then false
      else decide (xor16Checksum cal 0 = 0xFFFF) := by
  obtain ⟨header, first, area⟩ := header_held held block
  rw [wifiCsValidArt]
  simp only [header, first, area]

lemma areaOf_sibling (soc : Soc) (low : 0 ≤ i) (high : i < 6) :
    soc.areaOf (sibling i) = soc.areaOf i ∧ 0 ≤ sibling i ∧ sibling i < 6 ∧
      (macOffOf (sibling i) + 6 ≤ macOffOf i ∨ macOffOf i + 6 ≤ macOffOf (sibling i)) ∧
      14 ≤ macOffOf i ∧ macOffOf i ≤ 20 ∧ 14 ≤ macOffOf (sibling i) := by
  obtain rfl | rfl | rfl | rfl | rfl | rfl : i = 0 ∨ i = 1 ∨ i = 2 ∨ i = 3 ∨ i = 4 ∨ i = 5 := by omega
  all_goals
    refine ⟨rfl, ?_⟩
    decide

end Held

/-- After a successful edit the area has its checksum and the new address, the other radio of the area has its own
address, and a second edit changes nothing. -/
theorem wifi_mac_edited (soc : Soc) (family : soc.ath10k = false) (f f' : ArtFlash) (mac : Mac) (i : Int) (cal : Bytes)
    (block : cal.length = artCalSize cal) (held : f.Holds (soc.areaOf i) cal)
    (ok : macaddrModifyWifi soc f mac i = .ok f') (stored : f.Stored f' (soc.areaOf i)) :
    ∃ new, f'.Holds (soc.areaOf i) new ∧ new.length = artCalSize new ∧ xor16Checksum new 0 = 0xFFFF ∧
      wifiCsValidArt soc f' i = true ∧ readWifiArt soc f' i = .ok mac.1 ∧
      readWifiArt soc f' (sibling i) = readWifiArt soc f (sibling i) ∧ macaddrModifyWifi soc f' mac i = .ok f' := by
  rw [modifyWifi_held family held block] at ok
  split at ok
  · cases ok
  rename_i valid
  split at ok
  · cases ok
  rename_i first
  have large := artCalSize_ge cal
  rw [wifiCalMaxIdx] at valid
  obtain ⟨share, low, high, apart, behind, inside, behind'⟩ := areaOf_sibling soc (i := i) (by omega) (by omega)
  have crc : 12 ≤ cal.length := by omega
  have fits : macOffOf i + 6 ≤ cal.length := by omega
  -- the header is in front of the checksum and of both addresses
  have byte (k : Nat) (lt : k < 10) : (artCal cal (macOffOf i) mac.1).getD k 0 = cal.getD k 0 := by
    rw [← slice_byte (by rw [length_artCal mac crc fits]; omega), slice_artCal_other mac crc fits (by omega) (by omega)]
    exact (slice_byte (by omega) _).mpr rfl
  have block' : (artCal cal (macOffOf i) mac.1).length = artCalSize (artCal cal (macOffOf i) mac.1) := by
    rw [length_artCal mac crc fits, block, artCalSize, artCalSize, byte 9 (by decide)]
  have held' := stored _ ok
  have first' : ¬ (artCal cal (macOffOf i) mac.1).getD 0 0 ≠ 0x01 := by
    rw [byte 0 (by decide)]
    exact first
  have range : ¬ (i < 0 ∨ i ≥ wifiCalMaxIdx) := by
    rw [wifiCalMaxIdx]
    omega
  refine ⟨_, held', block', artCal_xor mac crc fits, ?_, ?_, ?_, ?_⟩
  · rw [csValid_held held' block', if_neg range, if_neg first', artCal_xor mac crc fits]
    rfl
  · rw [readWifi_held held' block', if_neg range, if_neg first', artMacLen, slice_artCal_mac mac crc fits (by omega)]
  · rw [← share] at held held'
    have same : slice (artCal cal (macOffOf i) mac.1) (macOffOf (sibling i)) 6 = slice cal (macOffOf (sibling i)) 6 :=
      slice_artCal_other mac crc fits (.inr (by omega)) (by omega)
    rw [readWifi_held held' block', readWifi_held held block, byte 0 (by decide), artMacLen, same]
  · rw [modifyWifi_held family held' block', if_neg (by rw [wifiCalMaxIdx]; exact valid), if_neg first',
      artCal_artCal mac crc fits (by omega)]
    exact ArtFlash.artWrite_again (calOffset_aligned soc _) ok

/-- An eMMC whose cells all hold `v`. -/
def filledArt (v : UInt8) : ArtFlash := { sampleArt .mmcFlash with cells := fun _ => v }

lemma filledArt_holds (v : UInt8) (offset size : Nat) : (filledArt v).Holds offset (List.replicate size v) := by
  intro n le
  rw [List.length_replicate] at le
  have read : (filledArt v).artRead offset n =
      .ok ((filledArt v).emmc.artRead (filledArt v).cells 34 offset n) := rfl
  rw [List.take_replicate, Nat.min_eq_left le, read, ArtFlash.artRead_true read fun _ _ => rfl]
  exact congrArg Except.ok (by simp [filledArt, Mem.read])

lemma ones_block : (List.replicate 0x10000 (1 : UInt8)).length = artCalSize (List.replicate 0x10000 1) := by
  rw [List.length_replicate, artCalSize, List.getD_replicate _ (by decide)]
  rfl

lemma filledArt_addressed (mac : Mac) (valid : isValidEthaddr mac.1 = true) {i : Int} (low : 0 ≤ i) (high : i < 6) :
    ∃ f', macaddrModifyWifi .ipq6018 (filledArt 1) mac i = .ok f' := by
  rw [modifyWifi_held rfl (filledArt_holds 1 _ 0x10000) ones_block, if_neg, if_neg]
  · exact ⟨_, rfl⟩
  · rw [List.getD_replicate _ (by decide)]
    decide
  · rw [valid, wifiCalMaxIdx]
    simp only [Bool.not_true, Bool.false_eq_true, false_or]
    omega

theorem wifi_mac_edited_sample : ∃ f', macaddrModifyWifi .ipq6018 (filledArt 1) sampleMac 1 = .ok f' ∧
    wifiCsValidArt .ipq6018 f' 1 = true ∧ readWifiArt .ipq6018 f' 1 = .ok sampleMac.1 ∧
    readWifiArt .ipq6018 f' 0 = readWifiArt .ipq6018 (filledArt 1) 0 := by
  obtain ⟨f', ok⟩ := filledArt_addressed sampleMac (by decide) (by decide : (0 : Int) ≤ 1) (by decide)
  have stored : (filledArt 1).Stored f' (Soc.areaOf .ipq6018 1) :=
    ArtFlash.stored_of_served (calOffset_aligned _ _) fun _ _ => ⟨rfl, rfl⟩
  obtain ⟨-, -, -, -, valid, new, kept, -⟩ :=
    wifi_mac_edited .ipq6018 rfl _ f' sampleMac 1 _ ones_block (filledArt_holds 1 _ 0x10000) ok stored
  exact ⟨f', ok, valid, new, kept⟩

/-! ### IPQ40xx and IPQ806x -/

section Ath10k

variable {soc : Soc} {f f' : ArtFlash} {i : Int} {cal area : Bytes}

def declaredSize (cal : Bytes) : Nat := field cal 0 2

section
variable (mac : Mac) (size : 12 ≤ cal.length)
include size

lemma length_renamed : (patch cal ath10kCalMacOff mac.1).length = cal.length := length_patch (by rw [mac.2]; exact size)

lemma crc_fits : ath10kCalCrc + 2 ≤ (patch cal ath10kCalMacOff mac.1).length := by
  rw [length_renamed mac size, ath10kCalCrc]
  omega

lemma length_marked : (patch (patch cal ath10kCalMacOff mac.1) ath10kCalCrc (le16 0xFFFF)).length =
    (patch cal ath10kCalMacOff mac.1).length := length_patch (crc_fits mac size)

lemma length_ath10kCal : (ath10kCal cal mac.1).length = cal.length := by
  have len := length_marked mac size
  rw [ath10kCal, length_patch (by rw [len]; exact crc_fits mac size), len, length_renamed mac size]

lemma ath10kCal_xor : xor16Checksum (ath10kCal cal mac.1) 0 = 0xFFFF := by
  have again : patch (patch (patch cal ath10kCalMacOff mac.1) ath10kCalCrc (le16 0xFFFF)) ath10kCalCrc (le16 0xFFFF) =
      patch (patch cal ath10kCalMacOff mac.1) ath10kCalCrc (le16 0xFFFF) := patch_patch (crc_fits mac size) rfl
  rw [ath10kCal, xor16_replace (v := 0xFFFF) (by decide) (by rw [length_marked mac size]; exact crc_fits mac size), again]
  generalize xor16Checksum (patch (patch cal ath10kCalMacOff mac.1) ath10kCalCrc (le16 0xFFFF)) 0 = cs
  rw [UInt16.xor_comm 0xFFFF cs, ← UInt16.xor_assoc, UInt16.xor_self, UInt16.zero_xor]

lemma slice_ath10kCal {o n : Nat} (apart : o + n ≤ 2 ∨ 12 ≤ o) : slice (ath10kCal cal mac.1) o n = slice cal o n := by
  have outside {v : UInt16} : o + n ≤ ath10kCalCrc ∨ ath10kCalCrc + (le16 v).length ≤ o := by
    rw [length_le16, ath10kCalCrc]
    omega
  rw [ath10kCal, slice_patch_other (by rw [length_marked mac size]; exact crc_fits mac size) outside,
    slice_patch_other (crc_fits mac size) outside,
    slice_patch_other (by rw [mac.2]; exact size) (by rw [mac.2, ath10kCalMacOff]; omega)]

end

variable {n : Nat}

lemma modifyAth10k_held (family : soc.ath10k = true) (held : f.Holds (soc.calOffset i.toNat) area)
    (whole : ath10kCalChecksumSize ≤ area.length) (mac : Mac) : macaddrModifyWifi soc f mac i =
      if !isValidEthaddr mac.1 ∨ i < 0 ∨ i ≥ ath10kWifiCount then .error .einval
      else if ((area.take 2).getD 0 0).toUInt16 ||| ((area.take 2).getD 1 0).toUInt16 <<< 8 = 0xFFFF ∨
          ((area.take 2).getD 0 0).toUInt16 ||| ((area.take 2).getD 1 0).toUInt16 <<< 8 = 0 then .error .enodata
      else f.artWrite (soc.calOffset i.toNat) (ath10kCal (area.take ath10kCalChecksumSize) mac.1) := by
  have header := held 2 (by rw [ath10kCalChecksumSize] at whole; omega)
  rw [macaddrModifyWifi, family, modifyWifiAth10k]
  simp only [if_true]
  split
  · rfl
  change (f.artRead (soc.calOffset i.toNat) 2 >>= _) = _
  rw [header]
  change (if _ then _ else _) = _
  split
  · rfl
  · rw [held _ whole]
    rfl

def between (n : Nat) (area : Bytes) : Bytes :=
  slice area (min n ath10kCalChecksumSize) (max n ath10kCalChecksumSize - min n ath10kCalChecksumSize)

lemma xor_eq_iff {a b c : UInt16} (sum : a ^^^ b = c) : a = c ↔ b = 0 := by
  constructor
  · rintro rfl
    rw [← UInt16.zero_xor (a := b), ← UInt16.xor_self (a := a), UInt16.xor_assoc, sum, UInt16.xor_self]
  · rintro rfl
    rw [← sum, UInt16.xor_zero]

lemma xor16_take_iff (sum : xor16Checksum (area.take ath10kCalChecksumSize) 0 = 0xFFFF) (even : n % 2 = 0)
    (whole : max n ath10kCalChecksumSize ≤ area.length) :
    xor16Checksum (area.take n) 0 = 0xFFFF ↔ xor16Checksum (between n area) 0 = 0 := by
  rw [between]
  rcases Nat.le_total n ath10kCalChecksumSize with le | le
  · rw [Nat.max_eq_right le, Nat.min_eq_left le]
    obtain ⟨k, more⟩ := Nat.exists_eq_add_of_le le
    have split : area.take ath10kCalChecksumSize = area.take n ++ slice area n k := by
      rw [more, List.take_add, slice]
    rw [split, xor16_append _ (by rw [List.length_take]; omega)] at sum
    rw [more, Nat.add_sub_cancel_left]
    exact xor_eq_iff sum
  · rw [Nat.max_eq_left le, Nat.min_eq_right le]
    obtain ⟨k, rfl⟩ := Nat.exists_eq_add_of_le le
    have half : (area.take ath10kCalChecksumSize).length % 2 = 0 := by
      rw [List.length_take, Nat.min_eq_left (by omega)]
      decide
    rw [List.take_add, xor16_append _ half, sum, Nat.add_sub_cancel_left, ← slice]
    exact eq_comm.trans (xor_eq_iff rfl)

end Ath10k

/-- After a successful edit the XOR over the declared size is `0xFFFF` exactly when the words between that size and
the 12064 bytes that are summed cancel. -/
theorem ath10k_checksum_iff (soc : Soc) (family : soc.ath10k = true) (f f' : ArtFlash) (mac : Mac) (i : Int)
    (area area' : Bytes) (held : f.Holds (soc.calOffset i.toNat) area)
    (whole : max (declaredSize area) ath10kCalChecksumSize ≤ area.length) (even : declaredSize area % 2 = 0)
    (ok : macaddrModifyWifi soc f mac i = .ok f') (stored : f.Stored f' (soc.calOffset i.toNat))
    (held' : f'.Holds (soc.calOffset i.toNat) area') (length : area'.length = area.length) :
    declaredSize area' = declaredSize area ∧
      (xor16Checksum (area'.take (declaredSize area)) 0 = 0xFFFF ↔
        xor16Checksum (between (declaredSize area) area') 0 = 0) := by
  have enough : ath10kCalChecksumSize ≤ area.length := by omega
  have summed : (area.take ath10kCalChecksumSize).length = ath10kCalChecksumSize := by
    rw [List.length_take, Nat.min_eq_left enough]
  have size : 12 ≤ (area.take ath10kCalChecksumSize).length := by
    rw [summed]
    decide
  rw [modifyAth10k_held family held enough] at ok
  split at ok
  · cases ok
  split at ok
  · cases ok
  -- both reads of the edited area give the same bytes
  have new : area'.take ath10kCalChecksumSize = ath10kCal (area.take ath10kCalChecksumSize) mac.1 := by
    have long : (ath10kCal (area.take ath10kCalChecksumSize) mac.1).length = ath10kCalChecksumSize :=
      (length_ath10kCal mac size).trans summed
    have first := held' ath10kCalChecksumSize (by omega)
    have second := stored _ ok ath10kCalChecksumSize (by rw [long])
    rw [first] at second
    exact (Except.ok.inj second).trans (List.take_of_length_le (Nat.le_of_eq long))
  refine ⟨?_, xor16_take_iff (by rw [new, ath10kCal_xor mac size]) even (by omega)⟩
  rw [declaredSize, declaredSize, field, field, ← slice_take (k := ath10kCalChecksumSize) (by decide), new,
    slice_ath10kCal mac size (.inl (by decide)), slice_take (by decide)]

section Filled

variable {v : UInt8}

lemma xor16_replicate (n : Nat) : xor16Checksum (List.replicate (4 * n) v) 0 = 0 := by
  induction n with
  | zero => rfl
  | succ n ih =>
    rw [Nat.mul_succ, Nat.add_comm, List.replicate_add, xor16_append _ (by simp), ih]
    simp [List.replicate, xor16Checksum]

lemma filledArt_edited (sized : v.toUInt16 ||| v.toUInt16 <<< 8 ≠ 0xFFFF) (some : v.toUInt16 ||| v.toUInt16 <<< 8 ≠ 0) :
    ∃ f', macaddrModifyWifi .ipq40xx (filledArt v) sampleMac 0 = .ok f' ∧
      (filledArt v).Stored f' 0x1000 ∧ f'.Holds 0x1000 (ath10kCal (List.replicate 12064 v) sampleMac.1) := by
  have run := modifyAth10k_held (i := 0) (rfl : Soc.ath10k .ipq40xx = true) (filledArt_holds v 0x1000 12064)
    (by rw [List.length_replicate, ath10kCalChecksumSize]) sampleMac
  rw [if_neg (by decide), if_neg (by rintro (h | h); exacts [sized h, some h]), ath10kCalChecksumSize,
    List.take_replicate, Nat.min_self] at run
  obtain ⟨f', ok⟩ : ∃ f', (filledArt v).artWrite 0x1000 (ath10kCal (List.replicate 12064 v) sampleMac.1) = .ok f' :=
    ⟨_, rfl⟩
  have stored : (filledArt v).Stored f' 0x1000 :=
    ArtFlash.stored_of_served (by decide) fun _ _ => ⟨rfl, rfl⟩
  exact ⟨f', run.trans ok, stored, stored _ ok⟩

lemma filledArt_between {n : Nat} (behind : 12 ≤ n) (inside : n ≤ 12064) :
    between n (ath10kCal (List.replicate 12064 v) sampleMac.1) = List.replicate (12064 - n) v := by
  rw [between, ath10kCalChecksumSize, Nat.min_eq_left inside, Nat.max_eq_right inside,
    slice_ath10kCal sampleMac (by rw [List.length_replicate]; decide) (.inr behind), slice, List.drop_replicate,
    List.take_replicate, Nat.min_self]

end Filled

/-- The header declares `0x2C2C` bytes, and an even number of equal words follows. -/
theorem ath10k_checksum_sample : ∃ f', macaddrModifyWifi .ipq40xx (filledArt 0x2C) sampleMac 0 = .ok f' ∧
    xor16Checksum ((ath10kCal (List.replicate 12064 0x2C) sampleMac.1).take 0x2C2C) 0 = 0xFFFF := by
  obtain ⟨f', ok, stored, held'⟩ := filledArt_edited (v := 0x2C) (by decide) (by decide)
  have length : (List.replicate 12064 (0x2C : UInt8)).length = 12064 := List.length_replicate
  have declared : declaredSize (List.replicate 12064 0x2C) = 0x2C2C := rfl
  have sum := (ath10k_checksum_iff .ipq40xx rfl _ f' sampleMac 0 _ _ (filledArt_holds 0x2C _ 12064)
    (by rw [declared, length]; decide) (by rw [declared]) ok stored held'
    (length_ath10kCal sampleMac (by rw [length]; decide))).2
  rw [declared] at sum
  refine ⟨f', ok, sum.mpr ?_⟩
  rw [filledArt_between (by decide) (by decide)]
  exact xor16_replicate 189

/-- The header declares `0x2E2E` bytes, and an odd number of equal words follows: the sum over the declared size is
wrong. -/
theorem ath10k_checksum_short : ∃ f', macaddrModifyWifi .ipq40xx (filledArt 0x2E) sampleMac 0 = .ok f' ∧
    (filledArt 0x2E).Stored f' 0x1000 ∧ f'.Holds 0x1000 (ath10kCal (List.replicate 12064 0x2E) sampleMac.1) ∧
    declaredSize (ath10kCal (List.replicate 12064 0x2E) sampleMac.1) = 0x2E2E ∧
    xor16Checksum ((ath10kCal (List.replicate 12064 0x2E) sampleMac.1).take 0x2E2E) 0 ≠ 0xFFFF := by
  obtain ⟨f', ok, stored, held'⟩ := filledArt_edited (v := 0x2E) (by decide) (by decide)
  have length : (List.replicate 12064 (0x2E : UInt8)).length = 12064 := List.length_replicate
  have size : 12 ≤ (List.replicate 12064 (0x2E : UInt8)).length := by
    rw [length]
    decide
  have same := length_ath10kCal sampleMac size
  refine ⟨f', ok, stored, held', ?_, ?_⟩
  · rw [declaredSize, field, slice_ath10kCal sampleMac size (.inl (by decide))]
    rfl
  have sum : xor16Checksum ((ath10kCal (List.replicate 12064 0x2E) sampleMac.1).take ath10kCalChecksumSize) 0 = 0xFFFF := by
    rw [List.take_of_length_le (by rw [same, length, ath10kCalChecksumSize]), ath10kCal_xor sampleMac size]
  rw [ne_eq, xor16_take_iff sum (by decide) (by rw [same, length]; decide),
    filledArt_between (by decide) (by decide), show 12064 - 0x2E2E = 2 + 4 * 60 from rfl, List.replicate_add,
    xor16_append _ (by decide), xor16_replicate]
  decide

/-! ### The checksum that is reported -/

def macaddrWifiCsOffset (soc : Soc) (wifiIndex : Int) : Nat :=
  if wifiIndex < 0 ∨ wifiIndex ≥ soc.wifiMax then 0
  else if soc.ath10k then soc.calOffset wifiIndex.toNat
  else soc.calOffset (wifiIndex.toNat / 2) + artCalCrc

def macaddrWifiChecksum (soc : Soc) (f : ArtFlash) (wifiIndex : Int) : UInt16 :=
  let off := macaddrWifiCsOffset soc wifiIndex
  if wifiIndex < 0 ∨ wifiIndex ≥ soc.wifiMax then 0
  else
    match f.artRead off 2 with
    | .error _ => 0
    | .ok buf => (buf.getD 0 0).toUInt16 <<< 8 ||| (buf.getD 1 0).toUInt16

def Soc.calChecksum (soc : Soc) (cal : Bytes) (wifiIndex : Int) (newMac : Bytes) : UInt16 :=
  if soc.ath10k then xor16Checksum (patch (patch cal ath10kCalMacOff newMac) ath10kCalCrc (le16 0xFFFF)) 0
  else xor16Checksum (unsummed cal (macOffOf wifiIndex) newMac) 0 ^^^ 0xFFFF

def Soc.crcOff (soc : Soc) : Nat := if soc.ath10k then ath10kCalCrc else artCalCrc

section Reported

variable {soc : Soc} {f f' : ArtFlash} {cal : Bytes} {i : Int}

lemma be16_word_iff (v : UInt16) :
    v.toUInt8.toUInt16 <<< 8 ||| (v >>> 8).toUInt8.toUInt16 = v ↔ v.toUInt8 = (v >>> 8).toUInt8 := by
  constructor
  · intro same
    have low (hi lo : UInt8) : (hi.toUInt16 <<< 8 ||| lo.toUInt16).toUInt8 = lo := by
      apply UInt8.toBitVec_inj.mp
      apply BitVec.eq_of_getLsbD_eq
      intro k lt
      simp [lt]
    rw [← low v.toUInt8 (v >>> 8).toUInt8, same]
  · intro same
    rw [← same, UInt16.or_comm]
    exact same ▸ le16_word v

lemma length_editedCal (mac : Mac) (large : 32 ≤ cal.length) : (soc.editedCal cal i mac.1).length = cal.length :=
  (wifiEdit_patches _ (filledArt 1) i mac large).2.1

lemma slice_editedCal (mac : Mac) (large : 32 ≤ cal.length) :
    slice (soc.editedCal cal i mac.1) soc.crcOff 2 = le16 (soc.calChecksum cal i mac.1) := by
  rw [Soc.editedCal, Soc.crcOff, Soc.calChecksum]
  split
  · have fits := crc_fits mac (by omega : 12 ≤ cal.length)
    rw [← length_marked mac (by omega)] at fits
    exact slice_patch_same fits
  have fits : macOffOf i + 6 ≤ cal.length := by
    simp only [macOffOf, artCalMac0, artMacLen]
    omega
  have crc : artCalCrc + 2 ≤ (unsummed cal (macOffOf i) mac.1).length := by
    rw [length_unsummed mac (by omega) fits, artCalCrc]
    omega
  exact slice_patch_same crc

lemma checksum_stored {mac : Mac} (ok : macaddrModifyWifi soc f mac i = .ok f')
    (served : f.flashType = .mmcFlash → ∀ b, f.emmc.readable b = true ∧ f.emmc.writable b = true)
    (read : f.artRead (wifiEdit soc f i).offset (wifiEdit soc f i).size = .ok cal) :
    f'.artRead ((wifiEdit soc f i).offset + soc.crcOff) 2 = .ok (le16 (soc.calChecksum cal i mac.1)) := by
  obtain ⟨-, -, large, cal', read', write⟩ := modifyWifi_ok ok
  obtain rfl : cal' = cal := Except.ok.inj (read'.symm.trans read)
  rw [← ArtFlash.artRead_length read] at large
  have inside : soc.crcOff + 2 ≤ (soc.editedCal cal' i mac.1).length := by
    have low : soc.crcOff ≤ 10 := by
      rw [Soc.crcOff]
      split <;> decide
    rw [length_editedCal mac large]
    omega
  rw [ArtFlash.artRead_part (wifiEdit_aligned soc f i) write served inside, slice_editedCal mac large]

lemma csOffset_iff (low : 0 ≤ i) (high : i < soc.wifiMax) :
    macaddrWifiCsOffset soc i = (wifiEdit soc f i).offset + soc.crcOff ↔ soc.ath10k = false := by
  rw [macaddrWifiCsOffset, if_neg (by omega), wifiEdit, Soc.crcOff]
  cases soc.ath10k
  · simp
  · simp [ath10kCalCrc]

end Reported

/-- After a successful edit the checksum is at its place in the flash. The report names this place on the boards other
than IPQ40xx and IPQ806x, and gives the checksum there exactly if its two bytes are equal: it takes them in the other
order. -/
theorem reported_checksum_iff (soc : Soc) (f f' : ArtFlash) (mac : Mac) (i : Int) (cal : Bytes)
    (read : f.artRead (wifiEdit soc f i).offset (wifiEdit soc f i).size = .ok cal)
    (ok : macaddrModifyWifi soc f mac i = .ok f') :
    ((f.flashType = .mmcFlash → ∀ b, f.emmc.readable b = true ∧ f.emmc.writable b = true) →
      f'.artRead ((wifiEdit soc f i).offset + soc.crcOff) 2 = .ok (le16 (soc.calChecksum cal i mac.1))) ∧
    (f'.artRead ((wifiEdit soc f i).offset + soc.crcOff) 2 = .ok (le16 (soc.calChecksum cal i mac.1)) →
      (macaddrWifiChecksum soc f' i = soc.calChecksum cal i mac.1 ∧
          macaddrWifiCsOffset soc i = (wifiEdit soc f i).offset + soc.crcOff ↔
        soc.ath10k = false ∧
          (soc.calChecksum cal i mac.1).toUInt8 = (soc.calChecksum cal i mac.1 >>> 8).toUInt8)) := by
  obtain ⟨low, high, -⟩ := modifyWifi_ok ok
  refine ⟨fun served => checksum_stored ok served read, fun stored => ?_⟩
  rw [csOffset_iff low high, and_comm]
  refine and_congr_right fun family => ?_
  rw [macaddrWifiChecksum, if_neg (by omega), (csOffset_iff (f := f) low high).mpr family, stored]
  exact be16_word_iff _

lemma ones_checksum (mac : Mac) : Soc.calChecksum .ipq6018 (List.replicate 0x10000 1) 0 mac.1 =
    xor16Checksum mac.1 0 ^^^ 0xFFFF := by
  have six := mac.2
  -- what stands behind the address is left as it is
  have parts : unsummed (List.replicate 0x10000 1) (macOffOf 0) mac.1 =
      List.replicate 10 1 ++ [0, 0, 1, 1] ++ mac.1 ++ List.replicate (4 * 16379) 1 := by
    have cut : List.replicate 0x10000 (1 : UInt8) = List.replicate 20 1 ++ List.replicate (4 * 16379) 1 := by
      rw [← List.replicate_add]
    have named : patch (patch (List.replicate 20 1) artCalCrc [0, 0]) 14 mac.1 =
        List.replicate 10 1 ++ [0, 0, 1, 1] ++ mac.1 := by
      rw [patch, six]
      exact List.append_nil _
    rw [unsummed, cut, patch_append (by decide), patch_append (by rw [six]; decide)]
    change patch (patch _ 14 _ ++ _) _ _ = _
    rw [named, patch_append (by simp [artCalCrc]), patch_append (by decide)]
    rfl
  have front : xor16Checksum (List.replicate 10 1 ++ [0, 0, 1, 1]) 0 = 0 := by decide
  have even : (List.replicate 10 1 ++ [0, 0, 1, 1] ++ mac.1).length % 2 = 0 := by simp [six]
  change xor16Checksum (unsummed _ (macOffOf 0) mac.1) 0 ^^^ 0xFFFF = _
  rw [parts, xor16_append _ even, xor16_replicate, xor16_append _ (by decide), front, UInt16.zero_xor, UInt16.xor_zero]

lemma filledArt_read : (filledArt 1).artRead (wifiEdit .ipq6018 (filledArt 1) 0).offset
    (wifiEdit .ipq6018 (filledArt 1) 0).size = .ok (List.replicate 0x10000 1) := by
  have header : (filledArt 1).artRead 0x1000 16 = .ok (List.replicate 16 1) :=
    filledArt_holds 1 0x1000 16 16 (Nat.le_refl _)
  have edit : wifiEdit .ipq6018 (filledArt 1) 0 = ⟨0x1000, 0x10000, [(14, 6), (10, 2)]⟩ := by
    have area : Soc.calOffset .ipq6018 ((0 : Int).toNat / 2) = 0x1000 := rfl
    simp only [wifiEdit, area, Soc.calSize, header, Soc.ath10k, Bool.false_eq_true, if_false]
    rfl
  rw [edit, filledArt_holds 1 0x1000 0x10000 0x10000 (by rw [List.length_replicate]), List.take_replicate, Nat.min_self]

/-- An address whose words have equal bytes. -/
theorem reported_checksum_palindrome : ∃ f',
    macaddrModifyWifi .ipq6018 (filledArt 1) ⟨[2, 0, 0, 0, 0, 2], rfl⟩ 0 = .ok f' ∧
      macaddrWifiChecksum .ipq6018 f' 0 = 0xFDFD ∧ macaddrWifiCsOffset .ipq6018 0 = 0x100A := by
  obtain ⟨f', ok⟩ := filledArt_addressed ⟨[2, 0, 0, 0, 0, 2], rfl⟩ (by decide) (Int.le_refl 0) (by decide)
  obtain ⟨served, reported⟩ := reported_checksum_iff .ipq6018 _ f' _ 0 _ filledArt_read ok
  rw [ones_checksum] at reported
  have equal := (reported (by rw [← ones_checksum]; exact served fun _ _ => ⟨rfl, rfl⟩)).mpr (by decide)
  exact ⟨f', ok, equal.1, rfl⟩

/-- The checksum `0xFEFD` of the sample is reported as `0xFDFE`, and that of an IPQ40xx board two bytes too low. -/
theorem reported_checksum_swapped :
    (∃ f', macaddrModifyWifi .ipq6018 (filledArt 1) sampleMac 0 = .ok f' ∧
      f'.artRead 0x100A 2 = .ok (le16 0xFEFD) ∧ macaddrWifiChecksum .ipq6018 f' 0 = 0xFDFE) ∧
    ∃ f', macaddrModifyWifi .ipq40xx (filledArt 0x2C) sampleMac 0 = .ok f' ∧
      f'.artRead 0x1002 2 = .ok (le16 (Soc.calChecksum .ipq40xx (List.replicate 12064 0x2C) 0 sampleMac.1)) ∧
      macaddrWifiCsOffset .ipq40xx 0 = 0x1000 := by
  constructor
  · obtain ⟨f', ok⟩ := filledArt_addressed sampleMac (by decide) (Int.le_refl 0) (by decide)
    have stored := checksum_stored ok (fun _ _ => ⟨rfl, rfl⟩) filledArt_read
    rw [ones_checksum] at stored
    have place : f'.artRead 0x100A 2 = .ok [0xFD, 0xFE] := stored
    refine ⟨f', ok, place, ?_⟩
    have off : macaddrWifiCsOffset .ipq6018 0 = 0x100A := rfl
    rw [macaddrWifiChecksum, if_neg (by decide), off, place]
    rfl
  · obtain ⟨f', ok, -⟩ := filledArt_edited (v := 0x2C) (by decide) (by decide)
    have whole : (filledArt 0x2C).artRead 0x1000 ath10kCalChecksumSize = .ok (List.replicate 12064 0x2C) := by
      rw [filledArt_holds 0x2C 0x1000 12064 ath10kCalChecksumSize (by rw [List.length_replicate, ath10kCalChecksumSize]),
        ath10kCalChecksumSize, List.take_replicate, Nat.min_self]
    exact ⟨f', ok, checksum_stored ok (fun _ _ => ⟨rfl, rfl⟩) whole, rfl⟩

end ResQBoot
