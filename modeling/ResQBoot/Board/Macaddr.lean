import ResQBoot.Board.Art
import ResQBoot.Failsafe.Form

/-!
# Editing the MAC addresses in ART

`macaddr_modify_base` and `macaddr_modify_wifi` write an area back in whole blocks on eMMC and whole sectors on NOR,
and what stands behind its end is not read first.
-/

namespace ResQBoot

open Failsafe (isValidEthaddr)

inductive Soc where
  | ipq40xx
  | ipq806x
  | ipq5018
  | ipq5332
  | ipq6018
  | ipq6018M2
  | ipq807x
  | ipq9574
  deriving DecidableEq, Repr

def Soc.noMacs : Soc → Nat
  | .ipq40xx | .ipq5018 | .ipq5332 => 2
  | .ipq806x => 4
  | .ipq6018M2 => 5
  | .ipq6018 | .ipq807x | .ipq9574 => 6

def Soc.ath10k : Soc → Bool
  | .ipq40xx | .ipq806x => true
  | _ => false

/-- An Ethernet address. -/
abbrev Mac := { bs : Bytes // bs.length = 6 }

def artBaseSize : Nat := 0x1000
def artBaseMac0 : Nat := 0
def artMacLen : Nat := 6
def ath10kWifiCount : Nat := 3
def ath10kCalMacOff : Nat := 6
def ath10kCalCrc : Nat := 0x02
def ath10kCalChecksumSize : Nat := 12064
def artCalSize64K : Nat := 0x10000
def artCalSize128K : Nat := 0x20000
def artCalCrc : Nat := 0x0A
def artCalMac0 : Nat := 0x0E
def wifiCalMaxIdx : Nat := 6

def Soc.calOffset (soc : Soc) (i : Nat) : Nat :=
  if soc.ath10k then [0x1000, 0x5000, 0x9000].getD i 0 else [0x1000, 0x26800, 0x4C000].getD i 0

def xor16Checksum : Bytes → UInt16 → UInt16
  | lo :: hi :: rest, cs => xor16Checksum rest (cs ^^^ (lo.toUInt16 ||| hi.toUInt16 <<< 8))
  | _, cs => cs

def le16 (v : UInt16) : Bytes := [v.toUInt8, (v >>> 8).toUInt8]

def artCalSize (hdr : Bytes) : Nat :=
  if hdr.getD 9 0 = 0x80 then artCalSize128K else artCalSize64K

def macaddrModifyBase (soc : Soc) (f : ArtFlash) (newMac : Mac) (macIndex : Int) :
    Except Errno ArtFlash :=
  if !isValidEthaddr newMac.1 ∨ macIndex < 0 ∨ macIndex ≥ soc.noMacs then .error .einval
  else do
    let buf ← f.artRead 0 artBaseSize
    f.artWrite 0 (patch buf (artBaseMac0 + macIndex.toNat * artMacLen) newMac.1)

def ath10kCal (cal : Bytes) (newMac : Bytes) : Bytes :=
  let cal := patch cal ath10kCalMacOff newMac
  let cal := patch cal ath10kCalCrc (le16 0xFFFF)
  let cs := xor16Checksum cal 0
  patch cal ath10kCalCrc (le16 cs)

def artCal (cal : Bytes) (macOff : Nat) (newMac : Bytes) : Bytes :=
  let cal := patch cal artCalCrc [0, 0]
  let cal := patch cal macOff newMac
  let cal := patch cal artCalCrc [0, 0]
  let cs := xor16Checksum cal 0
  patch cal artCalCrc (le16 (cs ^^^ 0xFFFF))

def modifyWifiAth10k (soc : Soc) (f : ArtFlash) (newMac : Mac) (wifiIndex : Int) :
    Except Errno ArtFlash :=
  if !isValidEthaddr newMac.1 ∨ wifiIndex < 0 ∨ wifiIndex ≥ ath10kWifiCount then .error .einval
  else
    let calOff := soc.calOffset wifiIndex.toNat
    do
      let hdr ← f.artRead calOff 2
      let calSize := (hdr.getD 0 0).toUInt16 ||| (hdr.getD 1 0).toUInt16 <<< 8
      if calSize = 0xFFFF ∨ calSize = 0 then .error .enodata
      else
        let cal ← f.artRead calOff ath10kCalChecksumSize
        f.artWrite calOff (ath10kCal cal newMac.1)

def modifyWifiArt (soc : Soc) (f : ArtFlash) (newMac : Mac) (wifiIndex : Int) :
    Except Errno ArtFlash :=
  if !isValidEthaddr newMac.1 ∨ wifiIndex < 0 ∨ wifiIndex ≥ wifiCalMaxIdx then .error .einval
  else
    let calOff := soc.calOffset (wifiIndex.toNat / 2)
    let macOff := artCalMac0 + wifiIndex.toNat % 2 * artMacLen
    do
      let hdr ← f.artRead calOff 16
      if hdr.getD 0 0 ≠ 0x01 then .error .enosys
      else
        let cal ← f.artRead calOff (artCalSize hdr)
        f.artWrite calOff (artCal cal macOff newMac.1)

def macaddrModifyWifi (soc : Soc) (f : ArtFlash) (newMac : Mac) (wifiIndex : Int) :
    Except Errno ArtFlash :=
  if soc.ath10k then modifyWifiAth10k soc f newMac wifiIndex else modifyWifiArt soc f newMac wifiIndex

/-! ## What an edit may change -/

structure Edit where
  offset : Nat
  size : Nat
  ranges : List (Nat × Nat)

def Edit.Means (e : Edit) (k : Nat) : Prop := ∃ r ∈ e.ranges, r.1 ≤ k ∧ k < r.1 + r.2

def Edit.Covers (e : Edit) (f : ArtFlash) (x : Nat) : Prop :=
  f.base + e.offset ≤ x ∧ e.Means (x - (f.base + e.offset))

def Edit.Framed (e : Edit) (f f' : ArtFlash) : Prop := ∀ x, ¬ e.Covers f x → f'.cells x = f.cells x

def Edit.TailBlank (e : Edit) (f : ArtFlash) : Prop :=
  ∀ x, f.Touches e.offset e.size x → f.base + e.offset + e.size ≤ x → f.cells x = 0xFF

def Edit.ReadBack (e : Edit) (f : ArtFlash) : Prop :=
  ∀ got, f.artRead e.offset e.size = .ok got → ∀ k, k < e.size →
    f.Touches e.offset e.size (f.base + e.offset + k) → ¬ e.Means k →
    got.getD k 0xFF = f.cells (f.base + e.offset + k)

def baseEdit (macIndex : Int) : Edit :=
  ⟨0, artBaseSize, [(artBaseMac0 + macIndex.toNat * artMacLen, artMacLen)]⟩

def Soc.calSize (soc : Soc) (f : ArtFlash) (calOff : Nat) : Nat :=
  if soc.ath10k then ath10kCalChecksumSize
  else
    match f.artRead calOff 16 with
    | .ok hdr => artCalSize hdr
    | .error _ => 0

def wifiEdit (soc : Soc) (f : ArtFlash) (wifiIndex : Int) : Edit :=
  if soc.ath10k then
    let calOff := soc.calOffset wifiIndex.toNat
    ⟨calOff, soc.calSize f calOff, [(ath10kCalMacOff, artMacLen), (ath10kCalCrc, 2)]⟩
  else
    let calOff := soc.calOffset (wifiIndex.toNat / 2)
    ⟨calOff, soc.calSize f calOff,
      [(artCalMac0 + wifiIndex.toNat % 2 * artMacLen, artMacLen), (artCalCrc, 2)]⟩

def Soc.wifiMax (soc : Soc) : Nat := if soc.ath10k then 3 else 6

def Soc.editedCal (soc : Soc) (cal : Bytes) (wifiIndex : Int) (newMac : Bytes) : Bytes :=
  if soc.ath10k then ath10kCal cal newMac
  else artCal cal (artCalMac0 + wifiIndex.toNat % 2 * artMacLen) newMac

def Edit.Patches (e : Edit) (got buf : Bytes) : Prop :=
  buf.length = got.length ∧ ∀ k, ¬ e.Means k → buf.getD k 0xFF = got.getD k 0xFF

lemma Edit.Patches.refl (e : Edit) (got : Bytes) : e.Patches got got := ⟨rfl, fun _ _ => rfl⟩

variable {f f' : ArtFlash} {buf cal got : Bytes} {e : Edit} {i : Int} {mac : Mac} {soc : Soc}

lemma Edit.Patches.patch {bs : Bytes} {off : Nat} (ok : e.Patches got buf)
    (mem : (off, bs.length) ∈ e.ranges) (fits : off + bs.length ≤ got.length) :
    e.Patches got (patch buf off bs) := by
  obtain ⟨len, same⟩ := ok
  have fits' : off + bs.length ≤ buf.length := by omega
  refine ⟨(length_patch fits').trans len, fun k other => ?_⟩
  have out : k < off ∨ off + bs.length ≤ k := by
    by_contra inside
    exact other ⟨_, mem, by simp only; omega⟩
  rw [getD_patch_outside _ fits' out, same k other]

lemma edit_framed_iff (aligned : 512 ∣ e.offset)
    (inside : ∀ r ∈ e.ranges, r.1 + r.2 ≤ e.size) (read : f.artRead e.offset e.size = .ok got)
    (patches : e.Patches got buf) (ok : f.artWrite e.offset buf = .ok f') :
    e.Framed f f' ↔ e.TailBlank f ∧ e.ReadBack f := by
  have len : buf.length = e.size := patches.1.trans (ArtFlash.artRead_length read)
  have cells := ArtFlash.artWrite_cells aligned ok
  rw [len] at cells
  constructor
  · intro framed
    refine ⟨fun x touched tail => ?_, fun got' read' k lt touched other => ?_⟩
    · have other : ¬ e.Covers f x := by
        rintro ⟨_, r, mem, _, high⟩
        have := inside r mem
        omega
      have := framed x other
      rw [cells, if_pos touched, List.getD_eq_default _ _ (by omega)] at this
      exact this.symm
    · obtain rfl : got = got' := by
        rw [read] at read'
        exact Except.ok.inj read'
      have other' : ¬ e.Covers f (f.base + e.offset + k) := by
        rintro ⟨_, means⟩
        rw [Nat.add_sub_cancel_left] at means
        exact other means
      have := framed _ other'
      rw [cells, if_pos touched, Nat.add_sub_cancel_left, patches.2 k other] at this
      exact this
  · rintro ⟨blank, back⟩ x other
    rw [cells]
    split
    · rename_i touched
      by_cases tail : f.base + e.offset + e.size ≤ x
      · rw [List.getD_eq_default _ _ (by omega), blank x touched tail]
      obtain ⟨k, rfl⟩ := Nat.exists_eq_add_of_le touched.1.1
      have means : ¬ e.Means k := by
        intro means
        exact other ⟨Nat.le_add_right _ _, by rwa [Nat.add_sub_cancel_left]⟩
      rw [Nat.add_sub_cancel_left, patches.2 k means]
      exact back got read k (by omega) touched means
    · rfl

lemma noMacs_le (soc : Soc) : soc.noMacs ≤ 6 := by
  cases soc <;> decide

lemma calOffset_aligned (soc : Soc) (i : Nat) : 512 ∣ soc.calOffset i := by
  rw [Soc.calOffset]
  split
  · rcases i with _ | _ | _ | i <;> simp
  · rcases i with _ | _ | _ | i <;> simp

@[simp] lemma length_le16 (v : UInt16) : (le16 v).length = 2 := rfl

lemma ath10kCal_patches (mac : Mac) (size : 12 ≤ cal.length)
    (ranges : e.ranges = [(ath10kCalMacOff, artMacLen), (ath10kCalCrc, 2)]) :
    e.Patches cal (ath10kCal cal mac.1) := by
  have len := mac.2
  have crc : ∀ {v : UInt16} {buf : Bytes}, e.Patches cal buf → e.Patches cal (patch buf ath10kCalCrc (le16 v)) := by
    intro v buf done
    refine done.patch (by simp [ranges]) ?_
    simp only [length_le16, ath10kCalCrc]
    omega
  have address : e.Patches cal (patch cal ath10kCalMacOff mac.1) := by
    refine (Edit.Patches.refl e cal).patch (by simp [ranges, len, artMacLen]) ?_
    simp only [ath10kCalMacOff]
    omega
  exact crc (crc address)

lemma artCal_patches {macOff : Nat} (mac : Mac) (size : macOff + 6 ≤ cal.length) (crc : 12 ≤ cal.length)
    (ranges : e.ranges = [(macOff, artMacLen), (artCalCrc, 2)]) :
    e.Patches cal (artCal cal macOff mac.1) := by
  have len := mac.2
  have two : ∀ {v buf : Bytes}, v.length = 2 → e.Patches cal buf → e.Patches cal (patch buf artCalCrc v) := by
    intro v buf two done
    refine done.patch (by simp [ranges, two]) ?_
    rw [two, artCalCrc]
    omega
  have address : e.Patches cal (patch (patch cal artCalCrc [0, 0]) macOff mac.1) :=
    (two rfl (Edit.Patches.refl e cal)).patch (by simp [ranges, len, artMacLen]) (by omega)
  exact two rfl (two rfl address)

lemma modifyBase_framed_iff (ok : macaddrModifyBase soc f mac i = .ok f') :
    (baseEdit i).Framed f f' ↔ (baseEdit i).TailBlank f ∧ (baseEdit i).ReadBack f := by
  rw [macaddrModifyBase] at ok
  split at ok
  · cases ok
  rename_i valid
  have few := noMacs_le soc
  cases read : f.artRead 0 artBaseSize with
  | error err =>
    rw [read] at ok
    cases ok
  | ok got =>
    rw [read] at ok
    have len := ArtFlash.artRead_length read
    have len' := mac.2
    have small : i.toNat * artMacLen + artMacLen ≤ artBaseSize := by
      simp only [artMacLen, artBaseSize]
      omega
    refine edit_framed_iff (e := baseEdit i) (Nat.dvd_zero 512) ?_ read ?_ ok
    · simpa [baseEdit, artBaseMac0] using small
    · refine (Edit.Patches.refl _ got).patch (by simp [baseEdit, len', artMacLen]) ?_
      simp only [artBaseMac0, artMacLen] at small ⊢
      omega

lemma modifyWifi_ok (ok : macaddrModifyWifi soc f mac i = .ok f') :
    0 ≤ i ∧ i < soc.wifiMax ∧ 32 ≤ (wifiEdit soc f i).size ∧
      ∃ cal, f.artRead (wifiEdit soc f i).offset (wifiEdit soc f i).size = .ok cal ∧
        f.artWrite (wifiEdit soc f i).offset (soc.editedCal cal i mac.1) = .ok f' := by
  rw [macaddrModifyWifi] at ok
  split at ok
  · rename_i family
    rw [modifyWifiAth10k] at ok
    split at ok
    · cases ok
    rename_i valid
    have edit : wifiEdit soc f i = ⟨soc.calOffset i.toNat, ath10kCalChecksumSize,
        [(ath10kCalMacOff, artMacLen), (ath10kCalCrc, 2)]⟩ := by
      simp [wifiEdit, family, Soc.calSize]
    simp only [edit, Soc.wifiMax, Soc.editedCal, family, if_true]
    cases header : f.artRead (soc.calOffset i.toNat) 2 with
    | error err =>
      simp only [header] at ok
      cases ok
    | ok hdr =>
      simp only [header] at ok
      change (if _ then _ else _) = _ at ok
      split at ok
      · cases ok
      refine ⟨by omega, by rw [ath10kWifiCount] at valid; omega, by decide, ?_⟩
      cases read : f.artRead (soc.calOffset i.toNat) ath10kCalChecksumSize with
      | error err =>
        rw [read] at ok
        cases ok
      | ok cal =>
        rw [read] at ok
        exact ⟨cal, rfl, ok⟩
  · rename_i family
    rw [modifyWifiArt] at ok
    split at ok
    · cases ok
    rename_i valid
    cases header : f.artRead (soc.calOffset (i.toNat / 2)) 16 with
    | error err =>
      simp only [header] at ok
      cases ok
    | ok hdr =>
      simp only [header] at ok
      change (if _ then _ else _) = _ at ok
      have edit : wifiEdit soc f i = ⟨soc.calOffset (i.toNat / 2), artCalSize hdr,
          [(artCalMac0 + i.toNat % 2 * artMacLen, artMacLen), (artCalCrc, 2)]⟩ := by
        simp [wifiEdit, family, Soc.calSize, header]
      have large : 32 ≤ artCalSize hdr := by
        rw [artCalSize]
        split <;> decide
      simp only [edit, Soc.wifiMax, Soc.editedCal, family, Bool.false_eq_true, if_false]
      split at ok
      · cases ok
      refine ⟨by omega, by rw [wifiCalMaxIdx] at valid; omega, large, ?_⟩
      cases read : f.artRead (soc.calOffset (i.toNat / 2)) (artCalSize hdr) with
      | error err =>
        rw [read] at ok
        cases ok
      | ok cal =>
        rw [read] at ok
        exact ⟨cal, rfl, ok⟩

lemma wifiEdit_aligned (soc : Soc) (f : ArtFlash) (i : Int) : 512 ∣ (wifiEdit soc f i).offset := by
  rw [wifiEdit]
  split <;> exact calOffset_aligned soc _

lemma wifiEdit_patches (soc : Soc) (f : ArtFlash) (i : Int) (mac : Mac) (large : 32 ≤ cal.length) :
    (∀ r ∈ (wifiEdit soc f i).ranges, r.1 + r.2 ≤ 32) ∧ (wifiEdit soc f i).Patches cal (soc.editedCal cal i mac.1) := by
  rw [wifiEdit, Soc.editedCal]
  split
  · refine ⟨?_, ath10kCal_patches mac (by omega) rfl⟩
    simp only [List.mem_cons, List.not_mem_nil, or_false]
    rintro r (rfl | rfl) <;> decide
  have small : artCalMac0 + i.toNat % 2 * artMacLen + 6 ≤ 26 := by
    simp only [artCalMac0, artMacLen]
    omega
  refine ⟨?_, artCal_patches mac (by omega) (by omega) rfl⟩
  simp only [List.mem_cons, List.not_mem_nil, or_false]
  rintro r (rfl | rfl)
  · simp only [artMacLen] at small ⊢
    omega
  · decide

lemma modifyWifi_framed_iff (ok : macaddrModifyWifi soc f mac i = .ok f') : (wifiEdit soc f i).Framed f f' ↔
      (wifiEdit soc f i).TailBlank f ∧ (wifiEdit soc f i).ReadBack f := by
  obtain ⟨-, -, large, cal, read, write⟩ := modifyWifi_ok ok
  have len := ArtFlash.artRead_length read
  obtain ⟨small, patches⟩ := wifiEdit_patches soc f i mac (len ▸ large)
  exact edit_framed_iff (wifiEdit_aligned soc f i) (fun r mem => Nat.le_trans (small r mem) large) read patches write

/-- A MAC edit that succeeds changes only the address (and the checksum of its calibration area)
exactly when what stands behind the written area in its last eMMC block or NOR sector is blank and
the bytes that were read for it are those of the flash. -/
theorem mac_edit_framed_iff (soc : Soc) (f f' : ArtFlash) (mac : Mac) (i : Int) :
    (macaddrModifyBase soc f mac i = .ok f' →
      ((baseEdit i).Framed f f' ↔ (baseEdit i).TailBlank f ∧ (baseEdit i).ReadBack f)) ∧
    (macaddrModifyWifi soc f mac i = .ok f' →
      ((wifiEdit soc f i).Framed f f' ↔
        (wifiEdit soc f i).TailBlank f ∧ (wifiEdit soc f i).ReadBack f)) :=
  ⟨modifyBase_framed_iff, modifyWifi_framed_iff⟩

/-! ## The condition on each kind of flash -/

lemma Edit.readBack (e : Edit) (served : f.flashType = .mmcFlash → ∀ b, f.emmc.readable b = true) : e.ReadBack f := by
  intro got read k lt _ _
  rw [ArtFlash.artRead_true read served, Mem.getD_read _ _ lt]

lemma Edit.tailBlank_of_span (whole : f.span e.size = e.size) : e.TailBlank f := by
  intro x touched tail
  have := touched.1
  omega

/-! ## Two boards -/

def sampleEmmc : Emmc where
  blksz := 512
  readable := fun _ => true
  writable := fun _ => true
  heap := fun _ => 0
  divides := Nat.dvd_refl 512

def sampleNor : Nor where
  eraseSize := 0x10000
  sect64k := false
  cypress := false
  pageSize := 256
  isLocked := fun _ _ => false
  pow := ⟨16, rfl⟩
  hybrid := by rintro ⟨⟩
  page := by decide

def sampleArt (flashType : SmemBoot) : ArtFlash where
  flashType := flashType
  blockSize := 0x10000
  smemArt := some 4
  gptArt := some 34
  emmc := sampleEmmc
  nor := sampleNor
  nand := ⟨0x20000, fun _ => false⟩
  cells := fun _ => 1

def sampleMac : Mac := ⟨[0x02, 0, 0, 0, 0, 1], rfl⟩

/-- Both edits succeed on the eMMC board and change nothing else. -/
theorem mac_edit_framed_emmc :
    (∃ f', macaddrModifyBase .ipq6018 (sampleArt .mmcFlash) sampleMac 0 = .ok f' ∧
      (baseEdit 0).Framed (sampleArt .mmcFlash) f') ∧
    (∃ f', macaddrModifyWifi .ipq6018 (sampleArt .mmcFlash) sampleMac 1 = .ok f' ∧
      (wifiEdit .ipq6018 (sampleArt .mmcFlash) 1).Framed (sampleArt .mmcFlash) f') := by
  have served : (sampleArt .mmcFlash).flashType = .mmcFlash →
      ∀ b, (sampleArt .mmcFlash).emmc.readable b = true := fun _ _ => rfl
  have header : (sampleArt .mmcFlash).artRead 0x1000 16 = .ok (List.replicate 16 1) :=
    congrArg Except.ok (ArtFlash.artRead_true rfl served)
  refine ⟨⟨_, rfl, ?_⟩, ?_⟩
  · refine ((mac_edit_framed_iff .ipq6018 _ _ sampleMac 0).1 rfl).mpr ⟨?_, Edit.readBack _ served⟩
    exact Edit.tailBlank_of_span (by decide)
  obtain ⟨f', ok⟩ : ∃ f', macaddrModifyWifi .ipq6018 (sampleArt .mmcFlash) sampleMac 1 = .ok f' := by
    change ∃ f', ((sampleArt .mmcFlash).artRead 0x1000 16 >>= _) = .ok f'
    rw [header]
    exact ⟨_, rfl⟩
  refine ⟨f', ok, ((mac_edit_framed_iff .ipq6018 _ _ sampleMac 1).2 ok).mpr
    ⟨Edit.tailBlank_of_span ?_, Edit.readBack _ served⟩⟩
  have size : (wifiEdit .ipq6018 (sampleArt .mmcFlash) 1).size = 0x10000 := by
    simp [wifiEdit, Soc.ath10k, Soc.calSize, Soc.calOffset, header, artCalSize, artCalSize64K]
  rw [size]
  decide

/-- On the NOR board the base edit erases a whole sector and writes 4 KiB of it back: the byte behind
them, the first of the calibration data, is lost. -/
theorem mac_edit_erases_calibration :
    ∃ f', macaddrModifyBase .ipq6018 (sampleArt .norFlash) sampleMac 0 = .ok f' ∧
      ¬ (baseEdit 0).Covers (sampleArt .norFlash) 0x41000 ∧
      (sampleArt .norFlash).cells 0x41000 = 1 ∧ f'.cells 0x41000 = 0xFF := by
  obtain ⟨buf, def_buf⟩ : ∃ b, b = patch ((sampleArt .norFlash).cells.read 0x40000 artBaseSize) 0
      sampleMac.1 := ⟨_, rfl⟩
  have len : buf.length = artBaseSize := by
    rw [def_buf, length_patch (by simp [sampleMac, artBaseSize]), Mem.length_read]
  obtain ⟨m', ok⟩ := Nor.artWrite_isOk (n := sampleNor) (a := 0x40000) (by decide) (fun _ _ => rfl)
    (sampleArt .norFlash).cells buf
  have ok' : (sampleArt .norFlash).artWrite 0 buf = .ok { sampleArt .norFlash with cells := m' } :=
    congrArg (Except.map _) ok
  have read : (sampleArt .norFlash).artRead 0 artBaseSize =
      .ok ((sampleArt .norFlash).cells.read 0x40000 artBaseSize) := rfl
  have run : macaddrModifyBase .ipq6018 (sampleArt .norFlash) sampleMac 0 =
      (sampleArt .norFlash).artWrite 0 buf := by
    have at_zero : artBaseMac0 + Int.toNat 0 * artMacLen = 0 := by decide
    rw [macaddrModifyBase, if_neg (by decide), read, at_zero]
    simp only [bind, Except.bind, ← def_buf]
  refine ⟨_, run.trans ok', ?_, rfl, ?_⟩
  · rintro ⟨_, r, mem, _, high⟩
    obtain rfl : r = (0, 6) := by simpa [baseEdit, artBaseMac0, artMacLen] using mem
    revert high
    decide
  · rw [ArtFlash.artWrite_cells (Nat.dvd_zero 512) ok', len, if_pos (by decide),
      List.getD_eq_default _ _ (by rw [len]; decide)]

/-! ## Ranges over several blocks of a NAND -/

def ArtFlash.Rewrites (f : ArtFlash) (offset : Nat) (buf : Bytes) : Prop :=
  ∃ f', f.artWrite offset buf = .ok f' ∧ f'.cells.read (f.base + offset) buf.length = buf ∧
    ∀ x, x < f.base + offset ∨ f.base + offset + buf.length ≤ x → f'.cells x = f.cells x

lemma ArtFlash.artWrite_nand {base offset : Nat} (nand : isNandFlash f.flashType = true)
    (part : f.artPartOffset = some base) :
    f.artWrite offset buf = (f.nand.artWrite f.cells base offset buf).map fun m => { f with cells := m } := by
  have other : f.flashType ≠ .mmcFlash ∧ isNorFlash f.flashType = false := by
    cases type : f.flashType <;> rw [type] at nand <;> simp_all [isNandFlash, isNorFlash]
  simp [ArtFlash.artWrite, ArtFlash.written, other, part, nand]

/-- On a NAND all of whose commands succeed, `art_write` rewrites a range exactly if it lies in one erase block: the
loop does not cut the data at the end of a block, and refuses what is longer. -/
theorem nand_rewrite_iff (f : ArtFlash) (nand : isNandFlash f.flashType = true) (base : Nat)
    (part : f.artPartOffset = some base) (pow : ∃ k, f.nand.erasesize = 2 ^ k) (aligned : f.nand.erasesize ∣ base)
    (good : ∀ b, f.nand.isBad b = false) (offset : Nat) (buf : Bytes) :
    f.Rewrites offset buf ↔ offset % f.nand.erasesize + buf.length ≤ f.nand.erasesize := by
  have pos : 0 < f.nand.erasesize := by
    obtain ⟨k, eq⟩ := pow
    rw [eq]
    exact Nat.two_pow_pos k
  have start : f.base = base := by
    have other : f.flashType ≠ .mmcFlash := by
      intro mmc
      rw [mmc] at nand
      cases nand
    rw [ArtFlash.base, if_neg other, part]
    rfl
  rw [ArtFlash.Rewrites, start, ArtFlash.artWrite_nand nand part, Nand.artWrite_eq pos aligned good]
  split_ifs with inside
  · refine iff_of_true ⟨_, rfl, ?_, fun x out => ?_⟩ inside
    · exact Mem.read_write _ _ _
    · exact Mem.write_outside out
  · refine iff_of_false ?_ inside
    rintro ⟨f', ok, -⟩
    cases ok

theorem nand_rewrite_calibration : (sampleArt .nandFlash).Rewrites 0x1000 (List.replicate 0x10000 7) := by
  refine (nand_rewrite_iff _ rfl 0x40000 rfl ⟨17, rfl⟩ (by decide) (fun _ => rfl) 0x1000 _).mpr ?_
  rw [List.length_replicate]
  decide

/-- A calibration area of 128 KiB reaches over the end of a 128 KiB block and cannot be written. -/
theorem nand_rewrite_refused : (sampleArt .nandFlash).artWrite 0x1000 (List.replicate 0x20000 7) = .error .einval := by
  have long : ¬ 0x1000 % (sampleArt .nandFlash).nand.erasesize + (List.replicate 0x20000 (7 : UInt8)).length ≤
      (sampleArt .nandFlash).nand.erasesize := by
    rw [List.length_replicate]
    decide
  rw [ArtFlash.artWrite_nand rfl rfl, Nand.artWrite_eq (by decide) (by decide) (fun _ => rfl), if_neg long]
  rfl

end ResQBoot
