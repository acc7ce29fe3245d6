import Mathlib.Data.List.Find
import ResQBoot.Lib.Fields

/-!
# Firmware images

What `check_fw_type_ex` and `parse_sysupgrade` make of an image in RAM. A sysupgrade image is a tar file, possibly behind
its first ten bytes, or a kernel followed by a squashfs.
-/

namespace ResQBoot.Upgrade

inductive FwType where
  | fit
  | gpt
  | qsdk
  | ubi
  | cdt
  | elf
  | mibib
  | sysupgrade
  deriving DecidableEq, Repr

def u32At (m : Mem) (address : Nat) : Nat := leNat (m.read address 4)

def magicHsqs : Nat := 0x73717368

def hlosSizesKb : List Nat := (List.range 29).map fun i => 2048 + i * 512

def fwHlosSize (m : Mem) (address : Nat) : Nat :=
  ((hlosSizesKb.find? fun kb => u32At m (address + kb * 1024) = magicHsqs).getD 16384) * 1024

def checkFwType (m : Mem) (address : Nat) : Option FwType :=
  if u32At m (address + 0x5c) = 0x73616c46 then some .qsdk
  else if u32At m address = 0x23494255 then some .ubi
  else if u32At m address = 0xedfe0dd0 then some .fit
  else if leNat (m.read (address + 0x1fe) 2) = 0xaa55 ∨ u32At m (address + 0x4000) = 0x20494645 then some .gpt
  else if u32At m address = 0x00544443 then some .cdt
  else if u32At m address = 0x464c457f then some .elf
  else if u32At m address = 0xfe569fac then some .mibib
  else if m.read address 10 = bytes "sysupgrade" then some .sysupgrade
  else none

/-! ## Sysupgrade images -/

structure Parts where
  kernelData : Nat
  kernelSize : Nat
  rootfsData : Nat
  rootfsSize : Nat
  deriving DecidableEq, Repr

def tarSizeLoop : Nat → Bool → Bytes → Option Nat
  | val, _, [] => some val
  | val, seen, c :: t =>
    if c = 32 ∨ c = 0 then (if seen then some val else tarSizeLoop val seen t)
    else if c < 48 ∨ 55 < c then none
    else if val > (2 ^ 64 - 1 - 7) / 8 then none
    else tarSizeLoop (val * 8 + (c.toNat - 48)) true t

def tarParseSize (s : Bytes) : Option Nat := tarSizeLoop 0 false s

def named (pat : String) (name : Bytes) : Bool := (find (bytes pat) name).isSome

def tarIsKernelName (name : Bytes) : Bool := named "kernel" name || named "hlos" name || named "fit" name

def tarIsRootfsName (name : Bytes) : Bool := named "root" name || named "squashfs" name

def isUstar (m : Mem) (hdr : Nat) : Bool := m.read (hdr + 257) 5 = bytes "ustar"

structure Members where
  kernel : Option (Nat × Nat) := none
  rootfs : Option (Nat × Nat) := none

def Members.add (p : Members) (name : Bytes) (data size : Nat) : Members :=
  if 0 < size ∧ p.kernel = none ∧ tarIsKernelName name then { p with kernel := some (data, size) }
  else if 0 < size ∧ p.rootfs = none ∧ tarIsRootfsName name then { p with rootfs := some (data, size) }
  else p

def tarLoop (m : Mem) (stop : Nat) : Nat → Nat → Members → Option Members
  | 0, _, p => some p
  | entries + 1, pos, p =>
    if stop < pos + 512 ∨ m pos = 0 ∨ !isUstar m pos then some p
    else
      match tarParseSize (m.read (pos + 124) 12) with
      | none => none
      | some fsize =>
        let padded := roundUp fsize 512
        if stop < pos + 512 + padded then none
        else
          let name := cstr (m.read pos 100)
          tarLoop m stop entries (pos + 512 + padded) (p.add name (pos + 512) fsize)

def hsqsScan (m : Mem) (base headerOff size : Nat) : Option Members :=
  match (List.range ((size - headerOff) / 4)).find? fun k => u32At m (base + headerOff + 4 * k) = magicHsqs with
  | none => some {}
  | some k =>
    let i := headerOff + 4 * k
    if size < i + 48 then none
    else
      let bytesUsed := leNat (m.read (base + i + 40) 8)
      if bytesUsed = 0 ∨ size - i < bytesUsed then none
      else some { kernel := some (base + headerOff, i - headerOff), rootfs := some (base + i, bytesUsed) }

def Members.parts (p : Members) : Option Parts :=
  match p.kernel, p.rootfs with
  | some (kernelData, kernelSize), some (rootfsData, rootfsSize) =>
    if kernelSize = 0 ∨ rootfsSize = 0 then none else some ⟨kernelData, kernelSize, rootfsData, rootfsSize⟩
  | _, _ => none

def parseSysupgrade (m : Mem) (base size : Nat) : Option Parts :=
  if size < 512 then none
  else
    let headerOff := if isUstar m base then 0 else 10
    if size < headerOff + 512 then none
    else if isUstar m (base + headerOff) || isUstar m base then
      (tarLoop m (base + size) 32 (base + headerOff) {}).bind Members.parts
    else (hsqsScan m base headerOff size).bind Members.parts

/-! ## The parts lie in the image and do not overlap -/

section Inside

variable {m : Mem} {base size : Nat}

def InImage (base size : Nat) (part : Nat × Nat) : Prop := base ≤ part.1 ∧ part.1 + part.2 ≤ base + size

def Apart (p q : Nat × Nat) : Prop := p.1 + p.2 ≤ q.1 ∨ q.1 + q.2 ≤ p.1

/-- The members found up to `pos` lie behind `base`, and not in each other. -/
structure Members.Upto (base pos : Nat) (p : Members) : Prop where
  kernel : ∀ part, p.kernel = some part → base ≤ part.1 ∧ part.1 + part.2 ≤ pos
  rootfs : ∀ part, p.rootfs = some part → base ≤ part.1 ∧ part.1 + part.2 ≤ pos
  apart : ∀ part part', p.kernel = some part → p.rootfs = some part' → Apart part part'

variable {p q : Members} {data fsize headerOff pos next : Nat} {parts : Parts}

lemma Members.Upto.empty (pos : Nat) : Members.Upto base pos {} :=
  ⟨by rintro _ ⟨⟩, by rintro _ ⟨⟩, by rintro _ _ ⟨⟩⟩

lemma Members.Upto.mono (upto : p.Upto base pos) (le : pos ≤ next) : p.Upto base next :=
  ⟨fun part eq => (upto.kernel part eq).imp_right (Nat.le_trans · le),
    fun part eq => (upto.rootfs part eq).imp_right (Nat.le_trans · le), upto.apart⟩

lemma Members.Upto.add (upto : p.Upto base data) (name : Bytes) (above : base ≤ data) (fits : data + fsize ≤ next) :
    (p.add name data fsize).Upto base next := by
  have kept := upto.mono (Nat.le_trans (Nat.le_add_right data fsize) fits)
  rw [Members.add]
  split_ifs
  · refine ⟨?_, kept.rootfs, ?_⟩
    · rintro _ ⟨⟩
      exact ⟨above, fits⟩
    · rintro _ part' ⟨⟩ eq
      exact .inr (upto.rootfs part' eq).2
  · refine ⟨kept.kernel, ?_, ?_⟩
    · rintro _ ⟨⟩
      exact ⟨above, fits⟩
    · rintro part _ eq ⟨⟩
      exact .inl (upto.kernel part eq).2
  · exact kept

lemma tarLoop_upto (entries pos : Nat) (p : Members) (above : base ≤ pos) (inside : pos ≤ base + size)
    (upto : p.Upto base pos) (done : tarLoop m (base + size) entries pos p = some q) : q.Upto base (base + size) := by
  induction entries generalizing pos p with
  | zero =>
    cases done
    exact upto.mono inside
  | succ entries ih =>
    rw [tarLoop] at done
    split at done
    · cases done
      exact upto.mono inside
    split at done
    · cases done
    rename_i fsize _
    dsimp only at done
    split_ifs at done with fits
    have le : fsize ≤ roundUp fsize 512 := le_roundUp (by decide)
    exact ih _ _ (by omega) (by omega) ((upto.mono (by omega)).add _ (by omega) (by omega)) done

lemma hsqsScan_upto (done : hsqsScan m base headerOff size = some q) : q.Upto base (base + size) := by
  rw [hsqsScan] at done
  split at done
  · cases done
    exact .empty _
  dsimp only at done
  split_ifs at done with long used
  cases done
  refine ⟨?_, ?_, ?_⟩
  · rintro _ ⟨⟩
    dsimp only
    omega
  · rintro _ ⟨⟩
    dsimp only
    omega
  · rintro _ _ ⟨⟩ ⟨⟩
    refine .inl ?_
    dsimp only
    omega

lemma parseSysupgrade_members (parsed : parseSysupgrade m base size = some parts) :
    ∃ q : Members, q.Upto base (base + size) ∧ q.parts = some parts := by
  rw [parseSysupgrade] at parsed
  split at parsed
  · cases parsed
  dsimp only at parsed
  generalize (if isUstar m base then 0 else 10) = headerOff at parsed
  split_ifs at parsed
  · obtain ⟨q, loop, all⟩ := Option.bind_eq_some_iff.mp parsed
    exact ⟨q, tarLoop_upto 32 _ {} (Nat.le_add_right _ _) (by omega) (.empty _) loop, all⟩
  · obtain ⟨q, scan, all⟩ := Option.bind_eq_some_iff.mp parsed
    exact ⟨q, hsqsScan_upto scan, all⟩

lemma parseSysupgrade_placed (parsed : parseSysupgrade m base size = some parts) :
    (0 < parts.kernelSize ∧ 0 < parts.rootfsSize) ∧ InImage base size (parts.kernelData, parts.kernelSize) ∧
      InImage base size (parts.rootfsData, parts.rootfsSize) ∧
      Apart (parts.kernelData, parts.kernelSize) (parts.rootfsData, parts.rootfsSize) := by
  obtain ⟨q, upto, all⟩ := parseSysupgrade_members parsed
  rw [Members.parts] at all
  split at all
  · rename_i kernel rootfs
    split_ifs at all with full
    cases all
    rw [not_or] at full
    exact ⟨⟨Nat.pos_of_ne_zero full.1, Nat.pos_of_ne_zero full.2⟩, upto.kernel _ kernel, upto.rootfs _ rootfs,
      upto.apart _ _ kernel rootfs⟩
  · cases all

/-! ### The parts are found in the image alone -/

variable {m' : Mem}

lemma u32At_congr {a : Nat} (same : ∀ x, a ≤ x → x < a + 4 → m x = m' x) : u32At m a = u32At m' a := by
  rw [u32At, u32At, Mem.read_congr same]

lemma isUstar_congr {hdr : Nat} (same : ∀ x, hdr ≤ x → x < hdr + 512 → m x = m' x) : isUstar m hdr = isUstar m' hdr := by
  rw [isUstar, isUstar, Mem.read_congr fun x _ _ => same x (by omega) (by omega)]

section

variable (same : ∀ x, base ≤ x → x < base + size → m x = m' x)
include same

lemma tarLoop_congr (entries pos : Nat) (above : base ≤ pos)
    (p : Members) : tarLoop m (base + size) entries pos p = tarLoop m' (base + size) entries pos p := by
  induction entries generalizing pos p with
  | zero => rfl
  | succ entries ih =>
    rw [tarLoop, tarLoop]
    by_cases short : base + size < pos + 512
    · rw [if_pos (.inl short), if_pos (.inl short)]
    have header (x : Nat) (ge : pos ≤ x) (lt : x < pos + 512) : m x = m' x := same x (by omega) (by omega)
    have sizeField : m.read (pos + 124) 12 = m'.read (pos + 124) 12 :=
      Mem.read_congr fun x _ _ => header x (by omega) (by omega)
    have name : m.read pos 100 = m'.read pos 100 := Mem.read_congr fun x _ _ => header x (by omega) (by omega)
    rw [header pos (Nat.le_refl _) (by omega), isUstar_congr header, sizeField, name]
    cases tarParseSize (m'.read (pos + 124) 12) with
    | none => rfl
    | some fsize =>
      have next : base ≤ pos + 512 + roundUp fsize 512 := by omega
      simp only [ih _ next]

lemma hsqsScan_congr :
    hsqsScan m base headerOff size = hsqsScan m' base headerOff size := by
  have magic : ((List.range ((size - headerOff) / 4)).find? fun k => u32At m (base + headerOff + 4 * k) = magicHsqs) =
      (List.range ((size - headerOff) / 4)).find? fun k => u32At m' (base + headerOff + 4 * k) = magicHsqs := by
    refine List.find?_congr fun k mem => ?_
    have lt := List.mem_range.mp mem
    rw [u32At_congr fun x _ _ => same x (by omega) (by omega)]
  rw [hsqsScan, hsqsScan, magic]
  cases (List.range ((size - headerOff) / 4)).find? fun k => u32At m' (base + headerOff + 4 * k) = magicHsqs with
  | none => rfl
  | some k =>
    by_cases short : size < headerOff + 4 * k + 48
    · simp only [if_pos short]
    · have superblock : m.read (base + (headerOff + 4 * k) + 40) 8 = m'.read (base + (headerOff + 4 * k) + 40) 8 :=
        Mem.read_congr fun x _ _ => same x (by omega) (by omega)
      simp only [superblock]

lemma parseSysupgrade_congr :
    parseSysupgrade m base size = parseSysupgrade m' base size := by
  rw [parseSysupgrade, parseSysupgrade]
  by_cases short : size < 512
  · rw [if_pos short, if_pos short]
  rw [if_neg short, if_neg short, isUstar_congr fun x _ _ => same x (by omega) (by omega)]
  simp only
  generalize (if isUstar m' base then 0 else 10) = headerOff
  by_cases short : size < headerOff + 512
  · rw [if_pos short, if_pos short]
  · rw [if_neg short, if_neg short, isUstar_congr fun x _ _ => same x (by omega) (by omega), hsqsScan_congr same,
      tarLoop_congr same _ _ (Nat.le_add_right _ _)]

end

end Inside

end ResQBoot.Upgrade
