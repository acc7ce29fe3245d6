import ResQBoot.Lib.SkipBad
import ResQBoot.Flash.Tables

/-!
# The device commands

The commands that `flash` and `flashread` build as text, with what they do to the devices; `Io` says when the devices
fail. The NAND commands skip bad blocks as `nand_util.c` does: `check_skip_len` looks for room up to the end of the chip,
and the loop moves one piece for each good block. Every command is logged.
-/

namespace ResQBoot.Flash

inductive Layout where
  | default
  | linux
  | sbl
  deriving DecidableEq, Repr

inductive Cmd where
  | nandDevice
  | ipqNand (layout : Layout)
  | nandErase (off size : Nat)
  | nandWrite (addr off size : Nat)
  | nandRead (addr off size : Nat)
  | nandReadRaw (addr off pages : Nat)
  | mmcErase (start cnt : Nat)
  | mmcWrite (addr start cnt : Nat)
  | mmcWriteBuf (start cnt : Nat) (data : Bytes)
  | mmcRead (addr start cnt : Nat)
  | sfProbe
  | sfErase (off len : Nat)
  | sfWrite (addr off len : Nat)
  | sfWriteBuf (off : Nat) (data : Bytes)
  | sfRead (addr off len : Nat)
  | ubiWrite (addr : Nat) (name : Bytes) (size : Nat)
  deriving DecidableEq, Repr

inductive Device where
  | nand
  | emmc
  | nor
  deriving DecidableEq, Repr

def deviceOf : SmemBoot → Option Device
  | .nandFlash | .qspiNandFlash => some .nand
  | .mmcFlash => some .emmc
  | .spiFlash => some .nor
  | _ => none

lemma deviceOf_nand {ft : SmemBoot} (nand : isNandFlash ft = true) : deviceOf ft = some .nand := by
  cases ft <;> first | rfl | cases nand

lemma nand_of_device {ft : SmemBoot} (device : deviceOf ft = some .nand) : isNandFlash ft = true := by
  cases ft <;> first | rfl | cases device

lemma mmc_of_device {ft : SmemBoot} (device : deviceOf ft = some .emmc) : ft = .mmcFlash := by
  cases ft <;> first | rfl | cases device

lemma spi_of_device {ft : SmemBoot} (device : deviceOf ft = some .nor) : ft = .spiFlash := by
  cases ft <;> first | rfl | cases device

namespace Device

def erase (off part : Nat) : Device → Cmd
  | .nand => .nandErase off part
  | .emmc => .mmcErase off part
  | .nor => .sfErase off part

def write (addr off size : Nat) : Device → Cmd
  | .nand => .nandWrite addr off size
  | .emmc => .mmcWrite addr off size
  | .nor => .sfWrite addr off size

def read (addr off size : Nat) : Device → Cmd
  | .nand => .nandRead addr off size
  | .emmc => .mmcRead addr off size
  | .nor => .sfRead addr off size

end Device

structure Io where
  ok : Nat → Bool
  erases : Nat → Bool
  writes : Nat → Bool
  reads : Nat → Bool

structure World where
  ram : Mem
  nand : Mem
  oob : Mem
  emmc : Mem
  nor : Mem
  flashTypeNew : Option SmemBoot
  log : List Cmd
  programmed : List (Nat × Nat)

namespace Chip

variable (c : Chip)

lemma erasesize_pos : 0 < c.erasesize := by
  obtain ⟨k, -, eq⟩ := c.block
  rw [eq]
  exact Nat.two_pow_pos k

lemma writesize_pos : 0 < c.writesize := by
  obtain ⟨k, -, eq⟩ := c.page
  rw [eq]
  exact Nat.two_pow_pos k

def checkSkipLen : Nat → Nat → Nat → Nat → Nat → Bool → Option (Bool × Nat)
  | 0, _, _, _, _, _ => none
  | fuel + 1, offset, length, lenExclBad, used, skip =>
    if lenExclBad < length then
      if offset ≥ c.size then none
      else
        let blockLen := c.erasesize - offset % c.erasesize
        if c.bad (offset / c.erasesize) then
          checkSkipLen fuel (offset + blockLen) length lenExclBad (used + blockLen) true
        else checkSkipLen fuel (offset + blockLen) length (lenExclBad + blockLen) (used + blockLen) skip
    else some (skip, if lenExclBad > length then used - (lenExclBad - length) else used)

def seen (i : Nat) : Bool := c.bad (i * c.erasesize % 2 ^ 32 / c.erasesize)

def skipBad (offset length lim : Nat) : Option (List (Nat × Nat)) :=
  if offset % c.writesize ≠ 0 then none
  else
    match c.checkSkipLen (c.size / c.erasesize + 1) offset length 0 0 false with
    | none => none
    | some (needSkip, used) =>
      if used > lim then none
      else if needSkip then
        some (Skip.pieces c.erasesize c.seen (c.size / c.erasesize - offset / c.erasesize) offset length)
      else some [(offset, length)]

def writePieces (io : Io) : List (Nat × Nat) → Bytes → Mem → Bool × Mem × List (Nat × Nat)
  | [], data, m => (data.isEmpty, m, [])
  | (off, len) :: t, data, m =>
    let m' := m.program off (data.take len)
    if io.writes off && m'.read off len = data.take len then
      let (ok, m'', log) := writePieces io t (data.drop len) m'
      (ok, m'', (off, len) :: log)
    else (false, m', [(off, len)])

def readPieces (m : Mem) (ps : List (Nat × Nat)) : Bytes := ps.flatMap fun p => m.read p.1 p.2

def rawPage (w : World) (off : Nat) : Bytes :=
  w.nand.read off c.writesize ++ w.oob.read (off / c.writesize * c.oobsize) c.oobsize

def rawAccess (w : World) (off pages : Nat) : Bytes :=
  (List.range pages).flatMap fun k =>
    if c.seen ((off + k * c.writesize) / c.erasesize) then List.replicate (c.writesize + c.oobsize) 0xFF
    else c.rawPage w (off + k * c.writesize)

def eraseBlocks (io : Io) (unit : Nat) : Nat → Nat → Mem → Mem
  | 0, _, m => m
  | n + 1, i, m =>
    eraseBlocks io unit n (i + 1)
      (if !c.bad i && io.erases (i * c.erasesize) then m.fill (i * unit) unit 0xFF else m)

def sparesize : Nat := c.erasesize / c.writesize * c.oobsize

end Chip

def effect (b : Board) (io : Io) : Cmd → World → Bool × World
  | .nandDevice, w => (b.nand.isSome, w)
  | .ipqNand _, w => (true, w)
  | .nandErase off size, w =>
    match b.nand with
    | none => (false, w)
    | some c =>
      if off ≥ c.size || size > c.size - off || off % c.erasesize ≠ 0 then (false, w)
      else
        let n := (size + c.erasesize - 1) / c.erasesize
        (true, { w with
          nand := c.eraseBlocks io c.erasesize n (off / c.erasesize) w.nand
          oob := c.eraseBlocks io c.sparesize n (off / c.erasesize) w.oob })
  | .nandWrite addr off size, w =>
    match b.nand with
    | none => (false, w)
    | some c =>
      if off ≥ c.size || size > c.size - off then (false, w)
      else
        match c.skipBad off size (c.size - off) with
        | none => (false, w)
        | some ps =>
          let (ok, m, log) := Chip.writePieces io ps (w.ram.read addr size) w.nand
          (ok, { w with nand := m, programmed := w.programmed ++ log })
  | .nandRead addr off size, w =>
    match b.nand with
    | none => (false, w)
    | some c =>
      if off ≥ c.size || size > c.size - off then (false, w)
      else
        match c.skipBad off size (c.size - off) with
        | none => (false, w)
        | some ps =>
          let data := Chip.readPieces w.nand ps
          (data.length = size, { w with ram := w.ram.write addr data })
  | .nandReadRaw addr off pages, w =>
    match b.nand with
    | none => (false, w)
    | some c =>
      if off ≥ c.size || pages * c.writesize % 2 ^ 32 > c.size - off then (false, w)
      else (true, { w with ram := w.ram.write addr (c.rawAccess w off pages) })
  | .mmcErase start cnt, w =>
    match b.emmc with
    | none => (false, w)
    | some d => (true, { w with emmc := w.emmc.fill (start * d.blksz) (cnt * d.blksz) 0 })
  | .mmcWrite addr start cnt, w =>
    match b.emmc with
    | none => (false, w)
    | some d =>
      if start + cnt > d.lba then (false, w)
      else (true, { w with emmc := w.emmc.write (start * d.blksz) (w.ram.read addr (cnt * d.blksz)) })
  | .mmcWriteBuf start cnt data, w =>
    match b.emmc with
    | none => (false, w)
    | some d =>
      if start + cnt > d.lba then (false, w)
      else (true, { w with emmc := w.emmc.write (start * d.blksz) data })
  | .mmcRead addr start cnt, w =>
    match b.emmc with
    | none => (false, w)
    | some d =>
      if cnt ≠ 0 ∧ start + cnt > d.lba then (false, w)
      else (true, { w with ram := w.ram.write addr (w.emmc.read (start * d.blksz) (cnt * d.blksz)) })
  | .sfProbe, w => (b.norSize ≠ 0, w)
  | .sfErase off len, w =>
    if len = 0 || off + len > b.norSize || off % b.norSector ≠ 0 || len % b.norSector ≠ 0 then (false, w)
    else (true, { w with nor := w.nor.fill off len 0xFF })
  | .sfWrite addr off len, w =>
    if len = 0 || off + len > b.norSize then (false, w)
    else (true, { w with nor := w.nor.program off (w.ram.read addr len) })
  | .sfWriteBuf off data, w =>
    if off + data.length > b.norSize then (false, w)
    else (true, { w with nor := w.nor.program off data })
  | .sfRead addr off len, w =>
    if len = 0 || off + len > b.norSize then (false, w)
    else (true, { w with ram := w.ram.write addr (w.nor.read off len) })
  | .ubiWrite _ _ _, w => (true, w)

def exec (b : Board) (io : Io) (c : Cmd) (w : World) : Bool × World :=
  let w' := { w with log := w.log ++ [c] }
  if io.ok w.log.length then effect b io c w' else (false, w')

def runCommand (b : Board) (io : Io) : List Cmd → World → Bool × World
  | [], w => (true, w)
  | c :: t, w =>
    match exec b io c w with
    | (true, w) => runCommand b io t w
    | (false, w) => (false, w)

def sound : Io := ⟨fun _ => true, fun _ => true, fun _ => true, fun _ => true⟩

def idle : World := ⟨fun _ => 0, fun _ => 0xFF, fun _ => 0xFF, fun _ => 0, fun _ => 0xFF, none, [], []⟩

lemma exec_sound (b : Board) (c : Cmd) (w : World) :
    exec b sound c w = effect b sound c { w with log := w.log ++ [c] } := rfl

/-! ### The log -/

section Log

variable (b : Board) (io : Io)

lemma effect_log (c : Cmd) (w : World) : (effect b io c w).2.log = w.log := by
  cases c <;> simp only [effect] <;> (repeat' split) <;> rfl

lemma effect_flashTypeNew (c : Cmd) (w : World) : (effect b io c w).2.flashTypeNew = w.flashTypeNew := by
  cases c <;> simp only [effect] <;> (repeat' split) <;> rfl

lemma exec_log (c : Cmd) (w : World) : (exec b io c w).2.log = w.log ++ [c] := by
  rw [exec]
  split
  · rw [effect_log]
  · rfl

lemma runCommand_log (cs : List Cmd) (w : World) : ∃ run, run <+: cs ∧ (runCommand b io cs w).2.log = w.log ++ run := by
  induction cs generalizing w with
  | nil => exact ⟨[], List.prefix_rfl, by simp [runCommand]⟩
  | cons c t ih =>
    have first := exec_log b io c w
    rw [runCommand]
    split
    · rename_i w₁ done
      rw [done] at first
      obtain ⟨run, pre, log⟩ := ih w₁
      refine ⟨c :: run, List.cons_prefix_cons.mpr ⟨rfl, pre⟩, ?_⟩
      rw [log, first, List.append_assoc]
      rfl
    · rename_i w₁ failed
      rw [failed] at first
      exact ⟨[c], List.cons_prefix_cons.mpr ⟨rfl, List.nil_prefix⟩, first⟩

lemma runCommand_flashTypeNew (cs : List Cmd) (w : World) : (runCommand b io cs w).2.flashTypeNew = w.flashTypeNew := by
  have one (c : Cmd) (w : World) : (exec b io c w).2.flashTypeNew = w.flashTypeNew := by
    rw [exec]
    split
    · rw [effect_flashTypeNew]
    · rfl
  induction cs generalizing w with
  | nil => rfl
  | cons c t ih =>
    have first := one c w
    rw [runCommand]
    split <;> rename_i eq <;> rw [eq] at first
    · exact (ih _).trans first
    · exact first

end Log

end ResQBoot.Flash
