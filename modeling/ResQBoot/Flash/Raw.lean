import Mathlib.Data.List.TakeWhile
import ResQBoot.Flash.ChunkAgree

/-!
# Raw images of a NAND

`nand write.raw` of `cmd_nand.c`, which programs pages with their spare bytes and compares each with what it then reads,
and a raw backup, which is read in chunks.
-/

namespace ResQBoot.Flash

def Chip.rawAccessWrite (c : Chip) (io : Io) : Nat → Nat → Nat → World → Bool × World
  | 0, _, _, w => (true, w)
  | count + 1, addr, off, w =>
    if c.seen (off / c.erasesize) then
      rawAccessWrite c io count (addr + (c.writesize + c.oobsize)) (off + c.writesize) w
    else
      let data := w.ram.read addr c.writesize
      let spare := w.ram.read (addr + c.writesize) c.oobsize
      let w := { w with
        nand := w.nand.program off data
        oob := w.oob.program (off / c.writesize * c.oobsize) spare
        programmed := w.programmed ++ [(off, c.writesize)] }
      if io.writes off && w.nand.read off c.writesize = data &&
          w.oob.read (off / c.writesize * c.oobsize) c.oobsize = spare then
        rawAccessWrite c io count (addr + (c.writesize + c.oobsize)) (off + c.writesize) w
      else (false, w)

def nandWriteRaw (b : Board) (io : Io) (addr pagecount : Nat) (w : World) : Bool × World :=
  match b.nand with
  | none => (false, w)
  | some c =>
    if pagecount * c.writesize % 2 ^ 32 > c.size then (false, w) else c.rawAccessWrite io pagecount addr 0 w

section Write

variable {c : Chip} {io : Io} {w : World} {addr p n x : Nat}

end Write

/-! ### An erased chip -/

section Erase

variable {c : Chip} {io : Io} {w : World} {m : Mem} {unit n i x : Nat}

end Erase

/-! ### A raw backup -/

def Chip.rawTotal (c : Chip) : Nat := c.size / c.writesize * (c.writesize + c.oobsize)

section Backup

variable {b : Board} {c : Chip} {io : Io} {addr : Nat} {w : World} {limits : List Nat} {file : Bytes}

end Backup

end ResQBoot.Flash
