import ResQBoot.Flash.Agree

/-!
# What `flash` leaves on an eMMC or a NOR

A `flash` that succeeds without clean markers has erased its target and written the file to its beginning, and every
other cell is as it was.
-/

namespace ResQBoot.Flash

section Burn

variable {b : Board} {io : Io} {w : World} {t : Target} {dev : Device} {name : Bytes} {addr n : Nat}

/-! ### The place of a target -/

structure Placed (b : Board) (name : Bytes) (t : Target) (dev : Device) (lo hi : Nat) : Prop where
  range : assigned b name = some (dev, lo, hi)
  start : t.offset = lo
  ends : lo + t.partSize ≤ hi
  pos : 0 < t.partSize
  whole : dev = .emmc → lo + t.partSize = hi

structure Burns (b : Board) (name : Bytes) (addr n : Nat) (dev : Device) (lo hi part : Nat) (w w' : World) :
    Prop where
  notNand : dev ≠ .nand
  range : assigned b name = some (dev, lo, hi)
  ends : lo + part ≤ hi
  pos : 0 < part
  whole : dev = .emmc → lo + part = hi
  fits : roundUp n (dev.unit b) ≤ part * dev.unit b
  cells : w'.cells dev = (w.cells dev).burn (lo * dev.unit b) (part * dev.unit b) dev.blank
    (w.ram.read addr (roundUp n (dev.unit b)))
  others : ∀ dev' ≠ dev, w'.cells dev' = w.cells dev'
  ram : w'.ram = w.ram

section Cells

variable {lo hi part i : Nat} {w' : World}

lemma Burns.at (burns : Burns b name addr n dev lo hi part w w') (inside : i < part * dev.unit b) :
    w'.cells dev (lo * dev.unit b + i) =
      if i < roundUp n (dev.unit b) then w.ram (addr + i) else dev.blank := by
  rw [burns.cells, Mem.burn_inside inside]
  split
  · rename_i lt
    exact Mem.getD_read _ _ lt
  · rename_i out
    rw [List.getD_eq_default _ _ (by rw [Mem.length_read]; omega)]

lemma Burns.outside (burns : Burns b name addr n dev lo hi part w w') {x : Nat}
    (out : x < lo * dev.unit b ∨ (lo + part) * dev.unit b ≤ x) : w'.cells dev x = w.cells dev x := by
  rw [Nat.add_mul] at out
  rw [burns.cells, Mem.burn_outside out]

end Cells

/-! ### Once more -/

end Burn

end ResQBoot.Flash
