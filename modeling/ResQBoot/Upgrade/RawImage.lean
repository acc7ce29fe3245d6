import ResQBoot.Upgrade.Capacity

/-!
# Raw images

The capacity of a raw backup, the pages of a chunk, the size that the upgrade asks for and the page count of its
`nand write.raw` are computed in four places, and fit together.
-/

namespace ResQBoot.Upgrade

open Flash

namespace Host

variable {h : Host} {c : Chip} {e : Session}

end Host

def numbered : World := { idle with nand := fun x => UInt8.ofNat x, oob := fun x => UInt8.ofNat (0x80 + x) }

end ResQBoot.Upgrade
