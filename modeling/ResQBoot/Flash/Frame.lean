import ResQBoot.Flash.Burn

/-!
# Which cells change

On the eMMC and on the NOR a command changes no cell outside the range that it names. Everything that is executed is
logged, so that a cell which no command of a stretch of the log names is at the end what it was at its start (`Framed`).
The commands of `flash` and `flasherase` name only cells that the tables assign to the name (`ChangesOnly`).
-/

namespace ResQBoot.Flash

def Cmd.Hits (b : Board) (c : Cmd) (dev : Device) (x : Nat) : Prop :=
  ∃ off len, c.range = some (dev, off, len) ∧ off * dev.unit b ≤ x ∧ x < (off + len) * dev.unit b

structure Framed (b : Board) (w w' : World) : Prop where
  grows : w.log <+: w'.log
  cells : ∀ dev ≠ .nand, ∀ x, (∀ c ∈ w'.log.drop w.log.length, ¬ c.Hits b dev x) → w'.cells dev x = w.cells dev x

section Frame

variable {b : Board} {io : Io} {w w' w'' : World} {t : Target} {dev : Device} {name : Bytes} {addr n x : Nat}

lemma Framed.refl (w : World) : Framed b w w := ⟨List.prefix_rfl, fun _ _ _ _ => rfl⟩

lemma Framed.trans (first : Framed b w w') (second : Framed b w' w'') : Framed b w w'' := by
  have grows := first.grows.trans second.grows
  refine ⟨grows, fun dev notNand x out => ?_⟩
  obtain ⟨run, log⟩ := first.grows
  obtain ⟨run', log'⟩ := second.grows
  have early : w'.log.drop w.log.length = run := by rw [← log, List.drop_left]
  have late : w''.log.drop w'.log.length = run' := by rw [← log', List.drop_left]
  have all : w''.log.drop w.log.length = run ++ run' := by rw [← log', ← log, List.append_assoc, List.drop_left]
  rw [all] at out
  rw [second.cells dev notNand x (by rw [late]; exact fun c mem => out c (List.mem_append_right run mem)),
    first.cells dev notNand x (by rw [early]; exact fun c mem => out c (List.mem_append_left run' mem))]

variable (b io)

variable {b io}

/-- The cell lies in the range that the tables assign to the name. -/
def Covers (b : Board) (name : Bytes) (dev : Device) (x : Nat) : Prop :=
  ∃ lo hi, assigned b name = some (dev, lo, hi) ∧ lo * dev.unit b ≤ x ∧ x < hi * dev.unit b

/-- No cell outside the ranges of the names changes, and `flupdate` is not in effect. -/
structure ChangesOnly (b : Board) (names : List Bytes) (w w' : World) : Prop where
  cells : ∀ dev ≠ .nand, ∀ x, (∀ name ∈ names, ¬ Covers b name dev x) → w'.cells dev x = w.cells dev x
  override : w'.flashTypeNew = none

lemma ChangesOnly.trans {names : List Bytes} (first : ChangesOnly b names w w') (second : ChangesOnly b names w' w'') :
    ChangesOnly b names w w'' :=
  ⟨fun dev notNand x out => (second.cells dev notNand x out).trans (first.cells dev notNand x out), second.override⟩

lemma ChangesOnly.mono {names names' : List Bytes} (changes : ChangesOnly b names w w') (sub : names ⊆ names') :
    ChangesOnly b names' w w' :=
  ⟨fun dev notNand x out => changes.cells dev notNand x fun name mem => out name (sub mem), changes.override⟩

lemma Resolves.place (tables : TablesInside b) (resolves : Resolves b b.flashType name n t) :
    isNandFlash t.flashType = true ∨ t.partSize = 0 ∨ Inside b name t := by
  cases resolves with
  | empty ft dev layout => exact .inr (.inl rfl)
  | nand p size nand | slot boot noFlag rootfs nand => exact .inl nand
  | flagged p offset size boot flag found part => exact .inl rfl
  | emmc d g dev found here => exact .inr (.inr (inside_emmc tables dev found (assigned_gpt tables here)))
  | nor p size boot noFlag noSlot noEmmc found part =>
    exact .inr (.inr (inside_nor tables boot noFlag noSlot noEmmc found part))

section Covers

variable {cmd : Cmd} (tables : TablesInside b) (notNand : dev ≠ .nand)

include tables notNand

end Covers

lemma Framed.changes (framed : Framed b w w') (override : w'.flashTypeNew = none)
    (covers : ∀ cmd ∈ w'.log.drop w.log.length, ∀ dev ≠ .nand, ∀ x, cmd.Hits b dev x → Covers b name dev x) :
    ChangesOnly b [name] w w' := by
  refine ⟨fun dev notNand x out => framed.cells dev notNand x fun cmd mem hits => ?_, override⟩
  exact out name (List.mem_singleton_self name) (covers cmd mem dev notNand x hits)

end Frame

end ResQBoot.Flash
