import ResQBoot.Flash.Contained
import ResQBoot.Flash.NandBounds
import ResQBoot.Flash.Read

/-!
# `flash` and `flashread`

The two commands resolve a name with two branch trees. For an ordinary name both come to the same device and offset
(`locate_of_target`). They differ on the names of whole chips, where a size is rounded past 2³², and where the result of
a write is lost (`Consistent`).
-/

namespace ResQBoot.Flash

/-! ### What a device holds -/

def held (b : Board) (w : World) (dev : Device) (off k : Nat) : Bytes :=
  match dev with
  | .nand => match b.nand with
    | some c => (c.moved off k).map w.nand
    | none => []
  | .emmc => match b.emmc with
    | some d => w.emmc.read (off * d.blksz) (k * d.blksz)
    | none => []
  | .nor => w.nor.read off k

def Device.unit (b : Board) : Device → Nat
  | .nand => 1
  | .emmc => match b.emmc with
    | some d => d.blksz
    | none => 1
  | .nor => 1

section Held

variable {b : Board} {io : Io} {c : Chip} {w : World} {t : Target} {dev : Device}

variable {layout : Layout} {cs : List Cmd} {addr k off part size : Nat} {ft : SmemBoot}

lemma readFromFlash_shape (line : readFromFlash b ft addr off k layout false = some cs) :
    ∃ dev pre, deviceOf ft = some dev ∧ (∀ cmd ∈ pre, cmd.Quiet) ∧ cs = pre ++ [dev.read addr off k] := by
  cases ft <;> cases line
  case nandFlash | qspiNandFlash => exact ⟨.nand, _, rfl, quiet_line layout, rfl⟩
  case mmcFlash => exact ⟨.emmc, [], rfl, by simp, rfl⟩
  case spiFlash => exact ⟨.nor, [.sfProbe], rfl, by simp [Cmd.Quiet], rfl⟩

lemma effect_read_true (ok : (effect b io (dev.read addr off k) w).1 = true) :
    (held b w dev off k).length = k * dev.unit b ∧
      (effect b io (dev.read addr off k) w).2 = { w with ram := w.ram.write addr (held b w dev off k) } := by
  cases dev <;> simp only [Device.read, effect] at ok ⊢
  case nand =>
    cases chip : b.nand with
    | none => simp [chip] at ok
    | some c =>
      simp only [chip] at ok ⊢
      split_ifs at ok ⊢ with range
      simp only [Bool.or_eq_true, decide_eq_true_eq, not_or] at range
      cases found : c.skipBad off k (c.size - off) with
      | none => simp [found] at ok
      | some ps =>
        have cells := (Chip.skipBad_some (by omega) found).2
        simp only [found, Chip.readPieces_eq, cells, decide_eq_true_eq] at ok ⊢
        simp only [held, chip, Device.unit, Nat.mul_one]
        exact ⟨ok, trivial⟩
  case emmc =>
    cases device : b.emmc with
    | none => simp [device] at ok
    | some d =>
      simp only [device] at ok ⊢
      split_ifs at ok ⊢ with range
      simp [held, Device.unit, device]
  case nor =>
    split_ifs at ok ⊢ with range
    simp [held, Device.unit]

lemma readFromFlash_held
    (line : readFromFlash b ft addr off k layout false = some cs) (ok : (runCommand b io cs w).1 = true) :
    ∃ dev, deviceOf ft = some dev ∧ (held b w dev off k).length = k * dev.unit b ∧ (runCommand b io cs w).2 =
        { w with log := w.log ++ cs, ram := w.ram.write addr (held b w dev off k) } := by
  obtain ⟨dev, pre, device, quiet, rfl⟩ := readFromFlash_shape line
  have chosen := runCommand_quiet_true pre quiet w ok
  rw [chosen] at ok ⊢
  obtain ⟨done, last⟩ := runCommand_cons_true ok
  obtain ⟨length, eq⟩ := effect_read_true done
  rw [last, runCommand, eq]
  refine ⟨dev, device, length, ?_⟩
  simp [held]

def Writable (b : Board) (off part size : Nat) : Device → Prop
  | .nand => ∃ c, b.nand = some c ∧ c.Erases off part ∧ size ≤ (c.goods off (c.size - off)).length
  | .emmc => b.emmc ≠ none
  | .nor => off + part ≤ b.norSize

def World.cells (w : World) : Device → Mem
  | .nand => w.nand
  | .emmc => w.emmc
  | .nor => w.nor

def World.setCells (w : World) (m : Mem) : Device → World
  | .nand => { w with nand := m }
  | .emmc => { w with emmc := m }
  | .nor => { w with nor := m }

def Device.blank : Device → UInt8
  | .emmc => 0
  | _ => 0xFF

@[simp] lemma cells_setCells (w : World) (m : Mem) (dev : Device) : (w.setCells m dev).cells dev = m := by
  cases dev <;> rfl

lemma cells_setCells_other (w : World) (m : Mem) {dev dev' : Device} (other : dev' ≠ dev) :
    (w.setCells m dev).cells dev' = w.cells dev' := by
  cases dev <;> cases dev' <;> first | rfl | exact absurd rfl other

@[simp] lemma ram_setCells (w : World) (m : Mem) (dev : Device) : (w.setCells m dev).ram = w.ram := by
  cases dev <;> rfl

def burnt (b : Board) (t : Target) (addr size : Nat) (dev : Device) (w : World) : World :=
  w.setCells ((w.cells dev).burn (t.offset * dev.unit b) (t.partSize * dev.unit b) dev.blank
    (w.ram.read addr (size * dev.unit b))) dev

lemma effect_erase_true {n : Nat} (notNand : dev ≠ .nand)
    (ok : (effect b io (dev.erase off part) w).1 = true) : Writable b off part n dev ∧ (effect b io (dev.erase off part) w).2 =
      w.setCells ((w.cells dev).fill (off * dev.unit b) (part * dev.unit b) dev.blank) dev := by
  cases dev <;> simp only [Device.erase, effect] at ok ⊢
  case nand => exact absurd rfl notNand
  case emmc =>
    cases disk : b.emmc with
    | none => simp [disk] at ok
    | some d => simp [Writable, World.setCells, World.cells, Device.unit, Device.blank, disk]
  case nor =>
    split_ifs at ok ⊢ with range
    simp only [Bool.or_eq_true, decide_eq_true_eq, not_or] at range
    exact ⟨Nat.le_of_not_lt range.1.1.2, by simp [World.setCells, World.cells, Device.unit, Device.blank]⟩

lemma effect_write_true {m : Mem} (notNand : dev ≠ .nand) (fits : size ≤ part)
    (erased : w.cells dev = m.fill (off * dev.unit b) (part * dev.unit b) dev.blank)
    (ok : (effect b io (dev.write addr off size) w).1 = true) :
    (effect b io (dev.write addr off size) w).2 = w.setCells (m.burn (off * dev.unit b) (part * dev.unit b)
      dev.blank (w.ram.read addr (size * dev.unit b))) dev := by
  cases dev <;> simp only [Device.write, effect] at ok ⊢
  case nand => exact absurd rfl notNand
  case emmc =>
    cases disk : b.emmc with
    | none => simp [disk] at ok
    | some d =>
      simp only [disk, World.cells, Device.unit, Device.blank] at ok erased ⊢
      split_ifs at ok ⊢ with range
      rw [erased, Mem.write_fill _ (by simpa using Nat.mul_le_mul_right _ fits), World.setCells]
  case nor =>
    simp only [World.cells, Device.unit, Device.blank, Nat.mul_one] at erased ⊢
    split_ifs at ok ⊢ with range
    rw [erased, Mem.program_fill _ (by simpa using fits), Mem.lay_eq_burn, World.setCells]

lemma writeToFlash_burn (device : deviceOf t.flashType = some dev) (notNand : dev ≠ .nand) (fits : size ≤ t.partSize)
    (ok : (runCommand b io (writeToFlash t.flashType addr t.offset t.partSize size t.layout) w).1 = true) :
    Writable b t.offset t.partSize size dev ∧
      (runCommand b io (writeToFlash t.flashType addr t.offset t.partSize size t.layout) w).2 =
        { burnt b t addr size dev w with
          log := w.log ++ writeToFlash t.flashType addr t.offset t.partSize size t.layout } := by
  obtain ⟨pre, quiet, line⟩ := writeToFlash_shape device
  rw [line] at ok ⊢
  have chosen := runCommand_quiet_true pre quiet w ok
  rw [chosen] at ok ⊢
  obtain ⟨erased, erase⟩ := runCommand_cons_true ok
  rw [erase] at ok ⊢
  obtain ⟨done, write⟩ := runCommand_cons_true ok
  obtain ⟨writable, wiped⟩ := effect_erase_true (n := size) notNand erased
  rw [wiped] at done write
  refine ⟨writable, ?_⟩
  rw [wiped, write, runCommand, effect_write_true notNand fits (m := w.cells dev) (by cases dev <;> rfl) done]
  cases dev <;> simp [burnt, World.setCells, World.cells]

lemma writeToFlash_held (device : deviceOf t.flashType = some dev) (fits : size ≤ t.partSize)
    (ok : (runCommand b io (writeToFlash t.flashType addr t.offset t.partSize size t.layout) w).1 = true) :
    let w' := (runCommand b io (writeToFlash t.flashType addr t.offset t.partSize size t.layout) w).2
    Writable b t.offset t.partSize size dev ∧ w'.ram = w.ram ∧ w'.flashTypeNew = w.flashTypeNew ∧
      held b w' dev t.offset size = w.ram.read addr (size * dev.unit b) := by
  by_cases notNand : dev ≠ .nand
  · obtain ⟨writable, world⟩ := writeToFlash_burn device notNand fits ok
    have room : (w.ram.read addr (size * dev.unit b)).length ≤ t.partSize * dev.unit b := by
      simpa using Nat.mul_le_mul_right (dev.unit b) fits
    have stored := Mem.read_burn (w.cells dev) (a := t.offset * dev.unit b) (v := dev.blank) room
    rw [Mem.length_read] at stored
    simp only [world]
    refine ⟨writable, ram_setCells .., by cases dev <;> rfl, ?_⟩
    cases dev with
    | nand => exact absurd rfl notNand
    | emmc =>
      obtain ⟨d, disk⟩ := Option.ne_none_iff_exists'.mp writable
      simpa only [held, disk, burnt, World.setCells, Device.unit] using stored
    | nor => simpa only [held, burnt, World.setCells, Device.unit, Nat.mul_one] using stored
  · obtain rfl := not_not.mp notNand
    have nand := nand_of_device device
    cases chip : b.nand with
    | none =>
      rw [writeToFlash_line nand] at ok
      have present := (runCommand_cons_true ok).1
      simp [effect, chip] at present
    | some c =>
      rcases writeToFlash_nand io chip nand addr size w with ⟨failed, -⟩ | ⟨erases, ps, found, l, done⟩
      · cases failed.symm.trans ok
      obtain ⟨room, cells⟩ := Chip.skipBad_some (Nat.le_of_lt erases.1) found
      rw [done] at ok
      have stored := Chip.writePieces_stored ps _ _ (cells ▸ Chip.nodup_moved _ _) ok
      simp only [done]
      refine ⟨⟨c, chip, erases, room⟩, rfl, rfl, ?_⟩
      simpa only [held, chip, Device.unit, Nat.mul_one, ← cells] using stored

def Sees (b : Board) : Prop :=
  ∀ c, b.nand = some c → ∀ x < c.size, c.seen (x / c.erasesize) = c.bad (x / c.erasesize)

lemma held_take (sees : Sees b) (writable : Writable b off part size dev)
    (le : k ≤ size) : held b w dev off k = (held b w dev off size).take (k * dev.unit b) := by
  cases dev with
  | nand =>
    obtain ⟨c, chip, erases, room⟩ := writable
    have inside := Nat.le_of_lt erases.1
    simp only [held, chip, Device.unit, Nat.mul_one]
    rw [Chip.moved_eq (sees c chip) inside (Nat.le_trans le room), Chip.moved_eq (sees c chip) inside room,
      ← List.map_take, List.take_take, Nat.min_eq_left le]
  | emmc =>
    simp only [held, Device.unit]
    split
    · exact (Mem.take_read _ _ (Nat.mul_le_mul_right _ le)).symm
    · simp
  | nor =>
    simp only [held, Device.unit, Nat.mul_one]
    exact (Mem.take_read _ _ le).symm

end Held

/-! ### The two runs -/

inductive Place where
  | cells (dev : Device) (start : Nat)
  | volume (name : Bytes)
  deriving DecidableEq, Repr

def Cmd.place : Cmd → Option Place
  | .nandWrite _ off _ | .nandRead _ off _ | .nandReadRaw _ off _ => some (.cells .nand off)
  | .mmcWrite _ start _ | .mmcRead _ start _ => some (.cells .emmc start)
  | .sfWrite _ off _ | .sfRead _ off _ => some (.cells .nor off)
  | .ubiWrite _ name _ => some (.volume name)
  | _ => none

structure Trip where
  io : Io
  addr : Nat
  addr' : Nat
  start : World

namespace Trip

variable (r : Trip) (b : Board) (name : Bytes) (n : Nat)

def flashed : Bool × World := doFlash b r.io name r.addr n r.start

def fetched : Option (Nat × Nat) × World :=
  flashreadPartition b r.io name r.addr' n false (r.flashed b name n).2

def Succeeds : Prop := (r.flashed b name n).1 = true ∧ (r.fetched b name n).1.isSome = true

structure Agrees : Prop where
  places : ∀ c ∈ (r.flashed b name n).2.log.drop r.start.log.length,
    ∀ c' ∈ (r.fetched b name n).2.log.drop (r.flashed b name n).2.log.length, ∀ p p',
      c.place = some p → c'.place = some p' → p = p'
  bytes : (r.fetched b name n).2.ram.read r.addr' n = r.start.ram.read r.addr n

end Trip

def Target.bytes (t : Target) : Nat := if t.blksz ≠ 0 then t.partSize * t.blksz else t.partSize

def Target.Marks (b : Board) (t : Target) (n : Nat) : Prop :=
  t.cleanMarker = true ∧
    ¬ (t.partSize + 2 ^ 32 - roundUp (roundSize b t n) b.blockSize % 2 ^ 32) % 2 ^ 32 < 0x100000

structure Consistent (b : Board) (name : Bytes) (n : Nat) (t : Target) : Prop where
  nor : name = norFull → t.flashType = .spiFlash ∧ t.offset = 0
  nand : name = nandFull → isNandFlash t.flashType = true ∧ t.offset = 0 ∧ n ≤ b.nandSize % 2 ^ 32
  pages : isNandFlash t.flashType = true → n ≤ roundSize b t n
  blocks : t.flashType = .mmcFlash → n + t.blksz ≤ 2 ^ 32
  unmarked : ¬ t.Marks b n

def readPlan (b : Board) (ft : SmemBoot) (name : Bytes) (n : Nat) : Option (SmemBoot × Nat × Nat × Layout) :=
  if name = norFull ∨ name = nandFull then
    (fullSource b name).map fun s => (s.1, 0, if n ≠ 0 ∧ n < s.2 then n else s.2, .default)
  else
    match locate b ft name with
    | .source s => some (s.flashType, s.offset, s.readSize n, s.layout)
    | _ => none

/-- What `flashread` asks of a flash: its type, the range, the layout, and the size it then reports. -/
def readRequest (b : Board) (ft : SmemBoot) (name : Bytes) (n : Nat) (raw : Bool) :
    Option ((SmemBoot × Nat × Nat × Layout) × Nat) :=
  if raw && name ≠ nandFull then none
  else if name = norFull ∨ name = nandFull then
    (fullSource b name).bind fun s =>
      (if raw then rawReadSize b n else some (if n ≠ 0 ∧ n < s.2 then n else s.2)).map fun k =>
        ((s.1, 0, k, .default), k)
  else
    match locate b ft name with
    | .source s => some ((s.flashType, s.offset, s.readSize n, s.layout), s.byteSize (s.readSize n))
    | _ => none

/-- Issues a read line, if there is one. -/
def readLine (line : Option (List Cmd)) (run : List Cmd → Bool × World) (out : Nat × Nat) (u : World)
    (fail : World → World) : Option (Nat × Nat) × World :=
  match line with
  | none => (none, u)
  | some cs =>
    match run cs with
    | (true, w) => (some out, w)
    | (false, w) => (none, fail w)

section Runs

variable {b : Board} {io : Io} {name : Bytes} {addr n : Nat} {w : World} {t : Target}

variable {c : Cmd} {layout : Layout} {cs : List Cmd} {k off size : Nat} {p : Place} {ft : SmemBoot}

lemma readRequest_false : (readRequest b ft name n false).map Prod.fst = readPlan b ft name n := by
  rw [readRequest, readPlan, Bool.false_and, if_neg Bool.false_ne_true]
  split
  · cases fullSource b name <;> rfl
  · cases locate b ft name <;> rfl

lemma readLine_iff {line : Option (List Cmd)} {run : List Cmd → Bool × World} {out out' : Nat × Nat} {u w' : World}
    {fail : World → World} :
    readLine line run out u fail = (some out', w') ↔ out = out' ∧ ∃ cs, line = some cs ∧ run cs = (true, w') := by
  cases line with
  | none => simp [readLine]
  | some cs =>
    cases ran : run cs with
    | mk done w₁ => cases done <;> simp [readLine, ran]

lemma flashread_iff {raw : Bool} {w' : World} :
    flashreadPartition b io name addr n raw w = (some (off, size), w') ↔ ∃ ft k layout cs,
    readRequest b (w.flashTypeNew.getD b.flashType) name n raw = some ((ft, off, k, layout), size) ∧
      readFromFlash b ft addr off k layout raw = some cs ∧ runCommand b io cs w = (true, w') := by
  rw [flashreadPartition, readRequest]
  split
  · simp
  rename_i ordinary
  have line {ft : SmemBoot} {at' k report : Nat} {layout : Layout} {u : World} {fail : World → World} :
      readLine (readFromFlash b ft addr at' k layout raw) (runCommand b io · w) (at', report) u fail =
          (some (off, size), w') ↔
        ∃ ft' k' layout' cs, some ((ft, at', k, layout), report) = some ((ft', off, k', layout'), size) ∧
          readFromFlash b ft' addr off k' layout' raw = some cs ∧ runCommand b io cs w = (true, w') := by
    rw [readLine_iff]
    aesop
  split
  · rw [flashreadFull]
    cases fullSource b name with
    | none => simp
    | some s =>
      cases size : (if raw then rawReadSize b n else some (if n ≠ 0 ∧ n < s.2 then n else s.2)) with
      | none => simp [size]
      | some k =>
        simp only [size, Option.bind_some, Option.map_some]
        exact line
  · cases raw with
    | true => simp_all
    | false =>
      cases locate b (w.flashTypeNew.getD b.flashType) name with
      | exit | fail => simp
      | source s => exact line

lemma flashread_of_plan {ft' : SmemBoot}
    (plan : readPlan b (w.flashTypeNew.getD b.flashType) name n = some (ft', off, k, layout))
    (line : readFromFlash b ft' addr off k layout false = some cs) (ok : (runCommand b io cs w).1 = true) :
    (flashreadPartition b io name addr n false w).1.isSome = true ∧
      (flashreadPartition b io name addr n false w).2 = (runCommand b io cs w).2 := by
  obtain ⟨⟨_, size⟩, request, rfl⟩ := Option.map_eq_some_iff.mp (readRequest_false.trans plan)
  have read : flashreadPartition b io name addr n false w = (some (off, size), (runCommand b io cs w).2) :=
    flashread_iff.mpr ⟨ft', k, layout, cs, request, line, Prod.ext ok rfl⟩
  rw [read]
  exact ⟨rfl, rfl⟩

lemma plan_of_flashread (done : (flashreadPartition b io name addr n false w).1.isSome = true) : ∃ ft' off k layout cs,
      readPlan b (w.flashTypeNew.getD b.flashType) name n = some (ft', off, k, layout) ∧
      readFromFlash b ft' addr off k layout false = some cs ∧ (runCommand b io cs w).1 = true := by
  obtain ⟨out, eq⟩ := Option.isSome_iff_exists.mp done
  obtain ⟨ft', k, layout, cs, request, line, run⟩ := flashread_iff.mp (Prod.ext eq rfl)
  refine ⟨ft', out.1, k, layout, cs, ?_, line, congrArg Prod.fst run⟩
  rw [← readRequest_false, request, Option.map_some]

lemma doFlash_unmarked (io : Io) (addr : Nat) (plain : NotGpt name)
    (target : resolveFlash b (w.flashTypeNew.getD b.flashType) name n = .target t)
    (unmarked : ¬ t.Marks b n) (accepted : roundSize b t n ≤ t.partSize) :
    let r := runCommand b io (writeToFlash t.flashType addr t.offset t.partSize (roundSize b t n) t.layout) w
    (doFlash b io name addr n w).1 = r.1 ∧ (r.1 = true → (doFlash b io name addr n w).2 = r.2) := by
  have run : flashResolved b io name addr n (resolveFlash b (w.flashTypeNew.getD b.flashType) name n) w =
      runCommand b io (writeToFlash t.flashType addr t.offset t.partSize (roundSize b t n) t.layout) w := by
    rw [target, flashResolved, flashTarget]
    simp only
    rw [if_neg (Nat.not_lt_of_le accepted)]
    split
    · rw [if_neg (not_or.mpr plain)]
    split
    · rename_i marked
      rw [addMarkers, if_pos]
      by_contra more
      exact unmarked ⟨marked, more⟩
    · rfl
  have eq := doFlash_eq b io name addr n w
  simp only at eq
  rw [run] at eq
  rw [eq]
  exact ⟨rfl, fun ok => by simp [ok]⟩

lemma accepted_of_doFlash (target : resolveFlash b (w.flashTypeNew.getD b.flashType) name n = .target t)
    (ok : (doFlash b io name addr n w).1 = true) : roundSize b t n ≤ t.partSize := by
  have eq := congrArg Prod.fst (doFlash_eq b io name addr n w)
  simp only at eq
  rw [ok, target, flashResolved, flashTarget] at eq
  by_contra big
  simp only at eq
  rw [if_pos (Nat.lt_of_not_le big)] at eq
  cases eq

lemma Resolves.kind (resolves : Resolves b ft name n t) (pos : 1 ≤ n) (fits : n ≤ t.bytes) :
    t.fileSize = n ∧ ∃ dev, deviceOf t.flashType = some dev ∧
      (dev = .emmc ∧ (∃ d, b.emmc = some d ∧ t.blksz = d.blksz ∧ t.blkDev = some d) ∨
        dev ≠ .emmc ∧ t.blksz = 0 ∧ t.blkDev = none) := by
  cases resolves with
  | empty ft' dev layout =>
    simp only [Target.bytes] at fits
    simp at fits
    omega
  | nand p size nand | slot boot noFlag rootfs nand =>
    exact ⟨rfl, .nand, deviceOf_nand nand, .inr ⟨by decide, rfl, rfl⟩⟩
  | flagged p offset size boot flag found part =>
    exact ⟨rfl, .nand, rfl, .inr ⟨by decide, rfl, rfl⟩⟩
  | emmc d g dev found here => exact ⟨rfl, .emmc, rfl, .inl ⟨rfl, d, dev, rfl, rfl⟩⟩
  | nor p size boot noFlag noSlot noEmmc found part =>
    exact ⟨rfl, .nor, rfl, .inr ⟨by decide, rfl, rfl⟩⟩

lemma locate_of_target (plain : NotGpt name)
    (target : resolveFlash b ft name n = .target t) (pos : 1 ≤ n) (fits : n ≤ t.bytes) :
    locate b ft name = .source ⟨t.flashType, t.offset, t.partSize, t.blkDev, t.layout⟩ := by
  cases resolves_of_target plain target with
  | empty =>
    simp [Target.bytes] at fits
    omega
  | nand p size boot found part =>
    cases ft <;> first | cases boot; done | simp only [locate, locateSmem, part]
  | flagged p offset size boot flag found part => simp only [boot, locate, if_pos flag, part]
  | slot boot noFlag rootfs =>
    simp only [Bool.and_eq_true] at rootfs
    simp [boot, locate, noFlag, rootfs]
  | emmc d g disk found here =>
    have source : d.getPartitionInfoEfiByName name = some (g.info d.blksz) := by
      rw [BlockDev.getPartitionInfoEfiByName, found, Option.map_some]
    rcases here with rfl | rfl | ⟨rfl, noFlag, noSlot, here⟩ <;>
      simp_all [locate, locateEmmc, NotGpt]
  | nor p size boot noFlag noSlot noEmmc found part =>
    simp [boot, locate, noFlag, noSlot, noEmmc, locateSmem, part]

lemma Cmd.Quiet.place {cmd : Cmd} (quiet : cmd.Quiet) : cmd.place = none := by
  rcases quiet with rfl | ⟨layout, rfl⟩ | rfl <;> rfl

lemma place_write {addr : Nat} (dev : Device) : (dev.write addr off size).place = some (.cells dev off) := by
  cases dev <;> rfl

lemma place_read {addr : Nat} (dev : Device) : (dev.read addr off size).place = some (.cells dev off) := by
  cases dev <;> rfl

lemma place_writeToFlash {dev : Device} {part : Nat} (device : deviceOf ft = some dev)
    (mem : c ∈ writeToFlash ft addr off part size layout) (place : c.place = some p) : p = .cells dev off := by
  obtain ⟨pre, quiet, line⟩ := writeToFlash_shape device
  rw [line] at mem
  simp only [List.mem_append, List.mem_cons, List.not_mem_nil, or_false] at mem
  rcases mem with mem | rfl | rfl
  · rw [(quiet c mem).place] at place
    cases place
  · cases dev <;> cases place
  · rw [place_write] at place
    exact (Option.some.inj place).symm

lemma place_readFromFlash
    (line : readFromFlash b ft addr off k layout false = some cs) (mem : c ∈ cs) (place : c.place = some p) :
    ∃ dev, deviceOf ft = some dev ∧ p = .cells dev off := by
  obtain ⟨dev, pre, device, quiet, rfl⟩ := readFromFlash_shape line
  rcases List.mem_append.mp mem with mem | last
  · rw [(quiet c mem).place] at place
    cases place
  · obtain rfl := List.mem_singleton.mp last
    rw [place_read] at place
    exact ⟨dev, device, (Option.some.inj place).symm⟩

end Runs

section Sufficient

variable {b : Board} {name : Bytes} {n : Nat} {t : Target} {dev : Device}

lemma Source.readSize_bytes {s : Source} (bytes : s.blkDev = none) (pos : n ≠ 0) : s.readSize n = min s.partSize n := by
  rw [readSize, if_neg pos, bytes]
  split
  · contradiction
  · rfl

lemma Consistent.plan {ft ft' : SmemBoot} {off k : Nat} {layout : Layout} (consistent : Consistent b name n t)
    (plain : NotGpt name) (target : resolveFlash b ft name n = .target t)
    (pos : 1 ≤ n) (fits : n ≤ t.bytes) (device : deviceOf t.flashType = some dev)
    (writable : Writable b t.offset t.partSize (roundSize b t n) dev)
    (accepted : roundSize b t n ≤ t.partSize) (plan : readPlan b ft name n = some (ft', off, k, layout)) :
    deviceOf ft' = some dev ∧ off = t.offset ∧ n ≤ k * dev.unit b ∧ k ≤ roundSize b t n := by
  obtain ⟨file, dev', device', kind⟩ := (resolves_of_target plain target).kind pos fits
  cases device.symm.trans device'
  -- Where bytes are counted, the partition holds the file and the rounded size covers it.
  have inBytes (other : dev ≠ .emmc) (blksz : t.blksz = 0) : n ≤ t.partSize ∧ n ≤ roundSize b t n ∧ dev.unit b = 1 := by
    have part : n ≤ t.partSize := by simpa [Target.bytes, blksz] using fits
    cases dev with
    | emmc => exact absurd rfl other
    | nand =>
      exact ⟨part, consistent.pages (nand_of_device device), rfl⟩
    | nor =>
      refine ⟨part, ?_, rfl⟩
      have spi := spi_of_device device
      simp [roundSize, spi, isNandFlash, file]
  rw [readPlan] at plan
  split at plan
  · rename_i full
    rcases full with rfl | rfl
    · obtain ⟨spi, zero⟩ := consistent.nor rfl
      rw [spi] at device
      cases device
      rw [fullSource, if_pos rfl] at plan
      split at plan
      · cases plan
      cases plan
      rcases kind with ⟨emmc, -⟩ | ⟨other, blksz, -⟩
      · cases emmc
      obtain ⟨part, size, unit⟩ := inBytes other blksz
      have room : t.offset + t.partSize ≤ b.norSize := writable
      refine ⟨rfl, zero.symm, ?_, ?_⟩ <;> simp only [unit] <;> split <;> omega
    · obtain ⟨nand, zero, small⟩ := consistent.nand rfl
      rw [deviceOf_nand nand] at device
      cases device
      rw [fullSource, if_neg (by decide)] at plan
      split at plan
      · cases plan
      cases plan
      rcases kind with ⟨emmc, -⟩ | ⟨other, blksz, -⟩
      · cases emmc
      obtain ⟨part, size, unit⟩ := inBytes other blksz
      refine ⟨rfl, zero.symm, ?_, ?_⟩ <;> simp only [unit] <;> split <;> omega
  · rw [locate_of_target plain target pos fits] at plan
    cases plan
    refine ⟨device, rfl, ?_⟩
    rcases kind with ⟨rfl, d, emmc, blksz, blkDev⟩ | ⟨other, blksz, blkDev⟩
    · have mmc := mmc_of_device device
      have pos := d.blksz_pos
      have blocks := consistent.blocks mmc
      have sectors := roundSize_mmc (b := b) mmc (by omega) file
      rw [blksz] at sectors blocks
      rw [Source.readSize, if_neg (by omega)]
      simp only [mmc, blkDev, Nat.mod_eq_of_lt (show n + d.blksz - 1 < 2 ^ 32 by omega), ← sectors,
        Nat.min_eq_right accepted]
      refine ⟨?_, Nat.le_refl _⟩
      simp only [Device.unit, emmc, sectors]
      exact le_roundUp pos
    · obtain ⟨part, size, unit⟩ := inBytes other blksz
      rw [Source.readSize_bytes blkDev (by omega), Nat.min_eq_right part, unit]
      omega

lemma agrees_of_consistent (r : Trip) (plain : NotGpt name)
    (target : resolveFlash b (r.start.flashTypeNew.getD b.flashType) name n = .target t)
    (pos : 1 ≤ n) (fits : n ≤ t.bytes) (sees : Sees b) (consistent : Consistent b name n t)
    (succeeds : r.Succeeds b name n) : r.Agrees b name n := by
  obtain ⟨wrote, read⟩ := succeeds
  have accepted := accepted_of_doFlash target wrote
  obtain ⟨-, dev, device, -⟩ := (resolves_of_target plain target).kind pos fits
  obtain ⟨result, same⟩ := doFlash_unmarked r.io r.addr plain target consistent.unmarked accepted
  rw [Trip.flashed, result] at wrote
  have flashed : (r.flashed b name n).2 = _ := same wrote
  have log := runCommand_log_true _ _ wrote
  obtain ⟨writable, ram, override, stored⟩ := writeToFlash_held device accepted wrote
  rw [← flashed] at log ram override stored
  obtain ⟨ft', off, k, layout, cs, plan, line, ok⟩ := plan_of_flashread read
  have fetched := (flashread_of_plan plan line ok).2
  rw [override] at plan
  obtain ⟨device', rfl, enough, le⟩ :=
    consistent.plan plain target pos fits device writable accepted plan
  obtain ⟨dev', here, length, done⟩ := readFromFlash_held line ok
  cases device'.symm.trans here
  rw [done] at fetched
  constructor
  · intro c mem c' mem' p p' place place'
    rw [log, List.drop_left] at mem
    rw [Trip.fetched, fetched, List.drop_left] at mem'
    obtain ⟨_, there, rfl⟩ := place_readFromFlash line mem' place'
    rw [place_writeToFlash device mem place, Option.some.inj (there.symm.trans device')]
  · have covers : n ≤ roundSize b t n * dev.unit b := Nat.le_trans enough (Nat.mul_le_mul_right _ le)
    rw [Trip.fetched, fetched]
    simp only
    rw [Mem.read_write_take _ _ (by rw [length]; exact enough), held_take sees writable le, List.take_take,
      Nat.min_eq_left enough, stored, Mem.take_read _ _ covers]

end Sufficient

/-! ### The condition is needed -/

section Necessary

variable {b : Board} {io io' : Io} {name : Bytes} {addr n : Nat} {w w' : World} {t : Target}

def Cmd.Static : Cmd → Prop
  | .nandWrite _ _ _ => False
  | _ => True

lemma effect_static (io io' : Io) {cmd : Cmd} (isStatic : cmd.Static) (w w' : World) :
    (effect b io cmd w).1 = (effect b io' cmd w').1 := by
  cases cmd <;> simp only [effect] <;> try rfl
  case nandWrite => exact isStatic.elim
  case nandRead =>
    cases b.nand with
    | none => rfl
    | some c =>
      simp only
      split
      · rfl
      · split <;> simp [Chip.readPieces_eq]
  case nandErase | nandReadRaw | mmcErase | mmcWrite | mmcWriteBuf | mmcRead =>
    split
    · rfl
    · first | rfl | (split <;> rfl)
  case sfErase | sfWrite | sfWriteBuf | sfRead => split <;> rfl

lemma runCommand_same (cs : List Cmd) (stable : ∀ cmd ∈ cs, ∀ w w', (effect b io cmd w).1 = (effect b io cmd w').1)
    (same : w'.log.length = w.log.length) : (runCommand b io cs w').1 = (runCommand b io cs w).1 := by
  induction cs generalizing w w' with
  | nil => rfl
  | cons cmd cs ih =>
    have first : (exec b io cmd w').1 = (exec b io cmd w).1 := by
      rw [Bool.eq_iff_iff, exec_ok, exec_ok, same, stable cmd List.mem_cons_self _ { w with log := w.log ++ [cmd] }]
    have log : (exec b io cmd w').2.log.length = (exec b io cmd w).2.log.length := by
      rw [exec_log, exec_log, List.length_append, List.length_append, same]
    rw [runCommand_cons, runCommand_cons, first]
    split
    · exact ih (fun x mem => stable x (List.mem_cons_of_mem cmd mem)) log
    · rfl

lemma runCommand_static (cs : List Cmd) (isStatic : ∀ cmd ∈ cs, cmd.Static)
    (ok : (runCommand b io cs w).1 = true) (w' : World) (works : ∀ i, w'.log.length ≤ i → io'.ok i = true) :
    (runCommand b io' cs w').1 = true := by
  induction cs generalizing w w' with
  | nil => rfl
  | cons cmd cs ih =>
    obtain ⟨done, rest⟩ := runCommand_cons_true ok
    rw [rest] at ok
    rw [effect_static io io' (isStatic cmd List.mem_cons_self) _ { w' with log := w'.log ++ [cmd] }] at done
    have run : exec b io' cmd w' = effect b io' cmd { w' with log := w'.log ++ [cmd] } := by
      rw [exec, if_pos (works _ (Nat.le_refl _))]
    rw [runCommand_cons, run, if_pos done]
    refine ih (fun x mem => isStatic x (List.mem_cons_of_mem cmd mem)) ok _ fun i le => works i ?_
    rw [effect_log, List.length_append] at le
    omega

variable {layout : Layout} {cs : List Cmd} {k off : Nat} {ft ft' : SmemBoot} {r : Trip}

lemma static_readFromFlash (line : readFromFlash b ft addr off k layout false = some cs) : ∀ cmd ∈ cs, cmd.Static := by
  intro cmd mem
  obtain ⟨dev, pre, -, quiet, rfl⟩ := readFromFlash_shape line
  rcases List.mem_append.mp mem with mem | last
  · rcases quiet cmd mem with rfl | ⟨layout, rfl⟩ | rfl <;> trivial
  · obtain rfl := List.mem_singleton.mp last
    cases dev <;> trivial

def AllAgree (b : Board) (override : Option SmemBoot) (name : Bytes) (n : Nat) : Prop :=
  ∀ r : Trip, r.start.flashTypeNew = override → r.Succeeds b name n → r.Agrees b name n

structure Trip.Reads (r : Trip) (b : Board) (name : Bytes) (n : Nat) (ft' : SmemBoot) (off k : Nat)
    (layout : Layout) (cs : List Cmd) : Prop where
  plan : readPlan b (r.start.flashTypeNew.getD b.flashType) name n = some (ft', off, k, layout)
  line : readFromFlash b ft' r.addr' off k layout false = some cs
  ok : (runCommand b r.io cs (r.flashed b name n).2).1 = true

lemma Trip.Reads.again (reads : r.Reads b name n ft' off k layout cs) (r₂ : Trip) (buffer : r₂.addr' = r.addr')
    (wrote : (r₂.flashed b name n).1 = true)
    (kept : (r₂.flashed b name n).2.flashTypeNew = r.start.flashTypeNew)
    (works : ∀ i, (r₂.flashed b name n).2.log.length ≤ i → r₂.io.ok i = true) :
    r₂.Succeeds b name n ∧ ∃ dev, deviceOf ft' = some dev ∧
      (held b (r₂.flashed b name n).2 dev off k).length = k * dev.unit b ∧
      (r₂.fetched b name n).2.ram =
        (r₂.flashed b name n).2.ram.write r.addr' (held b (r₂.flashed b name n).2 dev off k) := by
  have plan := reads.plan
  have line := reads.line
  rw [← kept] at plan
  rw [← buffer] at line ⊢
  have ok : (runCommand b r₂.io cs (r₂.flashed b name n).2).1 = true :=
    runCommand_static cs (static_readFromFlash line) reads.ok _ works
  obtain ⟨read, fetched⟩ := flashread_of_plan plan line ok
  obtain ⟨dev, device, length, done⟩ := readFromFlash_held line ok
  refine ⟨⟨wrote, read⟩, dev, device, length, ?_⟩
  rw [Trip.fetched, fetched, done]

lemma doFlash_erased {c : Chip} (plain : NotGpt name)
    (target : resolveFlash b (w.flashTypeNew.getD b.flashType) name n = .target t) (sees : Sees b)
    (nand : isNandFlash t.flashType = true) (accepted : roundSize b t n ≤ t.partSize) (chip : b.nand = some c)
    (erases : c.Erases t.offset t.partSize)
    (room : roundSize b t n ≤ (c.goods t.offset (c.size - t.offset)).length) (cells : w.nand = fun _ => 0xFF)
    (file : w.ram.read addr (roundSize b t n) = List.replicate (roundSize b t n) 0xFF) :
    (doFlash b sound name addr n w).1 = true ∧ (doFlash b sound name addr n w).2.ram = w.ram ∧
      (doFlash b sound name addr n w).2.flashTypeNew = w.flashTypeNew ∧
      (doFlash b sound name addr n w).2.nand = fun _ => 0xFF := by
  have page : t.offset % c.writesize = 0 :=
    Nat.mod_eq_zero_of_dvd (Nat.dvd_trans c.pages (Nat.dvd_of_mod_eq_zero erases.2.2))
  rcases Chip.skipBad_spec page (Nat.le_of_lt erases.1) with ⟨-, few⟩ | ⟨ps, found, -, moved⟩
  · exact absurd room (Nat.not_le_of_lt few)
  have full : (Skip.cells ps).length = roundSize b t n := by
    rw [moved, Chip.moved_eq (sees c chip) (Nat.le_of_lt erases.1) room, List.length_take]
    omega
  have blank : (c.erased sound t.offset t.partSize w).nand = fun _ => 0xFF := by
    simp only [Chip.erased, cells, eraseBlocks_blank]
  have unmarked : ¬ t.Marks b n := by
    rintro ⟨marked, -⟩
    rw [(nand_target target nand).2] at marked
    cases marked
  have written := (writeToFlash_sound chip nand erases accepted found addr w).1
  rw [file, blank, writePieces_blank (Nat.le_of_eq full), full] at written
  simp only [decide_true] at written
  obtain ⟨result, same⟩ := doFlash_unmarked sound addr plain target unmarked accepted
  rcases writeToFlash_nand sound chip nand addr (roundSize b t n) w with
    ⟨failed, -⟩ | ⟨-, ps', found', l, done⟩
  · rw [written] at failed
    cases failed
  cases found.symm.trans found'
  rw [file, blank, writePieces_blank (Nat.le_of_eq full)] at done
  rw [result, same written, written, done]
  exact ⟨rfl, rfl, rfl, rfl⟩

lemma nand_covers (all : AllAgree b r.start.flashTypeNew name n) (plain : NotGpt name)
    (target : resolveFlash b (r.start.flashTypeNew.getD b.flashType) name n = .target t) (sees : Sees b)
    (nand : isNandFlash t.flashType = true) (accepted : roundSize b t n ≤ t.partSize)
    (writable : Writable b t.offset t.partSize (roundSize b t n) .nand)
    (reads : r.Reads b name n ft' off k layout cs) (device : deviceOf ft' = some .nand) :
    n ≤ roundSize b t n ∧ n ≤ k := by
  obtain ⟨c, chip, erases, room⟩ := writable
  -- The file starts behind the buffer of the read, and is followed by zeros.
  let ram : Mem := fun x =>
    if x < r.addr' + n then 0x55 else if x < r.addr' + n + roundSize b t n then 0xFF else 0
  let w : World := ⟨ram, fun _ => 0xFF, fun _ => 0xFF, fun _ => 0xFF, fun _ => 0xFF, r.start.flashTypeNew, [], []⟩
  let r₂ : Trip := ⟨sound, r.addr' + n, r.addr', w⟩
  have file : w.ram.read (r.addr' + n) (roundSize b t n) = List.replicate (roundSize b t n) 0xFF := by
    rw [← read_blank (r.addr' + n)]
    refine Mem.read_congr fun x above below => ?_
    simp only [w, ram]
    rw [if_neg (by omega), if_pos below]
  obtain ⟨wrote, kept, override, blank⟩ : (r₂.flashed b name n).1 = true ∧ (r₂.flashed b name n).2.ram = ram ∧
      (r₂.flashed b name n).2.flashTypeNew = r.start.flashTypeNew ∧
      (r₂.flashed b name n).2.nand = fun _ => 0xFF :=
    doFlash_erased (w := w) plain target sees nand accepted chip erases room rfl file
  obtain ⟨succeeds, dev, here, length, read⟩ := reads.again r₂ rfl wrote override fun _ _ => rfl
  cases device.symm.trans here
  have held_eq : held b (r₂.flashed b name n).2 .nand off k = List.replicate k 0xFF := by
    rw [Device.unit, Nat.mul_one] at length
    simp only [held, chip] at length ⊢
    rw [List.length_map] at length
    rw [blank, List.map_const', length]
  have bytes := (all r₂ rfl succeeds).bytes
  rw [read, held_eq, kept, Mem.read_eq_iff] at bytes
  have byte (i : Nat) (lt : i < n) :
      (if i < k then (0xFF : UInt8) else 0x55) = if i < roundSize b t n then 0xFF else 0 := by
    have here : ram.write r.addr' (List.replicate k 0xFF) (r.addr' + i) = if i < k then 0xFF else 0x55 := by
      rw [Mem.write, List.length_replicate]
      by_cases inside : i < k
      · rw [if_pos (by omega), if_pos inside,
          List.getD_eq_getElem _ _ (by rw [List.length_replicate]; omega), List.getElem_replicate]
      · rw [if_neg (by omega), if_neg inside]
        simp only [ram]
        rw [if_pos (by omega)]
    have there : ram (r.addr' + n + i) = if i < roundSize b t n then 0xFF else 0 := by
      simp only [ram]
      rw [if_neg (by omega)]
      congr 1
      rw [eq_iff_iff]
      omega
    rw [← here, ← there]
    exact bytes i lt
  have read_all : n ≤ k := by
    by_contra short
    have := byte k (by omega)
    rw [if_neg (by omega)] at this
    split at this <;> exact absurd this (by decide)
  refine ⟨?_, read_all⟩
  by_contra short
  have := byte (roundSize b t n) (by omega)
  rw [if_pos (by omega), if_neg (by omega)] at this
  exact absurd this (by decide)

lemma Resolves.marked (resolves : Resolves b ft name n t) (marked : t.cleanMarker = true) :
    name = bytes "rootfs" ∧ t.flashType = .spiFlash ∧ t.blkDev = none := by
  cases resolves with
  | nor p size boot noFlag noSlot noEmmc found part =>
    simp only [Bool.and_eq_true, decide_eq_true_eq] at marked
    exact ⟨marked.2, rfl, rfl⟩
  | _ => cases marked

lemma writeToFlash_mmc_again {addr' part size : Nat}
    (ok : (runCommand b io (writeToFlash .mmcFlash addr off part size layout) w).1 = true) (w' : World) :
    (runCommand b sound (writeToFlash .mmcFlash addr' off part size layout) w').1 = true := by
  rw [writeToFlash] at ok
  obtain ⟨-, erase⟩ := runCommand_cons_true ok
  rw [erase] at ok
  obtain ⟨done, -⟩ := runCommand_cons_true ok
  rw [writeToFlash, runCommand_cons, runCommand_singleton, exec_sound, exec_sound]
  cases dev : b.emmc with
  | none =>
    simp only [effect, dev] at done
    cases done
  | some d =>
    simp only [effect, dev] at done ⊢
    split at done
    · cases done
    · rename_i range
      simp only [if_true, if_neg range]

lemma mmc_covers {d : BlockDev} (all : AllAgree b r.start.flashTypeNew name n) (plain : NotGpt name)
    (target : resolveFlash b (r.start.flashTypeNew.getD b.flashType) name n = .target t)
    (pos : 1 ≤ n) (small : n < 2 ^ 32) (fits : n ≤ t.bytes) (ordinary : ¬ (name = norFull ∨ name = nandFull))
    (mmc : t.flashType = .mmcFlash) (blksz : t.blksz = d.blksz) (blkDev : t.blkDev = some d)
    (accepted : roundSize b t n ≤ t.partSize)
    (ok : (runCommand b r.io (writeToFlash t.flashType r.addr t.offset t.partSize (roundSize b t n) t.layout)
      r.start).1 = true) (reads : r.Reads b name n ft' off k layout cs) : n + t.blksz ≤ 2 ^ 32 := by
  by_contra big
  have none : k = 0 := by
    have plan := reads.plan
    rw [readPlan, if_neg ordinary, locate_of_target plain target pos fits] at plan
    cases plan
    rw [Source.readSize, if_neg (by omega)]
    simp only [mmc, blkDev]
    have wraps : (n + d.blksz - 1) % 2 ^ 32 < d.blksz := by omega
    rw [Nat.div_eq_of_lt wraps, Nat.min_zero]
  let ram : Mem := fun x => if x = r.addr' + 1 then 1 else 0
  let w : World := ⟨ram, fun _ => 0, fun _ => 0, fun _ => 0, fun _ => 0, r.start.flashTypeNew, [], []⟩
  let r₂ : Trip := ⟨sound, r.addr' + 1, r.addr', w⟩
  have unmarked : ¬ t.Marks b n := by
    rintro ⟨marked, -⟩
    have := ((resolves_of_target plain target).marked marked).2.1
    rw [mmc] at this
    cases this
  have written : (runCommand b sound (writeToFlash t.flashType (r.addr' + 1) t.offset t.partSize (roundSize b t n)
      t.layout) w).1 = true := by
    rw [mmc] at ok ⊢
    exact writeToFlash_mmc_again ok w
  obtain ⟨result, same⟩ := doFlash_unmarked (w := w) sound (r.addr' + 1) plain target unmarked accepted
  obtain ⟨-, kept, override, -⟩ := writeToFlash_held (by rw [mmc]; rfl) accepted written
  have flashed : (r₂.flashed b name n).2 = _ := same written
  rw [← flashed] at kept override
  obtain ⟨succeeds, dev, -, length, read⟩ :=
    reads.again r₂ rfl (result.trans written) override fun _ _ => rfl
  rw [none, Nat.zero_mul] at length
  have bytes := (all r₂ rfl succeeds).bytes
  rw [read, none, List.length_eq_zero_iff.mp length, kept, Mem.read_eq_iff] at bytes
  have byte := bytes 0 pos
  simp [Mem.write, ram, w, r₂] at byte

lemma program_clear (a : Nat) (bs : Bytes) : Mem.program (fun _ => 0) a bs = fun _ => 0 := by
  funext x
  rw [Mem.program]
  split
  · exact UInt8.zero_and
  · rfl

lemma writeMarkers_again (ok : (writeMarkers b io k off w).1 = true) (io' : Io) (w' : World)
    (works : ∀ i, w'.log.length ≤ i → io'.ok i = true) (clear : w'.nor = fun _ => 0) :
    (writeMarkers b io' k off w').1 = true ∧ (writeMarkers b io' k off w').2.ram = w'.ram ∧
      (writeMarkers b io' k off w').2.flashTypeNew = w'.flashTypeNew ∧
      w'.log.length ≤ (writeMarkers b io' k off w').2.log.length ∧
      (writeMarkers b io' k off w').2.nor = fun _ => 0 := by
  induction k generalizing off w w' with
  | zero => exact ⟨rfl, rfl, rfl, Nat.le_refl _, clear⟩
  | succ k ih =>
    rw [writeMarkers] at ok
    split at ok
    · rename_i w₁ done
      have run : runCommand b io' [.sfWriteBuf off cleanmarker] w' =
          (true, { w' with log := w'.log ++ [.sfWriteBuf off cleanmarker] }) := by
        have again := runCommand_static [.sfWriteBuf off cleanmarker] (by simp [Cmd.Static])
          (congrArg Prod.fst done) w' works
        rw [runCommand_singleton, exec, if_pos (works _ (Nat.le_refl _))] at again ⊢
        simp only [effect] at again ⊢
        split at again
        · cases again
        · rename_i range
          rw [if_neg range, clear, program_clear]
      rw [writeMarkers, run]
      obtain ⟨all, ram, override, log, zero⟩ :=
        ih ok { w' with log := w'.log ++ [.sfWriteBuf off cleanmarker] }
          (fun i le => works i (by rw [List.length_append] at le; omega)) clear
      rw [List.length_append] at log
      exact ⟨all, ram, override, Nat.le_trans (Nat.le_add_right _ _) log, zero⟩
    · cases ok

lemma flashTarget_marks (name : Bytes) (marks : t.Marks b n) (noDev : t.blkDev = none) (accepted : roundSize b t n ≤ t.partSize) :
    ∃ count first, ∀ io addr w, flashTarget b io name addr n t w = writeMarkers b io count first (runCommand b io
        (writeToFlash t.flashType addr t.offset t.partSize (roundSize b t n) t.layout) w).2 := by
  obtain ⟨marked, room⟩ := marks
  let aligned := roundUp (roundSize b t n) b.blockSize % 2 ^ 32
  let left := (t.partSize + 2 ^ 32 - aligned) % 2 ^ 32
  refine ⟨(left + b.blockSize - 1) / b.blockSize, (t.offset + aligned) % 2 ^ 32, fun io addr w => ?_⟩
  rw [flashTarget]
  simp only
  rw [if_neg (Nat.not_lt_of_le accepted), noDev]
  simp only [marked, if_true]
  rw [addMarkers, if_neg room]

lemma marks_hide (all : AllAgree b r.start.flashTypeNew name n) (plain : NotGpt name)
    (target : resolveFlash b (r.start.flashTypeNew.getD b.flashType) name n = .target t)
    (pos : 1 ≤ n) (fits : n ≤ t.bytes) (accepted : roundSize b t n ≤ t.partSize)
    (wrote : (r.flashed b name n).1 = true) (reads : r.Reads b name n ft' off k layout cs) : ¬ t.Marks b n := by
  intro marks
  obtain ⟨rootfs, spi, noDev⟩ := (resolves_of_target plain target).marked marks.1
  obtain ⟨count, first, issues⟩ := flashTarget_marks name marks noDev accepted
  have ordinary : ¬ (name = norFull ∨ name = nandFull) := by
    rw [rootfs]
    decide
  have plan := reads.plan
  rw [readPlan, if_neg ordinary, locate_of_target plain target pos fits] at plan
  cases plan
  have markers : (flashTarget b r.io name r.addr n t r.start).1 = true := by
    have eq := congrArg Prod.fst (doFlash_eq b r.io name r.addr n r.start)
    simp only [target, flashResolved] at eq
    exact eq.symm.trans wrote
  rw [issues] at markers
  have probes : b.norSize ≠ 0 := by
    have line := reads.line
    rw [spi] at line
    cases line
    have := (runCommand_cons_true reads.ok).1
    simpa [effect] using this
  -- The erase fails, so that nothing is written; the NOR is all 0 and the file is not.
  let io₂ : Io := ⟨fun i => i ≠ 1, fun _ => true, fun _ => true, fun _ => true⟩
  let w : World := ⟨fun _ => 1, fun _ => 0, fun _ => 0, fun _ => 0, fun _ => 0, r.start.flashTypeNew, [], []⟩
  let r₂ : Trip := ⟨io₂, r.addr, r.addr', w⟩
  have stops : (runCommand b io₂ (writeToFlash t.flashType r.addr t.offset t.partSize (roundSize b t n) t.layout) w).2 =
        { w with log := [.sfProbe, .sfErase t.offset t.partSize] } := by
    rw [spi, writeToFlash, runCommand_cons, runCommand_cons]
    simp [exec, io₂, w, effect, probes]
  have again := writeMarkers_again markers io₂ { w with log := [.sfProbe, .sfErase t.offset t.partSize] }
    (fun i le => by
      have : 2 ≤ i := le
      simp only [io₂, decide_eq_true_eq]
      omega) rfl
  rw [← stops, ← issues] at again
  obtain ⟨done, ram, override, log, clear⟩ := again
  have flashed : r₂.flashed b name n = flashTarget b io₂ name r.addr n t w := by
    have eq := doFlash_eq b io₂ name r.addr n w
    simp only [w, target, flashResolved] at eq
    rw [Trip.flashed, eq, done, if_pos rfl, ← done]
  rw [← flashed] at done ram override log clear
  rw [stops] at ram override log
  obtain ⟨succeeds, dev, here, length, read⟩ := reads.again r₂ rfl done override fun i le => by
    have : 2 ≤ i := Nat.le_trans log le
    simp only [r₂, io₂, decide_eq_true_eq]
    omega
  rw [spi] at here
  cases here
  have bytes := (all r₂ rfl succeeds).bytes
  rw [read, ram, Mem.read_eq_iff] at bytes
  have byte := bytes 0 pos
  have some_byte : 0 < Source.readSize ⟨t.flashType, t.offset, t.partSize, t.blkDev, t.layout⟩ n := by
    obtain ⟨-, dev, device, kind⟩ := (resolves_of_target plain target).kind pos fits
    rw [Source.readSize_bytes noDev (by omega)]
    rcases kind with ⟨-, d, -, -, blkDev⟩ | ⟨-, blksz, -⟩
    · rw [noDev] at blkDev
      cases blkDev
    · have : n ≤ t.partSize := by simpa [Target.bytes, blksz] using fits
      simp only
      omega
  rw [held, clear, Mem.write, Mem.length_read, if_pos ⟨Nat.le_refl _, Nat.add_lt_add_left some_byte _⟩,
    Mem.getD_read _ _ (by simpa [r₂] using some_byte)] at byte
  cases byte

lemma doFlash_flashTypeNew (ok : (doFlash b io name addr n w).1 = true) :
    (doFlash b io name addr n w).2.flashTypeNew = w.flashTypeNew := by
  have markers (k off : Nat) (w : World) : (writeMarkers b io k off w).2.flashTypeNew = w.flashTypeNew := by
    induction k generalizing off w with
    | zero => rfl
    | succ k ih =>
      have first := runCommand_flashTypeNew b io [.sfWriteBuf off cleanmarker] w
      rw [writeMarkers]
      split <;> rename_i eq <;> rw [eq] at first
      · exact (ih _ _).trans first
      · exact first
  have eq := doFlash_eq b io name addr n w
  simp only at eq
  rw [eq] at ok ⊢
  rw [if_pos ok]
  cases resolveFlash b (w.flashTypeNew.getD b.flashType) name n with
  | exit => rfl
  | ubi => exact runCommand_flashTypeNew b io _ w
  | target t =>
    rw [flashResolved, flashTarget]
    simp only
    split
    · rfl
    split
    · split
      · split
        · rfl
        · exact runCommand_flashTypeNew b io _ w
      · exact runCommand_flashTypeNew b io _ w
    · split
      · rw [addMarkers]
        split
        · exact runCommand_flashTypeNew b io _ w
        · exact (markers _ _ _).trans (runCommand_flashTypeNew b io _ w)
      · exact runCommand_flashTypeNew b io _ w

lemma readPlan_full (plan : readPlan b ft name n = some (ft', off, k, layout)) :
    (name = norFull → ft' = .spiFlash ∧ off = 0) ∧
      (name = nandFull → ft' = .nandFlash ∧ off = 0 ∧ k ≤ b.nandSize % 2 ^ 32) := by
  rw [readPlan] at plan
  constructor
  · rintro rfl
    rw [if_pos (.inl rfl), fullSource, if_pos rfl] at plan
    split at plan <;> cases plan
    exact ⟨rfl, rfl⟩
  · rintro rfl
    rw [if_pos (.inr rfl), fullSource, if_neg (by decide)] at plan
    split at plan <;> cases plan
    refine ⟨rfl, rfl, ?_⟩
    simp only
    split <;> omega

lemma Trip.Agrees.same_place
    {c : Cmd} {p : Place} (agrees : r.Agrees b name n) (reads : r.Reads b name n ft' off k layout cs)
    (kept : (r.flashed b name n).2.flashTypeNew = r.start.flashTypeNew)
    (mem : c ∈ (r.flashed b name n).2.log.drop r.start.log.length) (place : c.place = some p) :
    ∃ dev, deviceOf ft' = some dev ∧ p = .cells dev off := by
  obtain ⟨dev, pre, device, -, rfl⟩ := readFromFlash_shape reads.line
  have plan := reads.plan
  rw [← kept] at plan
  have fetched := (flashread_of_plan plan reads.line reads.ok).2
  have log := runCommand_log_true _ _ reads.ok
  refine ⟨dev, device, agrees.places c mem (dev.read r.addr' off k) ?_ _ _ place (place_read dev)⟩
  rw [Trip.fetched, fetched, log, List.drop_left]
  exact List.mem_append_right _ List.mem_cons_self

lemma consistent_of_agree (all : AllAgree b r.start.flashTypeNew name n)
    (plain : NotGpt name) (pos : 1 ≤ n) (small : n < 2 ^ 32)
    (fits : ∀ t, resolveFlash b (r.start.flashTypeNew.getD b.flashType) name n = .target t → n ≤ t.bytes)
    (sees : Sees b) (succeeds : r.Succeeds b name n) :
    ∃ t, resolveFlash b (r.start.flashTypeNew.getD b.flashType) name n = .target t ∧
      Consistent b name n t := by
  have agrees := all r rfl succeeds
  obtain ⟨wrote, read⟩ := succeeds
  obtain ⟨ft', off, k, layout, cs, plan, line, ok⟩ := plan_of_flashread read
  have kept := doFlash_flashTypeNew wrote
  rw [← Trip.flashed] at kept
  rw [kept] at plan
  have reads : r.Reads b name n ft' off k layout cs := ⟨plan, line, ok⟩
  cases target : resolveFlash b (r.start.flashTypeNew.getD b.flashType) name n with
  | exit =>
    rw [Trip.flashed, doFlash_eq, target] at wrote
    cases wrote
  | ubi =>
    have eq := doFlash_eq b r.io name r.addr n r.start
    simp only [target, flashResolved] at eq
    have written : (runCommand b r.io [.ubiWrite r.addr name n] r.start).1 = true :=
      (congrArg Prod.fst eq).symm.trans wrote
    rw [written, if_pos rfl] at eq
    have logged : .ubiWrite r.addr name n ∈ (r.flashed b name n).2.log.drop r.start.log.length := by
      rw [Trip.flashed, eq, runCommand_log_true _ _ written, List.drop_left]
      exact List.mem_cons_self
    obtain ⟨dev, -, place⟩ := agrees.same_place reads kept logged rfl
    cases place
  | target t =>
    have accepted := accepted_of_doFlash target wrote
    have unmarked := marks_hide all plain target pos (fits t target) accepted wrote reads
    obtain ⟨-, dev, device, kind⟩ := (resolves_of_target plain target).kind pos (fits t target)
    obtain ⟨result, same⟩ := doFlash_unmarked r.io r.addr plain target unmarked accepted
    have written := result.symm.trans wrote
    obtain ⟨writable, -⟩ := writeToFlash_held device accepted written
    obtain ⟨pre, -, shape⟩ : ∃ pre, _ ∧ writeToFlash t.flashType r.addr t.offset t.partSize (roundSize b t n)
      t.layout = pre ++ _ := writeToFlash_shape device
    have logged : dev.write r.addr t.offset (roundSize b t n) ∈ (r.flashed b name n).2.log.drop r.start.log.length := by
      rw [Trip.flashed, same written, runCommand_log_true _ _ written, List.drop_left, shape]
      simp
    obtain ⟨dev', device', place⟩ := agrees.same_place reads kept logged (place_write dev)
    cases place
    obtain ⟨nor, nand⟩ := readPlan_full plan
    refine ⟨t, rfl, fun full => ?_, fun full => ?_, fun isNand => ?_, fun mmc => ?_, unmarked⟩
    · obtain ⟨rfl, zero⟩ := nor full
      cases device'
      exact ⟨spi_of_device device, zero⟩
    · obtain ⟨rfl, zero, le⟩ := nand full
      cases device'
      have isNand := nand_of_device device
      exact ⟨isNand, zero, Nat.le_trans (nand_covers all plain target sees isNand accepted writable reads rfl).2 le⟩
    · rw [deviceOf_nand isNand] at device
      cases device
      exact (nand_covers all plain target sees isNand accepted writable reads device').1
    · rw [mmc] at device
      cases device
      have ordinary : ¬ (name = norFull ∨ name = nandFull) := by
        rintro (full | full)
        · rw [(nor full).1] at device'
          cases device'
        · rw [(nand full).1] at device'
          cases device'
      rcases kind with ⟨-, d, -, blksz, blkDev⟩ | ⟨other, -⟩
      · exact mmc_covers all plain target pos small (fits t target) ordinary mmc blksz blkDev accepted written reads
      · exact absurd rfl other

end Necessary

/-- `flash` and the `flashread` that follows it agree, whenever both succeed, exactly where both succeed at
all only for a name with a consistent target. -/
theorem flash_flashread_agree_iff (b : Board) (override : Option SmemBoot) (name : Bytes) (n : Nat)
    (plain : name ≠ gptPartName ∧ name ≠ gptBackupPartName) (pos : 1 ≤ n) (small : n < 2 ^ 32)
    (fits : ∀ t, resolveFlash b (override.getD b.flashType) name n = .target t → n ≤ t.bytes) (sees : Sees b) :
    (∀ r : Trip, r.start.flashTypeNew = override → r.Succeeds b name n → r.Agrees b name n) ↔
      ((∃ r : Trip, r.start.flashTypeNew = override ∧ r.Succeeds b name n) →
        ∃ t, resolveFlash b (override.getD b.flashType) name n = .target t ∧ Consistent b name n t) := by
  constructor
  · rintro all ⟨r, rfl, succeeds⟩
    exact consistent_of_agree all plain pos small fits sees succeeds
  · rintro consistent r rfl succeeds
    obtain ⟨t, target, consistent⟩ := consistent ⟨r, rfl, succeeds⟩
    exact agrees_of_consistent r plain target pos (fits t target) sees consistent succeeds

/-- The kernel of a NAND without bad blocks. -/
theorem flash_flashread_agree_pairBoard :
    let r : Trip := ⟨sound, 0, 32, idle⟩
    r.Succeeds (pairBoard fun _ => false) (bytes "kernel") 12 ∧
      r.Agrees (pairBoard fun _ => false) (bytes "kernel") 12 := by
  intro r
  have succeeds : r.Succeeds (pairBoard fun _ => false) (bytes "kernel") 12 :=
    ⟨by decide, by decide⟩
  exact ⟨succeeds, (flash_flashread_agree_iff (pairBoard fun _ => false) none (bytes "kernel") 12 (by decide)
    (by decide) (by decide)
    (by
      intro t target
      cases (pairBoard_target _).symm.trans target
      decide)
    (by
      intro c chip x lt
      cases chip
      rfl)).mpr
    (fun _ => ⟨kernelTarget, pairBoard_target _, by decide, by decide, fun _ => by decide, by decide,
      fun marks => Bool.noConfusion marks.1⟩) r rfl succeeds⟩

def markerBoard : Board where
  ipq806x := false
  cleanMarker := true
  flashType := .spiFlash
  secondary := .noFlash
  blockSize := 2 ^ 12
  rootfsUnset := false
  activeRootfs := 0
  table := [.entry (bytes "rootfs") 1 257 0xffff]
  ubiVolPresent := fun _ => false
  nand := none
  norSize := 2 ^ 22
  norSector := 2 ^ 16
  emmc := none
  blockSize_lt := by decide
  norSize_lt := nor4MiB_lt
  norBoot := fun _ => ⟨⟨12, by decide, rfl⟩, by decide⟩

/-- `sf erase` refuses the rootfs, which is not at a sector, so that nothing is written. The markers that
follow succeed, and with them `flash`: the byte that is read back is not the byte of the file. -/
theorem flash_reports_lost_write :
    let r : Trip := ⟨sound, 0, 16, idle⟩
    r.Succeeds markerBoard (bytes "rootfs") 1 ∧ r.start.ram.read r.addr 1 = [0] ∧
    (r.fetched markerBoard (bytes "rootfs") 1).2.ram.read r.addr' 1 = [0xFF] ∧
    ¬ r.Agrees markerBoard (bytes "rootfs") 1 := by
  have file : idle.ram.read 0 1 = [0] := rfl
  have read : (Trip.fetched ⟨sound, 0, 16, idle⟩ markerBoard (bytes "rootfs") 1).2.ram.read 16 1 = [0xFF] := by
    decide +kernel
  refine ⟨⟨by decide +kernel, by decide +kernel⟩, file, read, fun agrees => ?_⟩
  have bytes := agrees.bytes
  simp only [file, read] at bytes
  cases bytes

end ResQBoot.Flash
