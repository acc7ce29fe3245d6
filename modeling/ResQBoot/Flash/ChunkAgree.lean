import ResQBoot.Lib.Chunks
import ResQBoot.Flash.Agree
import ResQBoot.Flash.Chunk

/-!
# Chunks and whole partitions

The chunks of a name against what `flashread` reads for it. Both read cells that the tables determine (`wholeArea`,
`chunkArea`); the chunks are cut short where a size of 2³² bytes or more has to fit into 32 bits (`reached`).
-/

namespace ResQBoot.Flash

variable {c : Chip} {ft : SmemBoot} {dev : Device} {start total pages size base len k : Nat} {layout : Layout} {raw : Bool}

/-! ### What is read -/

inductive Cell where
  | nand (x : Nat)
  | oob (x : Nat)
  | emmc (x : Nat)
  | nor (x : Nat)
  deriving DecidableEq, Repr

def World.byte (w : World) : Cell → UInt8
  | .nand x => w.nand x
  | .oob x => w.oob x
  | .emmc x => w.emmc x
  | .nor x => w.nor x

def Device.cell : Device → Nat → Cell
  | .nand => .nand
  | .emmc => .emmc
  | .nor => .nor

inductive Area where
  | row (dev : Device) (start len : Nat)
  | raw (pages : Nat)
  deriving DecidableEq, Repr

def Chip.pageCells (c : Chip) (p : Nat) : List Cell :=
  (List.range' (p * c.writesize) c.writesize).map .nand ++ (List.range' (p * c.oobsize) c.oobsize).map .oob

def Area.cells (b : Board) : Area → List Cell
  | .row dev start len => (List.range' start len).map dev.cell
  | .raw pages => match b.nand with
    | some c => (List.range pages).flatMap c.pageCells
    | none => []

def Area.Good (b : Board) (a : Area) : Prop :=
  ∀ c, b.nand = some c → ∀ x, .nand x ∈ a.cells b → c.bad (x / c.erasesize) = false

def wholeArea (b : Board) (flashType : SmemBoot) (name : Bytes) (raw : Bool) : Option Area :=
  if raw then if name = nandFull then some (.raw (b.nandSize / b.nandWritesize)) else none
  else
    match readPlan b flashType name 0 with
    | none => none
    | some (flashType, off, k, _) =>
      (deviceOf flashType).map fun dev => .row dev (off * dev.unit b) (k * dev.unit b % 2 ^ 32)

def chunkArea (b : Board) (flashType : SmemBoot) (name : Bytes) (raw : Bool) : Option Area :=
  match chunkReader b flashType name raw with
  | none => none
  | some .raw => b.nand.map fun c => .raw (c.size / c.writesize % 2 ^ 32)
  | some .nand => b.nand.bind fun c => (nandPart b c name).map fun part => .row .nand part.1 part.2
  | some .emmc => b.emmc.bind fun d =>
    if (emmcPart d name).2 = 0 then none else some (.row .emmc (emmcPart d name).1 (emmcPart d name).2)
  | some .sf => (sfPart b name).map fun part => .row .nor part.1 part.2

def reached (unit len limit : Nat) : Nat :=
  if len < 2 ^ 32 then len
  else if limit = 0 then len % 2 ^ 32
  else if limit + unit ≤ 2 ^ 32 then len
  else 0

def Area.chunked (b : Board) (limit : Nat) : Area → List Cell
  | .row dev start len => (Area.row dev start (reached (dev.unit b) len limit)).cells b
  | .raw pages => (Area.raw pages).cells b

/-! ### The two runs -/

structure ChunkRun where
  io : Io
  io' : Io
  addr : Nat
  addr' : Nat
  start : World

def chunkCall (b : Board) (io : Io) (name : Bytes) (addr limit : Nat) (raw : Bool) (st : ChunkState) (off : Nat) :
    Option Bytes × ChunkState :=
  let (reply, st) := flashreadPartitionChunk b io name addr off limit raw st
  (reply.result.map fun out => st.world.ram.read addr out.2, st)

namespace ChunkRun

variable (r : ChunkRun) (b : Board) (name : Bytes) (raw : Bool) (limit : Nat)

def whole : Option (Nat × Nat) × World := flashreadPartition b r.io name r.addr 0 raw r.start

def wholeBytes : Option Bytes :=
  (r.whole b name raw).1.map fun out => (r.whole b name raw).2.ram.read r.addr out.2

def chunks : Chunks.Outcome UInt8 :=
  let area := chunkArea b (r.start.flashTypeNew.getD b.flashType) name raw
  Chunks.collect (chunkCall b r.io' name r.addr' limit raw) ((area.elim 0 fun a => (a.cells b).length) + 1)
    ⟨r.start, emmcCacheInvalidate⟩ 0 []

def Succeeds : Prop := (r.whole b name raw).1.isSome = true ∧ r.chunks b name raw limit ≠ .failed

def Agrees : Prop := ∃ data, r.wholeBytes b name raw = some data ∧ r.chunks b name raw limit = .done data

end ChunkRun

/-! ### The sizes of the chunks -/

section Steps

variable {unit len limit off remain : Nat}

lemma chunkSize_le (limit remain : Nat) : chunkSize limit remain ≤ remain := by
  rw [chunkSize]
  split
  · omega
  · exact Nat.mod_le _ _

lemma chunkSize_zero (counts : limit ≠ 0 ∨ remain < 2 ^ 32) (small : limit < 2 ^ 32)
    (none : chunkSize limit remain = 0) : remain = 0 := by
  rw [chunkSize] at none
  split at none
  · omega
  rename_i last
  have fits : remain < 2 ^ 32 := by
    rcases counts with limited | fits
    · have := mt (And.intro limited) last
      omega
    · exact fits
  rwa [Nat.mod_eq_of_lt fits] at none

lemma chunkSize_le_limit (limited : limit ≠ 0) (remain : Nat) : chunkSize limit remain ≤ limit := by
  rw [chunkSize]
  split
  · exact Nat.le_refl _
  · rename_i last
    have := mt (And.intro limited) last
    exact Nat.le_trans (Nat.mod_le _ _) (by omega)

def stepSize (unit limit remain : Nat) : Nat := (chunkSize limit remain + unit - 1) % 2 ^ 32 / unit * unit

lemma stepSize_eq (fits : chunkSize limit remain + unit ≤ 2 ^ 32) :
    stepSize unit limit remain = roundUp (chunkSize limit remain) unit := by
  rw [stepSize, Nat.mod_eq_of_lt (by omega), roundUp]

lemma chunkSize_lt (small : limit < 2 ^ 32) : chunkSize limit remain < 2 ^ 32 := by
  rw [chunkSize]
  split
  · exact small
  · exact Nat.mod_lt _ (by decide)

lemma stepSize_one (small : limit < 2 ^ 32) : stepSize 1 limit remain = chunkSize limit remain := by
  rw [stepSize_eq (chunkSize_lt small), roundUp_one]

lemma stepSize_lt : stepSize unit limit remain < 2 ^ 32 :=
  Nat.lt_of_le_of_lt (Nat.div_mul_le_self _ _) (Nat.mod_lt _ (by decide))

structure OnGrid (unit len limit off : Nat) : Prop where
  inside : off ≤ reached unit len limit
  whole : unit ∣ off
  unlimited : 2 ^ 32 ≤ len → limit = 0 → off = 0 ∨ off = len % 2 ^ 32

lemma OnGrid.zero : OnGrid unit len limit 0 := ⟨Nat.zero_le _, Nat.dvd_zero _, fun _ _ => .inl rfl⟩

lemma reached_le : reached unit len limit ≤ len := by
  rw [reached]
  split
  · exact Nat.le_refl _
  split
  · exact Nat.mod_le _ _
  · split
    · exact Nat.le_refl _
    · exact Nat.zero_le _

lemma OnGrid.step (grid : OnGrid unit len limit off) (pos : 0 < unit) (word : unit ∣ 2 ^ 32) (dvd : unit ∣ len)
    (small : limit < 2 ^ 32) :
    OnGrid unit len limit (off + stepSize unit limit (len - off)) ∧
      (stepSize unit limit (len - off) = 0 → reached unit len limit ≤ off) := by
  have inside := grid.inside
  -- as long as rounding up does not overflow, the chunks go to the end
  have plain (all : reached unit len limit = len) (counts : limit ≠ 0 ∨ len < 2 ^ 32)
      (fits : chunkSize limit (len - off) + unit ≤ 2 ^ 32) :
      OnGrid unit len limit (off + stepSize unit limit (len - off)) ∧
        (stepSize unit limit (len - off) = 0 → reached unit len limit ≤ off) := by
    rw [all] at inside
    have rest : unit ∣ len - off := Nat.dvd_sub dvd grid.whole
    rw [stepSize_eq fits]
    refine ⟨⟨?_, Nat.dvd_add grid.whole (dvd_roundUp _ _), ?_⟩, ?_⟩
    · have := roundUp_le pos rest (chunkSize_le limit _)
      rw [all]
      omega
    · intro large unlimited
      omega
    · intro none
      have : chunkSize limit (len - off) ≤ _ := le_roundUp pos
      have := chunkSize_zero (by omega) small (show chunkSize limit (len - off) = 0 by omega)
      omega
  have below {k : Nat} (lt : k < 2 ^ 32) (whole : unit ∣ k) : k + unit ≤ 2 ^ 32 := by
    have le := Nat.le_of_dvd (by omega) (Nat.dvd_sub word whole)
    omega
  by_cases short : len < 2 ^ 32
  · have := chunkSize_le limit (len - off)
    have := below short dvd
    exact plain (by rw [reached, if_pos short]) (.inr short) (by omega)
  by_cases unlimited : limit = 0
  · have low : reached unit len limit = len % 2 ^ 32 := by
      rw [reached, if_neg short, if_pos unlimited]
    have rest : unit ∣ len % 2 ^ 32 := (Nat.dvd_mod_iff word).mpr dvd
    have size : stepSize unit limit (len - off) = (len - off) % 2 ^ 32 := by
      have chunk : chunkSize limit (len - off) = (len - off) % 2 ^ 32 := by
        rw [chunkSize, if_neg (by omega)]
      have whole : unit ∣ (len - off) % 2 ^ 32 := (Nat.dvd_mod_iff word).mpr (Nat.dvd_sub dvd grid.whole)
      have fits := below (Nat.mod_lt (len - off) (by decide)) whole
      rw [stepSize_eq (by rw [chunk]; exact fits), chunk, roundUp_of_dvd pos whole]
    rw [size, low]
    rcases grid.unlimited (Nat.le_of_not_lt short) unlimited with rfl | rfl
    · rw [Nat.sub_zero, Nat.zero_add]
      exact ⟨⟨by rw [low], rest, fun _ _ => .inr rfl⟩, fun none => Nat.le_of_eq none⟩
    · have none : (len - len % 2 ^ 32) % 2 ^ 32 = 0 := by omega
      rw [none, Nat.add_zero]
      exact ⟨grid, fun _ => Nat.le_refl _⟩
  · by_cases rounds : limit + unit ≤ 2 ^ 32
    · have := chunkSize_le_limit unlimited (len - off)
      exact plain (by rw [reached, if_neg short, if_neg unlimited, if_pos rounds]) (.inl unlimited) (by omega)
    have none : reached unit len limit = 0 := by
      rw [reached, if_neg short, if_neg unlimited, if_neg rounds]
    rw [none] at inside ⊢
    obtain rfl := Nat.le_zero.mp inside
    have size : stepSize unit limit (len - 0) = 0 := by
      rw [stepSize, chunkSize, if_pos ⟨unlimited, by omega⟩]
      have past : limit + unit - 1 = 2 ^ 32 + (limit + unit - 1 - 2 ^ 32) := by omega
      have low : limit + unit - 1 - 2 ^ 32 < unit := by omega
      rw [past, Nat.add_mod_left, Nat.mod_eq_of_lt (Nat.lt_of_lt_of_le low (Nat.le_of_dvd (by decide) word)),
        Nat.div_eq_of_lt low, Nat.zero_mul]
    rw [size]
    exact ⟨.zero, fun _ => Nat.le_refl _⟩

lemma stepSize_zero (pos : 0 < unit) (word : unit ∣ 2 ^ 32) : stepSize unit limit 0 = 0 := by
  have := Nat.le_of_dvd (by decide) word
  have none : chunkSize limit 0 = 0 := Nat.le_zero.mp (chunkSize_le limit 0)
  rw [stepSize_eq (by omega), none]
  exact roundUp_of_dvd pos (Nat.dvd_zero unit)

end Steps

/-! ### Each reader serves its area -/

section Readers

variable {b : Board} {io : Io} {name : Bytes} {addr limit : Nat} {raw : Bool} {w w' : World}

structure Kept (w w' : World) : Prop where
  bytes : w'.byte = w.byte
  override : w'.flashTypeNew = w.flashTypeNew

lemma Kept.refl (w : World) : Kept w w := ⟨rfl, rfl⟩

lemma Kept.trans {w'' : World} (kept : Kept w w') (kept' : Kept w' w'') : Kept w w'' :=
  ⟨kept'.bytes.trans kept.bytes, kept'.override.trans kept.override⟩

lemma kept_ram (w : World) (ram : Mem) (log : List Cmd) : Kept w { w with ram := ram, log := log } :=
  ⟨by funext c; cases c <;> rfl, rfl⟩

def rowBytes (w : World) (dev : Device) (start len : Nat) : Bytes :=
  ((List.range' start len).map dev.cell).map w.byte

lemma rowBytes_read (w : World) (dev : Device) (start len : Nat) :
    rowBytes w dev start len = (w.cells dev).read start len := by
  rw [rowBytes, List.map_map, ← Chip.map_range']
  cases dev <;> rfl

lemma length_rowBytes (w : World) (dev : Device) (start len : Nat) : (rowBytes w dev start len).length = len := by
  simp [rowBytes]

lemma rowBytes_piece (w : World) (dev : Device) {off : Nat} (fits : off + size ≤ len) :
    rowBytes w dev (start + off) size <+: (rowBytes w dev start len).drop off := by
  have cut : List.range' start len = List.range' start off ++
      (List.range' (start + off) size ++ List.range' (start + off + size) (len - off - size)) := by
    rw [List.range'_append_1, List.range'_append_1]
    congr 1
    omega
  rw [rowBytes, rowBytes, cut, List.map_append, List.map_append, List.map_append, List.map_append,
    List.drop_left' (by simp)]
  exact List.prefix_append _ _

lemma serves_row {call : ChunkState → Nat → Option Bytes × ChunkState}
    (unit : Nat) (Inv : ChunkState → Nat → Prop) (pos : 0 < unit) (word : unit ∣ 2 ^ 32) (dvd : unit ∣ len)
    (small : limit < 2 ^ 32)
    (gives : ∀ {st off data}, Inv st off → OnGrid unit len limit off → (call st off).1 = some data →
      data = rowBytes w dev (start + off) (stepSize unit limit (len - off)) ∧
        (data ≠ [] → Inv (call st off).2 (off + stepSize unit limit (len - off)))) :
    Chunks.Serves call (rowBytes w dev start (reached unit len limit)) fun st off =>
      Inv st off ∧ OnGrid unit len limit off where
  piece inv answer := by
    obtain ⟨rfl, -⟩ := gives inv.1 inv.2 answer
    exact rowBytes_piece w dev (inv.2.step pos word dvd small).1.inside
  next inv answer more := by
    obtain ⟨rfl, next⟩ := gives inv.1 inv.2 answer
    rw [length_rowBytes]
    exact ⟨next more, (inv.2.step pos word dvd small).1⟩
  ends {st off} inv answer := by
    have none := congrArg List.length (gives inv.1 inv.2 answer).1
    rw [length_rowBytes] at none ⊢
    exact (inv.2.step pos word dvd small).2 none.symm

lemma chunkPieces_cells {fuel cur left : Nat} (enough : left ≤ fuel)
    (ok : (c.chunkPieces io fuel cur (cur + left) left).1 = none) :
    Skip.cells (c.chunkPieces io fuel cur (cur + left) left).2 = List.range' cur left := by
  induction fuel generalizing cur left with
  | zero =>
    obtain rfl := Nat.le_zero.mp enough
    rfl
  | succ fuel ih =>
    simp only [Chip.chunkPieces] at ok ⊢
    split_ifs at ok ⊢ with past
    · obtain rfl : left = 0 := by omega
      rfl
    have pos : 0 < c.erasesize - cur % c.erasesize :=
      Nat.sub_pos_of_lt (Nat.mod_lt _ c.erasesize_pos)
    have rest : cur + left = cur + min left (c.erasesize - cur % c.erasesize) +
        (left - min left (c.erasesize - cur % c.erasesize)) := by omega
    rw [rest] at ok
    have tail := ih (by omega) ok
    rw [← rest] at tail
    rw [Skip.cells_cons, tail, List.range'_append_1]
    congr 1
    omega

structure Gave (addr : Nat) (data : Bytes) (w w' : World) (size : Nat) : Prop where
  kept : Kept w w'
  data : w'.ram.read addr size = data

lemma gave_nothing (addr : Nat) (w : World) (dev : Device) (start : Nat) : Gave addr (rowBytes w dev start 0) w w 0 :=
  ⟨.refl w, rfl⟩

lemma gave_row (addr : Nat) (w : World) (dev : Device) (start n : Nat) (log : List Cmd) :
    Gave addr (rowBytes w dev start n) w
      { w with ram := w.ram.write addr (rowBytes w dev start n), log := log } n := by
  refine ⟨kept_ram w _ log, ?_⟩
  have read := Mem.read_write w.ram addr (rowBytes w dev start n)
  rwa [length_rowBytes] at read

lemma nandChunkRead_true {off : Nat} {out : Nat × Nat} (chip : b.nand = some c)
    (part : nandPart b c name = some (base, total)) (small : limit < 2 ^ 32)
    (ok : (nandChunkRead b io name addr off limit w).1.result = some out) :
    Gave addr (rowBytes w .nand (base + off) (stepSize 1 limit (total - off))) w
      (nandChunkRead b io name addr off limit w).2 out.2 := by
  simp only [nandChunkRead, chip, part] at ok ⊢
  rw [stepSize_one small]
  generalize size : chunkSize limit (total - off) = n at ok ⊢
  cases detail : (c.chunkPieces io n (base + off) (base + off + n) n).1 with
  | some text =>
    simp only [detail] at ok
    cases ok
  | none =>
    simp only [detail, Option.some.injEq] at ok ⊢
    subst ok
    have gave := gave_row addr w .nand (base + off) n w.log
    rw [rowBytes_read] at gave ⊢
    rw [Chip.readPieces_eq, chunkPieces_cells (Nat.le_refl n) detail, Chip.map_range']
    exact gave

lemma sfChunkRead_true {off : Nat} {out : Nat × Nat} (part : sfPart b name = some (base, total))
    (small : limit < 2 ^ 32) (ok : (sfChunkRead b io name addr off limit w).1.result = some out) :
    Gave addr (rowBytes w .nor (base + off) (stepSize 1 limit (total - off))) w
      (sfChunkRead b io name addr off limit w).2 out.2 := by
  simp only [sfChunkRead, part] at ok ⊢
  split at ok
  · rename_i past
    rw [if_pos past]
    cases ok
    rw [show total - off = 0 by omega, stepSize_zero (by decide) (Nat.one_dvd _)]
    exact gave_nothing addr w .nor _
  · rename_i more
    rw [if_neg more, stepSize_one small]
    generalize size : chunkSize limit (total - off) = n at ok ⊢
    rcases run : runCommand b io [.sfProbe, .sfRead addr (base + off) n] w with ⟨_ | _, w'⟩ <;> rw [run] at ok <;> cases ok
    obtain ⟨dev, device, -, result⟩ := readFromFlash_held (w := w) (b := b)
      (show readFromFlash b .spiFlash addr (base + off) n .default false = some _ from rfl) (congrArg Prod.fst run)
    cases device
    rw [run] at result
    obtain rfl : w' = _ := result
    have gave := gave_row addr w .nor (base + off) n (w.log ++ [.sfProbe, .sfRead addr (base + off) n])
    rw [rowBytes_read] at gave ⊢
    exact gave

lemma mmcRead_true {d : BlockDev} {n : Nat} (disk : b.emmc = some d)
    (ok : (exec b io (.mmcRead addr start n) w).1 = true) :
    Gave addr (rowBytes w .emmc (start * d.blksz) (n * d.blksz)) w (exec b io (.mmcRead addr start n) w).2
        (n * d.blksz) ∧
      (n = 0 ∨ start + n ≤ d.lba) := by
  obtain ⟨works, done⟩ := exec_ok.mp ok
  rw [exec, if_pos works]
  simp only [effect, disk] at done ⊢
  split_ifs at done ⊢ with inside
  have gave := gave_row addr w .emmc (start * d.blksz) (n * d.blksz) (w.log ++ [.mmcRead addr start n])
  rw [rowBytes_read] at gave ⊢
  exact ⟨gave, by omega⟩

def Coherent (d : BlockDev) (name : Bytes) (cache : EmmcCache) : Prop :=
  0 < cache.partSize → name = cache.partName → (cache.baseOffset, cache.partSize) = emmcPart d name

lemma emmcPart_blocks (d : BlockDev) (name : Bytes) :
    ∃ start n, emmcPart d name = (start * d.blksz, n * d.blksz) ∧ start < 2 ^ 32 := by
  rw [emmcPart]
  split
  · exact ⟨0, Gpt.gptPrimarySize, by rw [Nat.zero_mul], by decide⟩
  split
  · exact ⟨_, _, rfl, Nat.mod_lt _ (by decide)⟩
  · split
    · exact ⟨0, 0, by rw [Nat.zero_mul], by decide⟩
    · exact ⟨_, _, rfl, Nat.mod_lt _ (by decide)⟩

lemma blksz_word (d : BlockDev) : d.blksz ∣ 2 ^ 32 := Nat.dvd_trans d.divides (by decide)

lemma emmcChunkRead_true {d : BlockDev} {off n : Nat} {st : ChunkState} {out : Nat × Nat}
    (disk : b.emmc = some d) (part : emmcPart d name = (start * d.blksz, n * d.blksz))
    (coherent : Coherent d name st.cache) (whole : d.blksz ∣ off) (low : start + off / d.blksz < 2 ^ 32)
    (ok : (emmcChunkRead b io name addr off limit st).1.result = some out) :
    let size := stepSize d.blksz limit (n * d.blksz - off)
    Gave addr (rowBytes st.world .emmc (start * d.blksz + off) size) st.world
        (emmcChunkRead b io name addr off limit st).2.world out.2 ∧
      Coherent d name (emmcChunkRead b io name addr off limit st).2.cache ∧
      (size = 0 ∨ start + (off + size) / d.blksz < 2 ^ 32) := by
  have pos := d.blksz_pos
  have found : (if name = st.cache.partName ∧ st.cache.partSize > 0 then
      (st.cache.baseOffset, st.cache.partSize) else emmcPart d name) = (start * d.blksz, n * d.blksz) := by
    split
    · rename_i hit
      rw [coherent hit.2 hit.1, part]
    · exact part
  have cached : Coherent d name ⟨start * d.blksz, n * d.blksz, name.take 31⟩ := fun _ _ => part.symm
  simp only [emmcChunkRead, disk, found] at ok ⊢
  split_ifs at ok ⊢ with present past
  · cases ok
  · cases ok
    rw [show n * d.blksz - off = 0 by omega, stepSize_zero pos (blksz_word d)]
    exact ⟨gave_nothing addr st.world .emmc _, cached, .inl rfl⟩
  · have sector : (start * d.blksz + off) / d.blksz % 2 ^ 32 = start + off / d.blksz := by
      rw [Nat.mul_comm start, Nat.mul_add_div pos, Nat.mod_eq_of_lt low]
    have place : (start + off / d.blksz) * d.blksz = start * d.blksz + off := by
      rw [Nat.add_mul, Nat.div_mul_cancel whole]
    have size : (chunkSize limit (n * d.blksz - off) + d.blksz - 1) % 2 ^ 32 / d.blksz * d.blksz =
      stepSize d.blksz limit (n * d.blksz - off) := rfl
    have lt : stepSize d.blksz limit (n * d.blksz - off) < 2 ^ 32 := stepSize_lt
    rw [sector] at ok ⊢
    generalize (chunkSize limit (n * d.blksz - off) + d.blksz - 1) % 2 ^ 32 / d.blksz = k at *
    rw [← size] at lt ⊢
    rcases run : exec b io (.mmcRead addr (start + off / d.blksz) k) st.world with ⟨_ | _, w'⟩ <;> rw [run] at ok <;> cases ok
    obtain ⟨gave, inside⟩ := mmcRead_true disk (congrArg Prod.fst run)
    rw [run, place] at gave
    refine ⟨?_, cached, ?_⟩
    · simp only [Nat.mod_eq_of_lt lt]
      exact gave
    have := d.lba_lt
    rw [Nat.add_mul_div_right off k pos]
    rcases inside with rfl | inside
    · exact .inl (Nat.zero_mul _)
    · exact .inr (by omega)

/-! The pages with their spare bytes -/

lemma length_pageCells (c : Chip) (p : Nat) : (c.pageCells p).length = c.writesize + c.oobsize := by
  simp [Chip.pageCells]

lemma rawPage_eq (c : Chip) (w : World) (p : Nat) : c.rawPage w (p * c.writesize) = (c.pageCells p).map w.byte := by
  rw [Chip.rawPage, Chip.pageCells, Nat.mul_div_cancel _ c.writesize_pos, List.map_append, List.map_map, List.map_map,
    ← Chip.map_range', ← Chip.map_range']
  rfl

def pagesFrom (c : Chip) (p n : Nat) : List Cell := (List.range' p n).flatMap c.pageCells

lemma length_pagesFrom (c : Chip) (p n : Nat) : (pagesFrom c p n).length = n * (c.writesize + c.oobsize) := by
  rw [pagesFrom, List.length_flatMap, List.map_congr_left fun p _ => length_pageCells c p]
  simp

lemma pagesFrom_append (c : Chip) (p m n : Nat) : pagesFrom c p (m + n) = pagesFrom c p m ++ pagesFrom c (p + m) n := by
  rw [pagesFrom, ← List.range'_append_1, List.flatMap_append]
  rfl

lemma pagesFrom_piece (c : Chip) {t p m : Nat} (fits : p + m ≤ t) :
    pagesFrom c p m <+: (pagesFrom c 0 t).drop (p * (c.writesize + c.oobsize)) := by
  obtain ⟨k, rfl⟩ := Nat.exists_eq_add_of_le fits
  rw [Nat.add_assoc, pagesFrom_append, Nat.zero_add, pagesFrom_append, List.drop_left' (length_pagesFrom c 0 p)]
  exact List.prefix_append _ _

lemma nandRawChunkRead_true {p : Nat} {out : Nat × Nat} (chip : b.nand = some c)
    (inside : p ≤ c.size / c.writesize % 2 ^ 32)
    (ok : (nandRawChunkRead b io addr (p * (c.writesize + c.oobsize)) limit w).1.result = some out) :
    ∃ m, p + m ≤ c.size / c.writesize % 2 ^ 32 ∧ (m = 0 → c.size / c.writesize % 2 ^ 32 ≤ p) ∧
      Gave addr ((pagesFrom c p m).map w.byte) w
        (nandRawChunkRead b io addr (p * (c.writesize + c.oobsize)) limit w).2 out.2 := by
  have pos : 0 < c.writesize + c.oobsize := Nat.add_pos_left c.writesize_pos _
  have total : c.size / c.writesize % 2 ^ 32 < 2 ^ 32 := Nat.mod_lt _ (by decide)
  simp only [nandRawChunkRead, chip, Nat.mul_div_cancel p pos, Nat.mod_eq_of_lt (Nat.lt_of_le_of_lt inside total)]
    at ok ⊢
  generalize c.size / c.writesize % 2 ^ 32 = t at *
  split at ok
  · rename_i past
    rw [if_pos past]
    cases ok
    exact ⟨0, inside, fun _ => past, .refl w, rfl⟩
  · rename_i more
    rw [if_neg more]
    generalize (if limit / (c.writesize + c.oobsize) = 0 then 1 else limit / (c.writesize + c.oobsize)) = avail at *
    generalize count : (if (p + avail) % 2 ^ 32 > t then t - p else avail) = k at *
    have stop : (p + k) % 2 ^ 32 ≤ t := by
      rw [← count]
      split
      · rw [show p + (t - p) = t by omega]
        exact Nat.mod_le _ _
      · omega
    obtain ⟨m, le, pages⟩ : ∃ m ≤ (p + k) % 2 ^ 32 - p, c.rawPages io p k = List.range' p m := by
      have front : c.rawPages io p k <+: List.range' p ((p + k) % 2 ^ 32 - p) := List.takeWhile_prefix _
      have le : (c.rawPages io p k).length ≤ (p + k) % 2 ^ 32 - p := by
        have := front.length_le
        rwa [List.length_range'] at this
      refine ⟨(c.rawPages io p k).length, le, ?_⟩
      rw [← List.take_range'_of_length_ge le]
      exact List.prefix_iff_eq_take.mp front
    rw [pages] at ok ⊢
    split_ifs at ok ⊢ with some
    · cases ok
    cases ok
    rw [List.length_range'] at some ⊢
    refine ⟨m, by omega, by omega, kept_ram w _ w.log, ?_⟩
    have data : ((List.range' p m).flatMap fun q => c.rawPage w (q * c.writesize)) = (pagesFrom c p m).map w.byte := by
      rw [pagesFrom, List.map_flatMap]
      exact List.flatMap_congr fun q _ => rawPage_eq c w q
    have read := Mem.read_write w.ram addr ((pagesFrom c p m).map w.byte)
    rw [List.length_map, length_pagesFrom] at read
    simp only [data]
    exact read

/-! The calls -/

lemma chunkCall_some {st : ChunkState} {off : Nat} {data : Bytes}
    (answer : (chunkCall b io name addr limit raw st off).1 = some data) :
    ∃ out, (flashreadPartitionChunk b io name addr off limit raw st).1.result = some out ∧
      data = (flashreadPartitionChunk b io name addr off limit raw st).2.world.ram.read addr out.2 := by
  obtain ⟨out, ok, rfl⟩ := Option.map_eq_some_iff.mp answer
  exact ⟨out, ok, rfl⟩

lemma OnGrid.next_data {unit off : Nat} {data : Bytes}
    (eq : data = rowBytes w dev start (stepSize unit limit (len - off))) (more : data ≠ []) :
    stepSize unit limit (len - off) ≠ 0 := by
  intro none
  rw [none] at eq
  exact more eq

lemma serves_raw (chip : b.nand = some c) (dispatch : ∀ {st : ChunkState}, Kept w st.world →
      chunkReader b (st.world.flashTypeNew.getD b.flashType) name raw = some .raw) :
    Chunks.Serves (chunkCall b io name addr limit raw)
      ((pagesFrom c 0 (c.size / c.writesize % 2 ^ 32)).map w.byte) fun st off =>
        Kept w st.world ∧ ∃ p ≤ c.size / c.writesize % 2 ^ 32, off = p * (c.writesize + c.oobsize) := by
  have gives {st : ChunkState} {p : Nat} {data : Bytes} (kept : Kept w st.world)
      (inside : p ≤ c.size / c.writesize % 2 ^ 32)
      (answer : (chunkCall b io name addr limit raw st (p * (c.writesize + c.oobsize))).1 = some data) :
      ∃ m, p + m ≤ c.size / c.writesize % 2 ^ 32 ∧ (m = 0 → c.size / c.writesize % 2 ^ 32 ≤ p) ∧
        data = (pagesFrom c p m).map w.byte ∧
        Kept w (chunkCall b io name addr limit raw st (p * (c.writesize + c.oobsize))).2.world := by
    obtain ⟨out, ok, rfl⟩ := chunkCall_some answer
    simp only [flashreadPartitionChunk, ChunkReader.read, dispatch kept, chunkCall] at ok ⊢
    obtain ⟨m, le, last, gave⟩ := nandRawChunkRead_true chip inside ok
    refine ⟨m, le, last, ?_, kept.trans gave.kept⟩
    rw [gave.data, kept.bytes]
  constructor
  case piece =>
    rintro st _ data ⟨kept, p, inside, rfl⟩ answer
    obtain ⟨m, le, -, rfl, -⟩ := gives kept inside answer
    rw [← List.map_drop]
    exact (pagesFrom_piece c le).map w.byte
  case next =>
    rintro st _ data ⟨kept, p, inside, rfl⟩ answer -
    obtain ⟨m, le, -, rfl, kept'⟩ := gives kept inside answer
    refine ⟨kept', p + m, le, ?_⟩
    rw [List.length_map, length_pagesFrom, Nat.add_mul]
  case ends =>
    rintro st _ ⟨kept, p, inside, rfl⟩ answer
    obtain ⟨m, le, last, nothing, -⟩ := gives kept inside answer
    have length := congrArg List.length nothing
    rw [List.length_map, length_pagesFrom] at length
    have none : m = 0 := by
      rcases Nat.mul_eq_zero.mp length.symm with none | empty
      · exact none
      · have := c.writesize_pos
        omega
    rw [List.length_map, length_pagesFrom]
    exact Nat.mul_le_mul_right _ (last none)

lemma serves_bytes {r : ChunkReader} (small : limit < 2 ^ 32)
    (dispatch : ∀ {st : ChunkState}, Kept w st.world →
      chunkReader b (st.world.flashTypeNew.getD b.flashType) name raw = some r)
    (gives : ∀ {st : ChunkState} {off : Nat} {out : Nat × Nat}, (r.read b io name addr off limit st).1.result = some out →
      Gave addr (rowBytes st.world dev (base + off) (stepSize 1 limit (total - off))) st.world
        (r.read b io name addr off limit st).2.world out.2) :
    Chunks.Serves (chunkCall b io name addr limit raw) (rowBytes w dev base (reached 1 total limit)) fun st off =>
      Kept w st.world ∧ OnGrid 1 total limit off := by
  refine serves_row 1 (fun st _ => Kept w st.world) (by decide) (Nat.one_dvd _) (Nat.one_dvd _) small ?_
  intro st off data kept grid answer
  obtain ⟨out, ok, rfl⟩ := chunkCall_some answer
  simp only [flashreadPartitionChunk, dispatch kept, chunkCall] at ok ⊢
  have gave := gives ok
  refine ⟨?_, fun _ => kept.trans gave.kept⟩
  rw [gave.data, rowBytes, kept.bytes]
  rfl

lemma serves_area {a : Area} (small : limit < 2 ^ 32)
    (area : chunkArea b (w.flashTypeNew.getD b.flashType) name raw = some a) :
    ∃ Inv, Chunks.Serves (chunkCall b io name addr limit raw) ((a.chunked b limit).map w.byte) Inv ∧
      Inv ⟨w, emmcCacheInvalidate⟩ 0 := by
  rw [chunkArea] at area
  cases reader : chunkReader b (w.flashTypeNew.getD b.flashType) name raw with
  | none =>
    rw [reader] at area
    cases area
  | some r =>
    rw [reader] at area
    -- the calls dispatch alike as long as the override stays
    have dispatch {st : ChunkState} (kept : Kept w st.world) :
        chunkReader b (st.world.flashTypeNew.getD b.flashType) name raw = some r := by
      rw [kept.override]
      exact reader
    cases r with
    | raw =>
      obtain ⟨c, chip, rfl⟩ := Option.map_eq_some_iff.mp area
      have cells : (Area.raw (c.size / c.writesize % 2 ^ 32)).chunked b limit =
          pagesFrom c 0 (c.size / c.writesize % 2 ^ 32) := by
        simp only [Area.chunked, Area.cells, chip, pagesFrom, List.range_eq_range']
      rw [cells]
      exact ⟨_, serves_raw chip dispatch, .refl w, 0, Nat.zero_le _, (Nat.zero_mul _).symm⟩
    | nand =>
      obtain ⟨c, chip, area⟩ := Option.bind_eq_some_iff.mp area
      obtain ⟨⟨base, total⟩, part, rfl⟩ := Option.map_eq_some_iff.mp area
      exact ⟨_, serves_bytes small dispatch (nandChunkRead_true chip part small), .refl w, .zero⟩
    | sf =>
      obtain ⟨⟨base, total⟩, part, rfl⟩ := Option.map_eq_some_iff.mp area
      exact ⟨_, serves_bytes small dispatch (sfChunkRead_true part small), .refl w, .zero⟩
    | emmc =>
      obtain ⟨d, disk, area⟩ := Option.bind_eq_some_iff.mp area
      obtain ⟨start, n, part, low⟩ := emmcPart_blocks d name
      split at area
      · cases area
      rw [part] at area
      cases area
      have unit : Device.unit b .emmc = d.blksz := by simp only [Device.unit, disk]
      have pos := d.blksz_pos
      simp only [Area.chunked, unit]
      refine ⟨_, serves_row d.blksz
        (fun st off => Kept w st.world ∧ Coherent d name st.cache ∧ start + off / d.blksz < 2 ^ 32)
        pos (blksz_word d) ⟨n, Nat.mul_comm _ _⟩ small ?_,
        ⟨.refl w, fun present => absurd present (Nat.lt_irrefl 0), by rw [Nat.zero_div]; exact low⟩, .zero⟩
      rintro st off data ⟨kept, coherent, here⟩ grid answer
      obtain ⟨out, ok, rfl⟩ := chunkCall_some answer
      simp only [flashreadPartitionChunk, ChunkReader.read, dispatch kept, chunkCall] at ok ⊢
      obtain ⟨gave, coherent', next⟩ := emmcChunkRead_true disk part coherent grid.whole here ok
      have data : (emmcChunkRead b io name addr off limit st).2.world.ram.read addr out.2 =
          rowBytes w .emmc (start * d.blksz + off) (stepSize d.blksz limit (n * d.blksz - off)) := by
        rw [gave.data, rowBytes, kept.bytes]
        rfl
      exact ⟨data, fun more => ⟨kept.trans gave.kept, coherent', next.resolve_left (OnGrid.next_data data more)⟩⟩

end Readers

/-! ### What a call answers does not depend on the data -/

section Alike

variable {b : Board} {io : Io} {name : Bytes} {addr limit off : Nat} {raw : Bool} {w w' : World} {st st' : ChunkState}

structure Even (w w' : World) : Prop where
  log : w'.log.length = w.log.length
  override : w'.flashTypeNew = w.flashTypeNew

structure Alike (st st' : ChunkState) : Prop where
  world : Even st.world st'.world
  cache : st'.cache = st.cache

lemma runCommand_even (cs : List Cmd) (isStatic : ∀ cmd ∈ cs, cmd.Static) (even : Even w w') :
    (runCommand b io cs w').1 = (runCommand b io cs w).1 ∧
      ((runCommand b io cs w).1 = true → Even (runCommand b io cs w).2 (runCommand b io cs w').2) := by
  have same := runCommand_same (b := b) cs (fun c mem u u' => effect_static io io (isStatic c mem) u u') even.log
  refine ⟨same, fun ok => ⟨?_, ?_⟩⟩
  · rw [runCommand_log_true _ _ ok, runCommand_log_true _ _ (same.trans ok), List.length_append, List.length_append,
      even.log]
  · rw [runCommand_flashTypeNew, runCommand_flashTypeNew, even.override]

lemma ChunkReader.read_alike (reader : ChunkReader) (alike : Alike st st') :
    (reader.read b io name addr off limit st').1 = (reader.read b io name addr off limit st).1 ∧
      ((reader.read b io name addr off limit st).1.result.isSome = true →
        Alike (reader.read b io name addr off limit st).2 (reader.read b io name addr off limit st').2) := by
  have even := alike.world
  cases reader with
  | raw | nand =>
    simp only [ChunkReader.read, nandRawChunkRead, nandChunkRead]
    (repeat' split) <;> exact ⟨rfl, fun _ => ⟨⟨even.log, even.override⟩, alike.cache⟩⟩
  | sf =>
    simp only [ChunkReader.read, sfChunkRead]
    split
    · exact ⟨rfl, fun _ => alike⟩
    split
    · exact ⟨rfl, fun _ => alike⟩
    rename_i base total _ _
    obtain ⟨same, next⟩ := @runCommand_even b io _ _
      [.sfProbe, .sfRead addr (base + off) (chunkSize limit (total - off))] (by simp [Cmd.Static]) even
    split <;> rename_i run <;> rw [run] at same next <;> split <;> rename_i run' <;> rw [run'] at same next
    · exact ⟨rfl, fun some => by cases some⟩
    · cases same
    · cases same
    · exact ⟨rfl, fun _ => ⟨next rfl, alike.cache⟩⟩
  | emmc =>
    simp only [ChunkReader.read, emmcChunkRead, alike.cache]
    split
    · exact ⟨rfl, fun _ => alike⟩
    rename_i d _
    generalize (if name = st.cache.partName ∧ st.cache.partSize > 0 then
      (st.cache.baseOffset, st.cache.partSize) else emmcPart d name) = part
    split
    · exact ⟨rfl, fun _ => alike⟩
    split
    · exact ⟨rfl, fun _ => ⟨even, rfl⟩⟩
    generalize (part.1 + off) / d.blksz % 2 ^ 32 = start
    generalize (chunkSize limit (part.2 - off) + d.blksz - 1) % 2 ^ 32 / d.blksz = n
    obtain ⟨same, next⟩ := @runCommand_even b io _ _ [.mmcRead addr start n] (by simp [Cmd.Static]) even
    rw [runCommand_singleton, runCommand_singleton] at same next
    split <;> rename_i run <;> rw [run] at same next <;> split <;> rename_i run' <;> rw [run'] at same next
    · exact ⟨rfl, fun some => by cases some⟩
    · cases same
    · cases same
    · exact ⟨rfl, fun _ => ⟨next rfl, rfl⟩⟩

lemma chunkCall_alike (off : Nat) (alike : Alike st st') :
    (chunkCall b io name addr limit raw st off).1.map List.length =
        (chunkCall b io name addr limit raw st' off).1.map List.length ∧
      ((chunkCall b io name addr limit raw st off).1.isSome = true →
        Alike (chunkCall b io name addr limit raw st off).2 (chunkCall b io name addr limit raw st' off).2) := by
  simp only [chunkCall, flashreadPartitionChunk, alike.world.override]
  cases chunkReader b (st.world.flashTypeNew.getD b.flashType) name raw with
  | none => exact ⟨rfl, fun some => by cases some⟩
  | some reader =>
    obtain ⟨same, next⟩ := @ChunkReader.read_alike b io name addr limit off _ _ reader alike
    simp only [same, Option.map_map, Option.isSome_map]
    refine ⟨?_, next⟩
    congr 1
    funext out
    simp

end Alike

/-! ### What a whole read gives -/

section Whole

variable {b : Board} {io : Io} {name : Bytes} {addr : Nat} {w : World}

lemma locate_source {s : Source} (source : locate b ft name = .source s) :
    (s.flashType = .mmcFlash ∧ ∃ d, b.emmc = some d ∧ s.blkDev = some d) ∨
      (s.flashType ≠ .mmcFlash ∧ s.partSize < 2 ^ 32) := by
  have smem {ft' : SmemBoot} {layout : Layout} (other : ft' ≠ .mmcFlash)
      (here : locateSmem b ft' layout name = .source s) : s.flashType ≠ .mmcFlash ∧ s.partSize < 2 ^ 32 := by
    rw [locateSmem] at here
    split at here <;> cases here
    exact ⟨other, Nat.mod_lt _ (by decide)⟩
  have emmc {d : BlockDev} (disk : b.emmc = some d) (here : locateEmmc d name = .source s) :
      s.flashType = .mmcFlash ∧ ∃ d, b.emmc = some d ∧ s.blkDev = some d := by
    rw [locateEmmc] at here
    (repeat' split at here) <;> cases here <;> exact ⟨rfl, d, disk, rfl⟩
  cases ft <;> simp only [locate] at source
  case nandFlash | qspiNandFlash => exact .inr (smem (by decide) source)
  case mmcFlash | noFlash =>
    split at source
    · cases source
    · exact .inl (emmc ‹_› source)
  case spiFlash =>
    have nand (slot : (b.secondaryNand && isRootfs name) = true) : b.secondary ≠ .mmcFlash := by
      intro mmc
      rw [Board.secondaryNand, mmc] at slot
      cases slot
    split_ifs at source with flag slot
    · split at source <;> cases source
      rename_i part
      obtain ⟨p, -, eq⟩ := Option.map_eq_some_iff.mp part
      cases eq
      exact .inr ⟨show SmemBoot.nandFlash ≠ .mmcFlash by decide, Nat.mod_lt _ (by decide)⟩
    · cases source
      exact .inr ⟨nand slot, show ipqNandRootfsSize < 2 ^ 32 by decide⟩
    · cases source
      exact .inr ⟨nand slot, Nat.two_pow_pos 32⟩
    · split at source
      · cases source
      · exact .inl (emmc ‹_› source)
    · exact .inr (smem (by decide) source)
  all_goals
    cases source
    exact .inr ⟨by decide, by decide⟩

lemma fullSource_size {s : SmemBoot × Nat} (source : fullSource b name = some s) : s.1 ≠ .mmcFlash ∧ s.2 < 2 ^ 32 := by
  rw [fullSource] at source
  split at source
  · split at source
    · cases source
    · cases source
      exact ⟨show SmemBoot.spiFlash ≠ .mmcFlash by decide, b.norSize_lt⟩
  · split at source
    · cases source
    · cases source
      exact ⟨show SmemBoot.nandFlash ≠ .mmcFlash by decide, Nat.mod_lt _ (by decide)⟩

lemma readPlan_bytes {ft' : SmemBoot} {off : Nat}
    (plan : readPlan b ft name 0 = some (ft', off, k, layout)) (other : ft' ≠ .mmcFlash) : k < 2 ^ 32 := by
  rw [readPlan] at plan
  split at plan
  · obtain ⟨s, source, eq⟩ := Option.map_eq_some_iff.mp plan
    cases eq
    rw [if_neg (by simp)]
    exact (fullSource_size source).2
  · cases source : locate b ft name with
    | exit | fail =>
      rw [source] at plan
      cases plan
    | source s =>
      rw [source] at plan
      cases plan
      rw [Source.readSize, if_pos rfl]
      rcases locate_source source with ⟨mmc, -⟩ | ⟨-, small⟩
      · exact absurd mmc other
      · exact small

lemma Device.unit_bytes (device : deviceOf ft = some dev) (other : ft ≠ .mmcFlash) :
    dev.unit b = 1 := by
  cases dev with
  | nand | nor => rfl
  | emmc => exact absurd (mmc_of_device device) other

lemma request_size {ft' : SmemBoot} {off : Nat}
    (request : readRequest b ft name 0 false = some ((ft', off, k, layout), size)) (device : deviceOf ft' = some dev) :
    size = k * dev.unit b % 2 ^ 32 := by
  rw [readRequest, Bool.false_and, if_neg Bool.false_ne_true] at request
  split at request
  · obtain ⟨s, source, eq⟩ := Option.bind_eq_some_iff.mp request
    cases eq
    obtain ⟨other, small⟩ := fullSource_size source
    rw [Device.unit_bytes device other, Nat.mul_one, if_neg (by simp), Nat.mod_eq_of_lt small]
  · cases source : locate b ft name with
    | exit | fail =>
      rw [source] at request
      cases request
    | source s =>
      rw [source] at request
      cases request
      rw [Source.readSize, if_pos rfl, Source.byteSize]
      rcases locate_source source with ⟨mmc, d, disk, known⟩ | ⟨other, small⟩
      · rw [mmc] at device ⊢
        cases device
        simp only [known, Device.unit, disk]
      · rw [Device.unit_bytes device other, Nat.mul_one, Nat.mod_eq_of_lt small]
        split
        · rename_i mmc _
          exact absurd mmc other
        · rfl

lemma flashread_area {out : Nat × Nat} (done : (flashreadPartition b io name addr 0 false w).1 = some out) :
    ∃ a, wholeArea b (w.flashTypeNew.getD b.flashType) name false = some a ∧
      (a.Good b → (flashreadPartition b io name addr 0 false w).2.ram.read addr out.2 = (a.cells b).map w.byte) := by
  obtain ⟨off, size⟩ := out
  obtain ⟨ft', k, layout, cs, request, line, result⟩ := flashread_iff.mp (Prod.ext done rfl)
  obtain ⟨dev, device, length, run⟩ := readFromFlash_held line (congrArg Prod.fst result)
  obtain rfl := request_size request device
  have plan := readRequest_false.symm.trans (congrArg (Option.map Prod.fst) request)
  refine ⟨.row dev (off * dev.unit b) (k * dev.unit b % 2 ^ 32), ?_, fun good => ?_⟩
  · rw [wholeArea, if_neg Bool.false_ne_true]
    simp only [plan, device, Option.map_some]
  have nothing (empty : held b w dev off k = []) :
      held b w dev off k = rowBytes w dev (off * dev.unit b) (k * dev.unit b) := by
    rw [← length, empty]
    rfl
  have cells : held b w dev off k = rowBytes w dev (off * dev.unit b) (k * dev.unit b) := by
    cases dev with
    | nand =>
      have small := readPlan_bytes plan (by rintro rfl; cases device)
      cases chip : b.nand with
      | none => exact nothing (by simp only [held, chip])
      | some c =>
        have clean : ∀ x ∈ List.range' off k, c.bad (x / c.erasesize) = false := by
          intro x mem
          refine good c chip x ?_
          rw [Area.cells, Device.unit, Nat.mul_one, Nat.mul_one, Nat.mod_eq_of_lt small]
          exact List.mem_map_of_mem mem
        simp only [held, chip, Chip.moved, if_pos clean, rowBytes_read, World.cells, Device.unit, Nat.mul_one, Chip.map_range']
    | emmc =>
      cases disk : b.emmc with
      | none => exact nothing (by simp only [held, disk])
      | some d => simp only [held, disk, Device.unit, rowBytes_read, World.cells]
    | nor =>
      rw [rowBytes_read, Device.unit, Nat.mul_one, Nat.mul_one]
      rfl
  rw [show (flashreadPartition b io name addr 0 false w).2 = _ from (congrArg Prod.snd result).symm.trans run]
  simp only
  rw [Mem.read_write_take _ _ (by rw [length]; exact Nat.mod_le _ _), cells]
  rw [Area.cells, rowBytes, ← List.map_take, ← List.map_take, List.take_range'_of_length_ge (Nat.mod_le _ _)]

lemma rawReadSize_whole (chip : b.nand = some c) (whole : rawReadSize b 0 = some size) :
    size = c.size / c.writesize * (c.writesize + c.oobsize) ∧ size < 2 ^ 32 := by
  have pos : c.writesize ≠ 0 := Nat.ne_of_gt c.writesize_pos
  simp only [rawReadSize, Board.nandWritesize, Board.nandOobsize, Board.nandSize, chip, if_pos pos, ne_eq,
    not_true_eq_false, false_and, if_false, Nat.mul_mod_left, Nat.sub_zero] at whole
  split at whole
  · cases whole
  rename_i fits
  split at whole
  · cases whole
  · cases whole
    exact ⟨rfl, by omega⟩

lemma readFromFlash_raw {cs : List Cmd} (chip : b.nand = some c)
    (fits : pages * (c.writesize + c.oobsize) < 2 ^ 32)
    (line : readFromFlash b .nandFlash addr 0 (pages * (c.writesize + c.oobsize)) .default true = some cs) :
    cs = [.nandDevice, .nandReadRaw addr 0 pages] := by
  have pos : 0 < c.writesize + c.oobsize := Nat.add_pos_left c.writesize_pos _
  simp only [readFromFlash, Board.nandWritesize, Board.nandOobsize, chip, if_true, ne_eq, not_true_eq_false, if_false,
    if_pos (Nat.ne_of_gt pos)] at line
  generalize c.writesize + c.oobsize = page at *
  by_cases lost : 2 ^ 32 ≤ pages * page + page - 1
  · have low : pages * page + page - 1 = 2 ^ 32 + (pages * page + page - 1 - 2 ^ 32) := by omega
    have below : pages * page + page - 1 - 2 ^ 32 < page := by omega
    rw [low, Nat.add_mod_left, if_pos (Nat.div_eq_of_lt (Nat.lt_of_le_of_lt (Nat.mod_le _ _) below))] at line
    cases line
  · have count : (pages * page + page - 1) % 2 ^ 32 / page = pages := by
      rw [Nat.mod_eq_of_lt (by omega), Nat.add_sub_assoc pos, Nat.mul_comm, Nat.mul_add_div pos,
        Nat.div_eq_of_lt (by omega), Nat.add_zero]
    rw [count] at line
    split at line
    · cases line
    · cases line
      rfl

lemma readRaw_true {off : Nat} (chip : b.nand = some c)
    (ok : (runCommand b io [.nandDevice, .nandReadRaw addr off pages] w).1 = true) :
    (runCommand b io [.nandDevice, .nandReadRaw addr off pages] w).2.ram = w.ram.write addr (c.rawAccess w off pages) := by
  have chosen := runCommand_quiet_true [.nandDevice] (by simp [Cmd.Quiet]) w ok
  rw [List.singleton_append] at chosen
  rw [chosen] at ok ⊢
  obtain ⟨done, last⟩ := runCommand_cons_true ok
  rw [last, runCommand]
  simp only [effect, chip] at done ⊢
  split at done
  · cases done
  · rename_i inside
    rw [if_neg inside]
    rfl

lemma flashread_raw {out : Nat × Nat} (done : (flashreadPartition b io name addr 0 true w).1 = some out) :
    name = nandFull ∧ ∃ c, b.nand = some c ∧ out.2 = c.size / c.writesize * (c.writesize + c.oobsize) ∧
      out.2 < 2 ^ 32 ∧ (flashreadPartition b io name addr 0 true w).2.ram =
        w.ram.write addr (c.rawAccess w 0 (c.size / c.writesize)) := by
  obtain ⟨off, size⟩ := out
  obtain ⟨ft', k, layout, cs, request, line, result⟩ := flashread_iff.mp (Prod.ext done rfl)
  rw [readRequest] at request
  by_cases full : name = nandFull
  · subst full
    refine ⟨rfl, ?_⟩
    rw [if_neg (by simp), if_pos (.inr rfl), fullSource, if_neg (by decide)] at request
    cases chip : b.nand with
    | none =>
      simp only [Board.nandSize, chip, if_true] at request
      cases request
    | some c =>
      simp only [Board.nandSize, chip, if_neg (Nat.ne_of_gt c.size_pos), Option.bind_some, if_true] at request
      obtain ⟨k, whole, eq⟩ := Option.map_eq_some_iff.mp request
      cases eq
      obtain ⟨rfl, fits⟩ := rawReadSize_whole chip whole
      obtain rfl := readFromFlash_raw chip fits line
      refine ⟨c, rfl, rfl, fits, ?_⟩
      rw [← readRaw_true chip (congrArg Prod.fst result), result]
  · rw [if_pos (by simp [full])] at request
    cases request

lemma rawAccess_good (chip : b.nand = some c) (good : (Area.raw pages).Good b)
    (low : pages * (c.writesize + c.oobsize) < 2 ^ 32) :
    c.rawAccess w 0 pages = ((Area.raw pages).cells b).map w.byte := by
  simp only [Area.cells, chip, Chip.rawAccess, Nat.zero_add]
  rw [List.map_flatMap]
  refine List.flatMap_congr fun p mem => ?_
  have lt := List.mem_range.mp mem
  have first : p * c.writesize < 2 ^ 32 := by
    have : p * c.writesize ≤ pages * (c.writesize + c.oobsize) :=
      Nat.mul_le_mul (Nat.le_of_lt lt) (Nat.le_add_right _ _)
    omega
  have cell : Cell.nand (p * c.writesize) ∈ (Area.raw pages).cells b := by
    simp only [Area.cells, chip]
    refine List.mem_flatMap.mpr ⟨p, mem, List.mem_append_left _ (List.mem_map_of_mem ?_)⟩
    exact List.mem_range'_1.mpr ⟨Nat.le_refl _, Nat.lt_add_of_pos_right c.writesize_pos⟩
  rw [Chip.seen_eq first, good c chip _ cell, if_neg Bool.false_ne_true, rawPage_eq]

lemma whole_area {out : Nat × Nat} (done : (flashreadPartition b io name addr 0 raw w).1 = some out) :
    ∃ a, wholeArea b (w.flashTypeNew.getD b.flashType) name raw = some a ∧
      (a.Good b → (flashreadPartition b io name addr 0 raw w).2.ram.read addr out.2 = (a.cells b).map w.byte) := by
  cases raw with
  | false => exact flashread_area done
  | true =>
    obtain ⟨full, c, chip, size, low, ram⟩ := flashread_raw done
    refine ⟨.raw (c.size / c.writesize), ?_, fun good => ?_⟩
    · rw [wholeArea, if_pos rfl, if_pos full]
      simp only [Board.nandSize, Board.nandWritesize, chip]
    have read := Mem.read_write w.ram addr (((Area.raw (c.size / c.writesize)).cells b).map w.byte)
    have length : ((Area.raw (c.size / c.writesize)).cells b).length = out.2 := by
      simp only [Area.cells, chip, List.range_eq_range', size]
      exact length_pagesFrom c 0 _
    rw [List.length_map, length] at read
    rw [ram, rawAccess_good chip good (by rw [← size]; exact low), read]

lemma static_readFromFlash_raw {off : Nat} {cs : List Cmd}
    (line : readFromFlash b ft addr off k layout raw = some cs) : ∀ cmd ∈ cs, cmd.Static := by
  cases raw with
  | false => exact static_readFromFlash line
  | true =>
    -- beside the line that chooses the NAND there is only the raw read
    have chosen : ∀ cmd ∈ ([.nandDevice] ++ if layout ≠ .default then [.ipqNand layout] else []), Cmd.Static cmd := by
      intro cmd mem
      rcases quiet_line layout cmd mem with rfl | ⟨layout, rfl⟩ | rfl <;> trivial
    have nand {pages : Nat} {cs : List Cmd} (line : (if pages = 0 then none else
        some (([.nandDevice] ++ if layout ≠ .default then [.ipqNand layout] else []) ++
          [Cmd.nandReadRaw addr off pages])) = some cs) : ∀ cmd ∈ cs, cmd.Static := by
      split at line
      · cases line
      cases line
      intro cmd mem
      rcases List.mem_append.mp mem with mem | last
      · exact chosen cmd mem
      · obtain rfl := List.mem_singleton.mp last
        trivial
    cases ft <;> simp only [readFromFlash, if_true] at line
    case nandFlash | qspiNandFlash => exact nand line
    all_goals
      cases line
      try simp [Cmd.Static]

lemma whole_even {w' : World} (even : Even w w') :
    (flashreadPartition b io name addr 0 raw w').1 = (flashreadPartition b io name addr 0 raw w).1 := by
  ext out
  have moved {u u' : World} (even : Even u u') (read : (flashreadPartition b io name addr 0 raw u).1 = some out) :
      (flashreadPartition b io name addr 0 raw u').1 = some out := by
    obtain ⟨ft', k, layout, cs, request, line, run⟩ := flashread_iff.mp (Prod.ext read rfl)
    rw [← even.override] at request
    have same := (@runCommand_even b io _ _ cs (static_readFromFlash_raw line) even).1
    rw [run] at same
    have run' : runCommand b io cs u' = (true, (runCommand b io cs u').2) := Prod.ext same rfl
    exact congrArg Prod.fst (flashread_iff.mpr ⟨ft', k, layout, cs, request, line, run'⟩)
  exact ⟨moved ⟨even.log.symm, even.override.symm⟩, moved even⟩

end Whole

/-! ### Chunks against the whole -/

section Runs

variable {b : Board} {name : Bytes} {raw : Bool} {limit : Nat} {r : ChunkRun} {a : Area}

lemma length_chunked_le (b : Board) (limit : Nat) (a : Area) : (a.chunked b limit).length ≤ (a.cells b).length := by
  cases a with
  | row dev start len =>
    simp only [Area.chunked, Area.cells, List.length_map, List.length_range']
    exact reached_le
  | raw pages => exact Nat.le_refl _

lemma chunks_done (small : limit < 2 ^ 32)
    (area : chunkArea b (r.start.flashTypeNew.getD b.flashType) name raw = some a) :
    r.chunks b name raw limit = .failed ∨ r.chunks b name raw limit = .done ((a.chunked b limit).map r.start.byte) := by
  obtain ⟨Inv, serves, init⟩ := @serves_area b r.io' name r.addr' limit raw r.start a small area
  have enough : ((a.chunked b limit).map r.start.byte).length < 0 + ((a.cells b).length + 1) := by
    have := length_chunked_le b limit a
    rw [List.length_map]
    omega
  have all := Chunks.collect_eq serves init (Nat.zero_le _) enough
  rw [List.take_zero] at all
  simp only [ChunkRun.chunks, area]
  exact all

lemma chunks_failed (area : chunkArea b (r.start.flashTypeNew.getD b.flashType) name raw = none) :
    r.chunks b name raw limit = .failed := by
  have call : (chunkCall b r.io' name r.addr' limit raw ⟨r.start, emmcCacheInvalidate⟩ 0).1 = none := by
    rw [chunkArea] at area
    simp only [chunkCall, flashreadPartitionChunk, ChunkReader.read]
    cases reader : chunkReader b (r.start.flashTypeNew.getD b.flashType) name raw with
    | none => rfl
    | some kind =>
      rw [reader] at area
      cases kind with
      | raw =>
        have missing := Option.map_eq_none_iff.mp area
        simp only [nandRawChunkRead, missing]
        rfl
      | nand =>
        cases chip : b.nand with
        | none =>
          simp only [nandChunkRead, chip]
          rfl
        | some c =>
          rw [chip] at area
          have missing := Option.map_eq_none_iff.mp area
          simp only [nandChunkRead, chip, missing]
          rfl
      | emmc =>
        cases disk : b.emmc with
        | none =>
          simp only [emmcChunkRead, disk]
          rfl
        | some d =>
          have missing : (emmcPart d name).2 = 0 := by
            by_contra present
            simp only [disk, Option.bind_some, if_neg present] at area
            cases area
          simp [emmcChunkRead, disk, missing, emmcCacheInvalidate, ChunkReply.failure]
      | sf =>
        have missing := Option.map_eq_none_iff.mp area
        simp only [sfChunkRead, missing]
        rfl
  rw [ChunkRun.chunks, area]
  simp only [Chunks.collect, call]

lemma eq_of_map_eq {l l' : List Cell} (same : ∀ f : Cell → UInt8, l.map f = l'.map f) : l = l' := by
  have length : l.length = l'.length := by
    have := congrArg List.length (same fun _ => 0)
    rwa [List.length_map, List.length_map] at this
  refine List.ext_getElem length fun i inside inside' => ?_
  have at_i := congrArg (fun t => t[i]?) (same fun c => if c = l[i] then 1 else 0)
  simp only [List.getElem?_map, List.getElem?_eq_getElem inside, List.getElem?_eq_getElem inside', Option.map_some,
    if_true, Option.some.injEq] at at_i
  split at at_i
  · rename_i eq
    exact eq.symm
  · cases at_i

def World.holding (w : World) (f : Cell → UInt8) : World :=
  { w with nand := fun x => f (.nand x), oob := fun x => f (.oob x), emmc := fun x => f (.emmc x), nor := fun x => f (.nor x) }

lemma byte_holding (w : World) (f : Cell → UInt8) : (w.holding f).byte = f := by
  funext c
  cases c <;> rfl

def ChunkRun.holding (r : ChunkRun) (f : Cell → UInt8) : ChunkRun := { r with start := r.start.holding f }

lemma ChunkRun.Succeeds.holding (succeeds : r.Succeeds b name raw limit) (f : Cell → UInt8) :
    (r.holding f).Succeeds b name raw limit := by
  have even : Even r.start (r.start.holding f) := ⟨rfl, rfl⟩
  refine ⟨?_, fun failed => succeeds.2 ?_⟩
  · rw [ChunkRun.whole, ChunkRun.holding, whole_even even]
    exact succeeds.1
  · have alike : Alike ⟨r.start, emmcCacheInvalidate⟩ ⟨r.start.holding f, emmcCacheInvalidate⟩ := ⟨even, rfl⟩
    exact Chunks.collect_alike (R := Alike) (fun off alike => chunkCall_alike off alike) alike 0 [] [] failed

lemma ChunkRun.Succeeds.bytes (succeeds : r.Succeeds b name raw limit)
    (good : ∀ a, wholeArea b (r.start.flashTypeNew.getD b.flashType) name raw = some a → a.Good b) :
    ∃ a, wholeArea b (r.start.flashTypeNew.getD b.flashType) name raw = some a ∧
      r.wholeBytes b name raw = some ((a.cells b).map r.start.byte) := by
  obtain ⟨out, done⟩ := Option.isSome_iff_exists.mp succeeds.1
  obtain ⟨a, area, bytes⟩ := whole_area done
  refine ⟨a, area, ?_⟩
  rw [ChunkRun.wholeBytes, done, Option.map_some]
  exact congrArg some (bytes (good a area))

end Runs

/-- The chunks of a name are the bytes of the whole read in every run in which all calls succeed exactly if,
as far as such a run exists, the two read the same cells. -/
theorem chunks_agree_iff (b : Board) (override : Option SmemBoot) (name : Bytes) (raw : Bool) (limit : Nat)
    (small : limit < 2 ^ 32)
    (good : ∀ a, wholeArea b (override.getD b.flashType) name raw = some a → a.Good b) :
    (∀ r : ChunkRun, r.start.flashTypeNew = override → r.Succeeds b name raw limit → r.Agrees b name raw limit) ↔
      ((∃ r : ChunkRun, r.start.flashTypeNew = override ∧ r.Succeeds b name raw limit) →
        ∃ a a', wholeArea b (override.getD b.flashType) name raw = some a ∧
          chunkArea b (override.getD b.flashType) name raw = some a' ∧ a'.chunked b limit = a.cells b) := by
  constructor
  · rintro all ⟨r, rfl, succeeds⟩
    obtain ⟨a, area, -⟩ := succeeds.bytes good
    cases area' : chunkArea b (r.start.flashTypeNew.getD b.flashType) name raw with
    | none => exact absurd (chunks_failed area') succeeds.2
    | some a' =>
      refine ⟨a, a', area, rfl, eq_of_map_eq fun f => ?_⟩
      have succeeds' := succeeds.holding f
      obtain ⟨data, whole, chunks⟩ := all (r.holding f) rfl succeeds'
      obtain ⟨a₁, area₁, bytes⟩ := succeeds'.bytes good
      cases area₁.symm.trans area
      have done := (chunks_done (r := r.holding f) small area').resolve_left succeeds'.2
      rw [bytes, Option.some.injEq] at whole
      rw [done, Chunks.Outcome.done.injEq] at chunks
      have held : (r.holding f).start.byte = f := byte_holding r.start f
      rw [held] at whole chunks
      rw [whole, chunks]
  · rintro same r rfl succeeds
    obtain ⟨a, a', area, area', cells⟩ := same ⟨r, rfl, succeeds⟩
    obtain ⟨a₁, area₁, bytes⟩ := succeeds.bytes good
    cases area₁.symm.trans area
    refine ⟨_, bytes, ?_⟩
    rw [← cells]
    exact (chunks_done small area').resolve_left succeeds.2

/-- The kernel of a NAND without bad blocks, read in chunks of 5 bytes. -/
theorem chunks_agree_pairBoard :
    let r : ChunkRun := ⟨sound, sound, 0, 32, idle⟩
    r.Succeeds (pairBoard fun _ => false) (bytes "kernel") false 5 ∧
      r.Agrees (pairBoard fun _ => false) (bytes "kernel") false 5 := by
  intro r
  have succeeds : r.Succeeds (pairBoard fun _ => false) (bytes "kernel") false 5 :=
    ⟨by decide +kernel, by decide +kernel⟩
  exact ⟨succeeds, (chunks_agree_iff (pairBoard fun _ => false) none (bytes "kernel") false 5 (by decide)
    (by
      intro a area c chip x mem
      cases chip
      rfl)).mpr
    (fun _ => ⟨.row .nand 8 16, .row .nand 8 16, by decide +kernel, by decide +kernel, by decide +kernel⟩)
    r rfl succeeds⟩

def rootfsDisk : BlockDev := ⟨⟨512, 128, Gpt.sector_dvd, by decide⟩, [some ⟨bytes "rootfs", 40, 40⟩]⟩

def twoRootfsBoard : Board :=
  { markerBoard with
    secondary := .mmcFlash
    table := [.entry (bytes "rootfs") 1 1 0xffff]
    emmc := some rootfsDisk }

/-- `flashread` reads the rootfs of the NOR, and the chunks are those of the eMMC. -/
theorem chunks_leave_device :
    let r : ChunkRun := ⟨sound, sound, 0, 4096, idle⟩
    r.Succeeds twoRootfsBoard (bytes "rootfs") false 512 ∧
    wholeArea twoRootfsBoard .spiFlash (bytes "rootfs") false = some (.row .nor 4096 4096) ∧
    r.chunks twoRootfsBoard (bytes "rootfs") false 512 = .done (List.replicate 512 0) ∧
    ¬ r.Agrees twoRootfsBoard (bytes "rootfs") false 512 := by
  intro r
  have chunks : r.chunks twoRootfsBoard (bytes "rootfs") false 512 = .done (List.replicate 512 0) := by decide +kernel
  have whole : (r.whole twoRootfsBoard (bytes "rootfs") false).1 = some (4096, 4096) := by decide +kernel
  refine ⟨⟨by rw [whole]; rfl, by rw [chunks]; decide⟩, by decide +kernel, chunks, ?_⟩
  rintro ⟨data, bytes, done⟩
  rw [ChunkRun.wholeBytes, whole, Option.map_some, Option.some.injEq] at bytes
  rw [chunks, Chunks.Outcome.done.injEq] at done
  have length := congrArg List.length (bytes.trans done.symm)
  rw [Mem.length_read, List.length_replicate] at length
  exact absurd length (by decide)

end ResQBoot.Flash
