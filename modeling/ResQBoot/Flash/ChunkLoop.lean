import Mathlib.Algebra.Order.Group.Nat
import ResQBoot.Flash.Chunk
import ResQBoot.Flash.NandBounds

/-!
# The loop of a NAND chunk

The NAND part of `flashread_partition_chunk` with the variables of its loop in their widths. `Reached` is its invariant:
the first `k` bytes of the chunk stand in the buffer, and the blocks they lie in are good.
-/

namespace ResQBoot.Flash

structure ChunkVars where
  left : Nat
  cur : Nat
  buf : Nat
  ram : Mem
  asked : List (Nat × Nat)

inductive ChunkPass where
  | next (r : ChunkVars)
  | stop (r : ChunkVars) (detail : Option Bytes)

namespace Chip

variable (c : Chip) (io : Io) (nand : Mem) (endOffset : Nat)

def chunkPass (r : ChunkVars) : ChunkPass :=
  if r.left = 0 then .stop r none
  else
    let blockOffset := r.cur &&& (c.erasesize - 1)
    if endOffset ≤ r.cur then .stop r none
    else
      let block := r.cur &&& (2 ^ 32 - c.erasesize)
      if c.size < block then .stop r (some (bytes "bad-block query 0x" ++ hexadecimal block))
      else if c.bad (block / c.erasesize) then .stop r (some (bytes "bad block 0x" ++ hexadecimal block))
      else
        let readLength := if r.left < c.erasesize - blockOffset then r.left else c.erasesize - blockOffset
        let asked := r.asked ++ [(r.cur, readLength)]
        if c.size < r.cur + readLength ∨ io.reads r.cur = false then
          .stop { r with asked := asked } (some (bytes "read error 0x" ++ hexadecimal r.cur))
        else
          .next ⟨r.left - readLength, (r.cur + readLength) % 2 ^ 64, r.buf + readLength,
            r.ram.write r.buf (nand.read r.cur readLength), asked⟩

def chunkLoop : Nat → ChunkVars → Option (ChunkVars × Option Bytes)
  | 0, _ => none
  | fuel + 1, r =>
    match c.chunkPass io nand endOffset r with
    | .next r => chunkLoop fuel r
    | .stop r detail => some (r, detail)

end Chip

def ChunkVars.answer (userOffset size : Nat) (r : ChunkVars) : Option Bytes → ChunkReply × Mem × List (Nat × Nat)
  | some text => (.failureAt text, r.ram, r.asked)
  | none => (⟨some (userOffset % 2 ^ 32, size), some []⟩, r.ram, r.asked)

def nandChunkRun (fuel : Nat) (b : Board) (io : Io) (name : Bytes) (addr userOffset userSize : Nat) (w : World) :
    Option (ChunkReply × Mem × List (Nat × Nat)) :=
  match b.nand with
  | none => some (.failureAt (bytes "nand unavailable"), w.ram, [])
  | some c =>
    match nandPart b c name with
    | none => some (.failure, w.ram, [])
    | some (base, total) =>
      if total = 0 then some (.failure, w.ram, [])
      else
        let remain := if userOffset < total then total - userOffset else 0
        let size := chunkSize userSize remain
        let start : ChunkVars := ⟨size, (base + userOffset) % 2 ^ 64, addr, w.ram, []⟩
        (c.chunkLoop io w.nand ((base + userOffset + size) % 2 ^ 64) fuel start).map fun result =>
          result.1.answer userOffset size result.2

/-! ## The masks -/

namespace Chip

variable (c : Chip)

lemma blockOffset_eq (x : Nat) : x &&& (c.erasesize - 1) = x % c.erasesize := by
  obtain ⟨k, -, eq⟩ := c.block
  rw [eq]
  exact Nat.and_two_pow_sub_one_eq_mod x k

lemma mask_eq (x : Nat) : x &&& (2 ^ 32 - c.erasesize) = x / c.erasesize * c.erasesize % 2 ^ 32 := by
  obtain ⟨k, lt, eq⟩ := c.block
  have width : 2 ^ 32 = 2 ^ (32 - k) * 2 ^ k := by
    rw [← Nat.pow_add, Nat.sub_add_cancel (Nat.le_of_lt lt)]
  rw [eq, and_high x k (Nat.le_of_lt lt), width, Nat.mul_mod_mul_right, Nat.mod_mul_left_div_self]

lemma block_eq {x : Nat} (low : x < 2 ^ 32) : x &&& (2 ^ 32 - c.erasesize) = x / c.erasesize * c.erasesize := by
  rw [mask_eq, Nat.mod_eq_of_lt (Nat.lt_of_le_of_lt (Nat.div_mul_le_self x _) low)]

structure ChunkGood (io : Io) (start n : Nat) : Prop where
  blocks : ∀ x, start ≤ x → x < start + n → c.bad (x / c.erasesize) = false
  reads : ∀ x, start ≤ x → x < start + n → x = start ∨ c.erasesize ∣ x → io.reads x = true

end Chip

/-! ## The invariant -/

def ChunkVars.Within (start n : Nat) (r : ChunkVars) : Prop :=
  ∀ q ∈ r.asked, start ≤ q.1 ∧ q.1 < start + n ∧ q.1 + q.2 ≤ start + n

structure Reached (c : Chip) (io : Io) (nand ram : Mem) (addr start n k : Nat) (r : ChunkVars) : Prop where
  le : k ≤ n
  left : r.left = n - k
  cur : r.cur = start + k
  buf : r.buf = addr + k
  ram_eq : r.ram = ram.write addr (nand.read start k)
  good : c.ChunkGood io start k
  edge : k = 0 ∨ c.erasesize ∣ start + k ∨ k = n
  inside : r.Within start n

structure Ended (c : Chip) (io : Io) (nand ram : Mem) (addr start n : Nat) (r : ChunkVars) (detail : Option Bytes) :
    Prop where
  fails : detail.isSome = true ↔ ¬ c.ChunkGood io start n
  stored : c.ChunkGood io start n → r.ram = ram.write addr (nand.read start n)
  inside : r.Within start n

section

variable {c : Chip} {io : Io} {nand ram : Mem} {addr start n k : Nat} {r : ChunkVars}

lemma Chip.ChunkGood.extend (good : c.ChunkGood io start k) {len : Nat}
    (short : len ≤ c.erasesize - (start + k) % c.erasesize)
    (fine : c.bad ((start + k) / c.erasesize) = false) (reads : io.reads (start + k) = true) :
    c.ChunkGood io start (k + len) := by
  have pos := c.erasesize_pos
  -- everything read now lies in the block of its first byte
  have within (x : Nat) (ge : start + k ≤ x) (lt : x < start + (k + len)) :
      x / c.erasesize = (start + k) / c.erasesize := by
    have split := Nat.div_add_mod (start + k) c.erasesize
    have small := Nat.mod_lt (start + k) pos
    apply Nat.div_eq_of_lt_le
    · rw [Nat.mul_comm]
      omega
    · rw [Nat.add_mul, Nat.one_mul, Nat.mul_comm]
      omega
  constructor
  · intro x ge lt
    rcases Nat.lt_or_ge x (start + k) with old | new
    · exact good.blocks x ge old
    · rw [within x new lt]
      exact fine
  · intro x ge lt place
    rcases Nat.lt_or_ge x (start + k) with old | new
    · exact good.reads x ge old place
    rcases Nat.eq_or_lt_of_le new with same | behind
    · rw [← same]
      exact reads
    exfalso
    rcases place with first | aligned
    · omega
    have block := within x new lt
    have split := Nat.div_add_mod (start + k) c.erasesize
    have whole := Nat.mul_div_cancel' aligned
    rw [block] at whole
    omega

lemma Reached.pass (h : Reached c io nand ram addr start n k r) (lt : k < n) (fits : start + n ≤ c.size)
    (small : c.size < 2 ^ 32) :
    (∃ k' r', k < k' ∧ c.chunkPass io nand (start + n) r = .next r' ∧ Reached c io nand ram addr start n k' r') ∨
    ∃ r' text, c.chunkPass io nand (start + n) r = .stop r' (some text) ∧
      Ended c io nand ram addr start n r' (some text) := by
  have low : start + k < 2 ^ 32 := by omega
  have more : r.left ≠ 0 := by rw [h.left]; omega
  have before : ¬ start + n ≤ start + k := by omega
  have atBlock := Nat.div_mul_le_self (start + k) c.erasesize
  have onChip : ¬ c.size < (start + k) / c.erasesize * c.erasesize := by omega
  -- a failure shows a bad block or a read that fails, so that the chunk is not good
  have ends (r' : ChunkVars) (text : Bytes) (inside : r'.Within start n) (wrong : ¬ c.ChunkGood io start n) :
      Ended c io nand ram addr start n r' (some text) :=
    ⟨iff_of_true rfl wrong, fun good => absurd good wrong, inside⟩
  have pass := Chip.chunkPass.eq_def c io nand (start + n) r
  dsimp only at pass
  rw [if_neg more, h.cur, if_neg before, c.block_eq low, if_neg onChip,
    Nat.mul_div_cancel _ c.erasesize_pos, c.blockOffset_eq, h.left] at pass
  rcases Bool.eq_false_or_eq_true (c.bad ((start + k) / c.erasesize)) with bad | fine
  · right
    rw [if_pos bad] at pass
    refine ⟨r, _, pass, ends _ _ h.inside ?_⟩
    intro good
    rw [good.blocks (start + k) (by omega) (by omega)] at bad
    cases bad
  · rw [fine, if_neg Bool.false_ne_true] at pass
    obtain ⟨len, length⟩ : ∃ len, len = if n - k < c.erasesize - (start + k) % c.erasesize then n - k
        else c.erasesize - (start + k) % c.erasesize := ⟨_, rfl⟩
    rw [← length] at pass
    have room := Nat.mod_lt (start + k) c.erasesize_pos
    have size : 0 < len ∧ len ≤ n - k ∧ len ≤ c.erasesize - (start + k) % c.erasesize ∧
        (len = n - k ∨ len = c.erasesize - (start + k) % c.erasesize) := by
      rw [length]
      split <;> omega
    obtain ⟨some_, left, short, whole⟩ := size
    have inside (q : Nat × Nat) (mem : q ∈ r.asked ++ [(start + k, len)]) :
        start ≤ q.1 ∧ q.1 < start + n ∧ q.1 + q.2 ≤ start + n := by
      rcases List.mem_append.mp mem with old | new
      · exact h.inside q old
      · rw [List.mem_singleton.mp new]
        dsimp only
        omega
    rcases Bool.eq_false_or_eq_true (io.reads (start + k)) with reads | failing
    · left
      have sound : ¬ (c.size < start + k + len ∨ io.reads (start + k) = false) := by
        rw [reads]
        rintro (behind | failed)
        · omega
        · cases failed
      rw [if_neg sound] at pass
      refine ⟨k + len, _, by omega, pass, ?_⟩
      refine ⟨by omega, by dsimp only; omega, ?_, ?_, ?_, h.good.extend short fine reads, ?_, inside⟩
      · dsimp only
        rw [Nat.mod_eq_of_lt (by omega), Nat.add_assoc]
      · dsimp only
        rw [h.buf, Nat.add_assoc]
      · have behind : addr + k = addr + (nand.read start k).length := by rw [Mem.length_read]
        dsimp only
        rw [h.buf, h.ram_eq, behind, Mem.write_append, ← Mem.read_add]
      · rcases whole with all | block
        · exact .inr (.inr (by omega))
        · refine .inr (.inl ⟨(start + k) / c.erasesize + 1, ?_⟩)
          have split := Nat.div_add_mod (start + k) c.erasesize
          rw [Nat.mul_add, Nat.mul_one]
          omega
    · right
      rw [if_pos (.inr failing)] at pass
      refine ⟨_, _, pass, ends _ _ inside ?_⟩
      intro good
      have place : start + k = start ∨ c.erasesize ∣ start + k := by
        rcases h.edge with first | aligned | last
        · exact .inl (by omega)
        · exact .inr aligned
        · omega
      rw [good.reads (start + k) (by omega) (by omega) place] at failing
      cases failing

lemma Reached.loop (h : Reached c io nand ram addr start n k r) (fits : start + n ≤ c.size) (small : c.size < 2 ^ 32) :
    ∃ r' detail, (∀ fuel, n - k < fuel → c.chunkLoop io nand (start + n) fuel r = some (r', detail)) ∧
      Ended c io nand ram addr start n r' detail := by
  obtain ⟨m, bound⟩ : ∃ m, n - k = m := ⟨_, rfl⟩
  induction m using Nat.strong_induction_on generalizing k r with
  | _ m ih =>
    rcases Nat.eq_or_lt_of_le h.le with all | lt
    · subst all
      have done : c.chunkPass io nand (start + k) r = .stop r none := by
        rw [Chip.chunkPass, if_pos (by rw [h.left, Nat.sub_self])]
      refine ⟨r, none, ?_, ⟨iff_of_false Bool.false_ne_true (not_not_intro h.good), fun _ => h.ram_eq, h.inside⟩⟩
      intro fuel enough
      cases fuel with
      | zero => omega
      | succ fuel => rw [Chip.chunkLoop, done]
    · rcases h.pass lt fits small with ⟨k', r', further, pass, reached⟩ | ⟨r', text, pass, ended⟩
      · have shorter : n - k' < m := by
          have := reached.le
          omega
        obtain ⟨r'', detail, loop, ended⟩ := ih (n - k') shorter reached rfl
        refine ⟨r'', detail, ?_, ended⟩
        intro fuel enough
        cases fuel with
        | zero => omega
        | succ fuel =>
          rw [Chip.chunkLoop, pass]
          exact loop fuel (by omega)
      · refine ⟨r', some text, ?_, ended⟩
        intro fuel enough
        cases fuel with
        | zero => omega
        | succ fuel => rw [Chip.chunkLoop, pass]

lemma chunkLoop_empty (endOffset fuel : Nat) (none_ : r.left = 0) :
    c.chunkLoop io nand endOffset (fuel + 1) r = some (r, none) := by
  rw [Chip.chunkLoop, Chip.chunkPass, if_pos none_]

lemma Chip.ChunkGood.empty : c.ChunkGood io start 0 :=
  ⟨fun _ ge lt => absurd ge (Nat.not_le_of_lt lt), fun _ ge lt => absurd ge (Nat.not_le_of_lt lt)⟩

lemma chunkLoop_ended (io : Io) (nand ram : Mem) (addr : Nat) (small : c.size < 2 ^ 32) (fits : n = 0 ∨ start + n ≤ c.size) :
    ∃ r' detail, (∀ fuel, n < fuel →
        c.chunkLoop io nand ((start + n) % 2 ^ 64) fuel ⟨n, start % 2 ^ 64, addr, ram, []⟩ = some (r', detail)) ∧
      Ended c io nand ram addr start n r' detail := by
  have begun : ram = ram.write addr (nand.read start 0) := by
    rw [Mem.read_zero, Mem.write_nil]
  rcases fits with none_ | fits
  · subst none_
    refine ⟨⟨0, start % 2 ^ 64, addr, ram, []⟩, none, ?_, ?_⟩
    · intro fuel enough
      obtain ⟨fuel, rfl⟩ := Nat.exists_eq_add_of_lt enough
      exact chunkLoop_empty _ _ rfl
    · exact ⟨iff_of_false Bool.false_ne_true (not_not_intro .empty), fun _ => begun, List.forall_mem_nil _⟩
  · rw [Nat.mod_eq_of_lt (by omega), Nat.mod_eq_of_lt (by omega)]
    have reached : Reached c io nand ram addr start n 0 ⟨n, start, addr, ram, []⟩ :=
      ⟨Nat.zero_le n, rfl, rfl, rfl, begun, .empty, .inl rfl, List.forall_mem_nil _⟩
    exact reached.loop fits small

lemma chunkLoop_pieces (c : Chip) (io : Io) (nand : Mem) {m endOffset : Nat} (r : ChunkVars) (enough : r.left ≤ m)
    (last : endOffset = r.cur + r.left) (wide : endOffset < 2 ^ 64) :
    (c.chunkLoop io nand endOffset (m + 1) r).map (fun x => (x.2, x.1.ram)) =
      some ((c.chunkPieces io m r.cur endOffset r.left).1,
        r.ram.write r.buf (Chip.readPieces nand (c.chunkPieces io m r.cur endOffset r.left).2)) := by
  have unread (ram : Mem) (buf : Nat) : ram.write buf (Chip.readPieces nand []) = ram := Mem.write_nil ram buf
  induction m generalizing r with
  | zero => rw [chunkLoop_empty _ _ (Nat.le_zero.mp enough), Chip.chunkPieces, unread, Option.map_some]
  | succ m ih =>
    rw [Chip.chunkLoop, Chip.chunkPass, Chip.chunkPieces]
    dsimp only
    rw [c.mask_eq, c.blockOffset_eq, Chip.seen]
    by_cases done : r.left = 0
    · rw [if_pos done, if_pos (.inl done), unread, Option.map_some]
    have before : ¬ endOffset ≤ r.cur := by omega
    rw [if_neg done, if_neg before, if_neg (not_or.mpr ⟨done, before⟩)]
    by_cases behind : c.size < r.cur / c.erasesize * c.erasesize % 2 ^ 32
    · rw [if_pos behind, if_pos behind, unread, Option.map_some]
    rw [if_neg behind, if_neg behind]
    rcases Bool.eq_false_or_eq_true (c.bad (r.cur / c.erasesize * c.erasesize % 2 ^ 32 / c.erasesize)) with bad | fine
    · rw [if_pos bad, if_pos bad, unread, Option.map_some]
    rw [fine, if_neg Bool.false_ne_true, if_neg Bool.false_ne_true]
    obtain ⟨len, length⟩ : ∃ len, len = min r.left (c.erasesize - r.cur % c.erasesize) := ⟨_, rfl⟩
    have shorter : (if r.left < c.erasesize - r.cur % c.erasesize then r.left
        else c.erasesize - r.cur % c.erasesize) = len := by
      rw [length]
      split <;> omega
    have room := Nat.mod_lt r.cur c.erasesize_pos
    rw [shorter, ← length]
    by_cases refused : c.size < r.cur + len ∨ io.reads r.cur = false
    · have same : (decide (r.cur + len > c.size) || !io.reads r.cur) = true := by
        simpa using refused
      rw [if_pos refused, if_pos same, unread, Option.map_some]
    have same : ¬ (decide (r.cur + len > c.size) || !io.reads r.cur) = true := by
      simpa using refused
    rw [if_neg refused, if_neg same, Nat.mod_eq_of_lt (by omega)]
    have next := ih ⟨r.left - len, r.cur + len, r.buf + len, r.ram.write r.buf (nand.read r.cur len),
      r.asked ++ [(r.cur, len)]⟩ (by dsimp only; omega) (by dsimp only; omega)
    have pieces (ps : List (Nat × Nat)) :
        (r.ram.write r.buf (nand.read r.cur len)).write (r.buf + len) (Chip.readPieces nand ps) =
          r.ram.write r.buf (Chip.readPieces nand ((r.cur, len) :: ps)) := by
      have length_ : r.buf + len = r.buf + (nand.read r.cur len).length := by rw [Mem.length_read]
      rw [length_, Mem.write_append]
      rfl
    dsimp only at next ⊢
    rw [next, pieces]

lemma nandPart_pos {b : Board} {name : Bytes} {base total : Nat} (part : nandPart b c name = some (base, total)) :
    total ≠ 0 := by
  rw [nandPart] at part
  split at part
  · cases part
    exact Nat.ne_of_gt c.size_pos
  split at part
  · cases part
    decide
  · exact of_decide_eq_true (Option.filter_eq_some_iff.mp part).2

/-- The loop with its masks and counters gives the reply of the pieces that the other results speak of, and the same RAM. -/
theorem nandChunkRead_run {b : Board} {name : Bytes} {base total userOffset userSize : Nat} {w : World}
    (chip : b.nand = some c) (part : nandPart b c name = some (base, total))
    (wide : base + userOffset + chunkSize userSize (total - userOffset) < 2 ^ 64) :
    (nandChunkRun (chunkSize userSize (total - userOffset) + 1) b io name addr userOffset userSize w).map
        (fun x => (x.1, x.2.1)) =
      some ((nandChunkRead b io name addr userOffset userSize w).1,
        (nandChunkRead b io name addr userOffset userSize w).2.ram) := by
  have remain : (if userOffset < total then total - userOffset else 0) = total - userOffset := by
    split <;> omega
  obtain ⟨n, size⟩ : ∃ n, chunkSize userSize (total - userOffset) = n := ⟨_, rfl⟩
  rw [size] at wide ⊢
  have loop := chunkLoop_pieces c io w.nand ⟨n, base + userOffset, addr, w.ram, []⟩ (Nat.le_refl n) rfl wide
  rw [nandChunkRun, nandChunkRead, chip]
  dsimp only
  rw [part]
  dsimp only
  rw [if_neg (nandPart_pos part), remain, size, Nat.mod_eq_of_lt wide, Nat.mod_eq_of_lt (by omega)]
  obtain ⟨⟨r, detail⟩, run, result⟩ := Option.map_eq_some_iff.mp loop
  obtain ⟨text, stored⟩ := Prod.mk.inj result
  rw [run, Option.map_some, Option.map_some]
  dsimp only at text stored ⊢
  rw [← text, ← stored]
  cases detail with
  | none | some text => rfl

end

theorem nandChunkRead_run_border : let b := pairBoard fun i => decide (i = 3)
    (nandChunkRun (chunkSize 9 (16 - 4) + 1) b sound (bytes "kernel") 0 4 9 idle).map (fun x => (x.1, x.2.1)) =
      some ((nandChunkRead b sound (bytes "kernel") 0 4 9 idle).1,
        (nandChunkRead b sound (bytes "kernel") 0 4 9 idle).2.ram) := by
  have part : nandPart (pairBoard fun i => decide (i = 3)) (pairChip fun i => decide (i = 3)) (bytes "kernel") =
    some (8, 16) := by decide
  exact nandChunkRead_run rfl part (by decide)

/-- A chunk of a partition that lies on a chip below 4 GiB, whose erase size is a power of two by `Chip.block`. A size
of 0 asks for all that follows the offset. The loop ends; the call fails just when a block of the chunk is bad or a read
of it fails, and otherwise the chunk stands at the load address; nothing is read outside the partition. -/
theorem nand_chunk_reads (b : Board) (io : Io) (name : Bytes) (addr userOffset userSize : Nat) (w : World) (c : Chip)
    (base total : Nat) (chip : b.nand = some c) (small : c.size < 2 ^ 32)
    (part : nandPart b c name = some (base, total)) (fits : base + total ≤ c.size) :
    let n := if userSize = 0 then total - userOffset else min userSize (total - userOffset)
    let good := c.ChunkGood io (base + userOffset) n
    ∃ reply ram asked,
      (∀ fuel, n < fuel → nandChunkRun fuel b io name addr userOffset userSize w = some (reply, ram, asked)) ∧
      (reply.result = none ↔ ¬ good) ∧
      (good → reply.result = some (userOffset % 2 ^ 32, n) ∧
        ram = w.ram.write addr (w.nand.read (base + userOffset) n)) ∧
      ∀ q ∈ asked, base ≤ q.1 ∧ q.1 + q.2 ≤ base + total := by
  dsimp only
  obtain ⟨n, size⟩ : ∃ n, n = if userSize = 0 then total - userOffset else min userSize (total - userOffset) := ⟨_, rfl⟩
  have remain : (if userOffset < total then total - userOffset else 0) = total - userOffset := by
    split <;> omega
  have clamped : chunkSize userSize (total - userOffset) = n := by
    rw [chunkSize, size, Nat.mod_eq_of_lt (by omega)]
    split <;> split <;> omega
  have within : n = 0 ∨ base + userOffset + n ≤ base + total := by
    rw [size]
    split <;> omega
  rw [← size]
  obtain ⟨r, detail, loop, ended⟩ := chunkLoop_ended io w.nand w.ram addr small
    (within.imp_right fun le => Nat.le_trans le fits)
  have run (fuel : Nat) (enough : n < fuel) :
      nandChunkRun fuel b io name addr userOffset userSize w = some (r.answer userOffset n detail) := by
    rw [nandChunkRun, chip]
    dsimp only
    rw [part]
    dsimp only
    rw [if_neg (nandPart_pos part), remain, clamped, loop fuel enough, Option.map_some]
  refine ⟨_, _, _, run, ?_, ?_, ?_⟩
  · rw [← ended.fails]
    cases detail with
    | none => exact iff_of_false (Option.some_ne_none _) Bool.false_ne_true
    | some text => exact iff_of_true rfl rfl
  · intro good
    cases detail with
    | none => exact ⟨rfl, ended.stored good⟩
    | some text => exact absurd good (ended.fails.mp rfl)
  · have inside (q : Nat × Nat) (mem : q ∈ r.asked) : base ≤ q.1 ∧ q.1 + q.2 ≤ base + total := by
      have := ended.inside q mem
      omega
    cases detail with
    | none | some text => exact inside

/-- Nine bytes over the border of the two blocks of the kernel, with a bad block behind them. -/
theorem nand_chunk_reads_border :
    ∃ reply ram asked,
      (∀ fuel, 9 < fuel → nandChunkRun fuel (pairBoard fun i => decide (i = 3)) sound (bytes "kernel") 0 4 9 idle =
        some (reply, ram, asked)) ∧
      reply.result = some (4, 9) ∧ ram = idle.ram.write 0 (idle.nand.read 12 9) := by
  have good : (pairChip fun i => decide (i = 3)).ChunkGood sound 12 9 := by
    refine ⟨?_, fun _ _ _ _ => rfl⟩
    intro x ge lt
    have block : x / 8 ≠ 3 := by omega
    exact decide_eq_false block
  obtain ⟨reply, ram, asked, run, -, stored, -⟩ := nand_chunk_reads (pairBoard fun i => decide (i = 3)) sound
    (bytes "kernel") 0 4 9 idle (pairChip fun i => decide (i = 3)) 8 16 rfl (by decide) (by decide) (by decide)
  exact ⟨reply, ram, asked, run, stored good⟩

end ResQBoot.Flash
