import ResQBoot.Lib.Flash

/-!
# The ART partition and its three kinds of flash

`art_read` and `art_write` of `macaddr_modify.c` with the device commands they issue. Every flash is a map from
addresses to bytes; an erase sets a whole unit to `0xFF`, and programming only clears bits.
-/

namespace ResQBoot

inductive Errno where
  | eio
  | einval
  | enoent
  | enodata
  | enosys
  | erase
  deriving DecidableEq, Repr

inductive SmemBoot where
  | noFlash
  | norFlash
  | nandFlash
  | onenandFlash
  | sdcFlash
  | mmcFlash
  | spiFlash
  | norPlusNand
  | norPlusEmmc
  | qspiNandFlash
  deriving DecidableEq, Repr

def isNorFlash : SmemBoot → Bool
  | .norFlash | .spiFlash | .norPlusNand | .norPlusEmmc => true
  | _ => false

def isNandFlash : SmemBoot → Bool
  | .nandFlash | .qspiNandFlash => true
  | _ => false

structure Emmc where
  blksz : Nat
  readable : Nat → Bool
  writable : Nat → Bool
  heap : Mem
  divides : blksz ∣ 512

structure Nor where
  eraseSize : Nat
  sect64k : Bool
  cypress : Bool
  pageSize : Nat
  isLocked : Nat → Nat → Bool
  pow : ∃ k, eraseSize = 2 ^ k
  hybrid : cypress = true → eraseSize = 0x10000
  page : 0 < pageSize

structure Nand where
  erasesize : Nat
  isBad : Nat → Bool

structure ArtFlash where
  flashType : SmemBoot
  blockSize : Nat
  smemArt : Option Nat
  gptArt : Option Nat
  emmc : Emmc
  nor : Nor
  nand : Nand
  cells : Mem

lemma Emmc.pos (e : Emmc) : 0 < e.blksz := Nat.pos_of_dvd_of_pos e.divides (by decide)

lemma Nor.pos (n : Nor) : 0 < n.eraseSize := by
  obtain ⟨k, h⟩ := n.pow
  rw [h]
  exact Nat.two_pow_pos k

/-! ## eMMC -/

def Emmc.readLoop (e : Emmc) (m : Mem) (blkOff intra size : Nat) :
    Nat → Nat → Bytes → Bytes → Bytes
  | 0, _, _, buf => buf
  | n + 1, i, blkBuf, buf =>
    let skip := if i = 0 then intra else 0
    let dstOff := if i = 0 then 0 else i * e.blksz - intra
    let copyLen := min (size - dstOff) (e.blksz - skip)
    let blkBuf := if e.readable (blkOff + i) then m.read ((blkOff + i) * e.blksz) e.blksz else blkBuf
    e.readLoop m blkOff intra size n (i + 1) blkBuf (buf ++ (blkBuf.drop skip).take copyLen)

def Emmc.artRead (e : Emmc) (m : Mem) (start offset size : Nat) : Bytes :=
  let intra := offset % e.blksz
  let blkOff := start + offset / e.blksz
  let blkCnt := (intra + size + e.blksz - 1) / e.blksz
  e.readLoop m blkOff intra size blkCnt 0 (e.heap.read 0 e.blksz) []

def Emmc.writeLoop (e : Emmc) (blkOff : Nat) (buf : Bytes) : Nat → Nat → Mem → Mem
  | 0, _, m => m
  | n + 1, i, m =>
    let byteOff := i * e.blksz
    let copyLen := min (buf.length - byteOff) e.blksz
    let blkBuf := patch (List.replicate e.blksz 0xFF) 0 ((buf.drop byteOff).take copyLen)
    let m := if e.writable (blkOff + i) then m.write ((blkOff + i) * e.blksz) blkBuf else m
    e.writeLoop blkOff buf n (i + 1) m

def Emmc.artWrite (e : Emmc) (m : Mem) (start offset : Nat) (buf : Bytes) : Mem :=
  e.writeLoop (start + offset / e.blksz) buf ((buf.length + e.blksz - 1) / e.blksz) 0 m

section Emmc

variable {e : Emmc} {m : Mem} {blkOff intra size : Nat}

lemma dstOff_eq (i b intra : Nat) : (if i = 0 then 0 else i * b - intra) = i * b - intra := by
  split
  · rename_i zero
    subst zero
    simp
  · rfl

variable {buf : Bytes} {b off offset start x : Nat}

lemma copyLen_eq {i : Nat} (lt : intra < b) :
    min size (i * b - intra) + min (size - (i * b - intra)) (b - if i = 0 then intra else 0) =
      min size ((i + 1) * b - intra) := by
  rw [Nat.succ_mul]
  by_cases zero : i = 0
  · subst zero
    simp
  · have : b ≤ i * b := Nat.le_mul_of_pos_left b (Nat.pos_of_ne_zero zero)
    rw [if_neg zero]
    omega

lemma Emmc.readLoop_length (lt : intra < e.blksz) : ∀ {n i : Nat} {blkBuf buf : Bytes}, blkBuf.length = e.blksz →
      buf.length = min size (i * e.blksz - intra) →
      (e.readLoop m blkOff intra size n i blkBuf buf).length = min size ((i + n) * e.blksz - intra) := by
  intro n
  induction n with
  | zero =>
    intro i blkBuf buf _ len
    exact len
  | succ n ih =>
    intro i blkBuf buf block len
    rw [Emmc.readLoop]
    have block' : (if e.readable (blkOff + i) then m.read ((blkOff + i) * e.blksz) e.blksz
        else blkBuf).length = e.blksz := by
      split
      · exact Mem.length_read _ _ _
      · exact block
    rw [ih block', Nat.add_right_comm, Nat.add_assoc]
    rw [List.length_append, List.length_take, List.length_drop, block', len, dstOff_eq, ← copyLen_eq lt]
    have skip : (if i = 0 then intra else 0) ≤ e.blksz := by split <;> omega
    omega

lemma Emmc.readLoop_true (lt : intra < e.blksz) :
    ∀ {n i : Nat} {blkBuf buf : Bytes}, (∀ j, i ≤ j → j < i + n → e.readable (blkOff + j) = true) →
      buf = m.read (blkOff * e.blksz + intra) (min size (i * e.blksz - intra)) →
      e.readLoop m blkOff intra size n i blkBuf buf =
        m.read (blkOff * e.blksz + intra) (min size ((i + n) * e.blksz - intra)) := by
  intro n
  induction n with
  | zero =>
    intro i blkBuf buf _ eq
    exact eq
  | succ n ih =>
    intro i blkBuf buf served eq
    rw [Emmc.readLoop]
    rw [if_pos (served i (Nat.le_refl i) (by omega)),
      ih (fun j le lt => served j (by omega) (by omega)), Nat.add_right_comm, Nat.add_assoc]
    rw [eq, ← copyLen_eq lt, Mem.read_add, dstOff_eq]
    congr 1
    -- The bytes of block `i` behind `skip` stand where the copy has come to, if there are any.
    by_cases zero : i = 0
    · subst zero
      obtain ⟨rest, split⟩ := Nat.exists_eq_add_of_lt lt
      rw [if_pos rfl, split, Nat.add_assoc, Mem.drop_read, Mem.take_read _ _ (by omega)]
      simp
    · have le : e.blksz ≤ i * e.blksz := Nat.le_mul_of_pos_left _ (Nat.pos_of_ne_zero zero)
      rw [if_neg zero, List.drop_zero, Mem.take_read _ _ (by omega), Nat.add_mul]
      by_cases more : i * e.blksz - intra ≤ size
      · congr 1
        omega
      · have none : min (size - (i * e.blksz - intra)) (e.blksz - 0) = 0 := by omega
        rw [none, Mem.read_zero, Mem.read_zero]

lemma le_mul_blkCnt {n : Nat} (pos : 0 < b) : n ≤ (n + b - 1) / b * b := le_roundUp pos

lemma Emmc.artRead_length (e : Emmc) (m : Mem) (start offset size : Nat) :
    (e.artRead m start offset size).length = size := by
  have lt := Nat.mod_lt offset e.pos
  have cover := le_mul_blkCnt (n := offset % e.blksz + size) e.pos
  rw [Emmc.artRead, Emmc.readLoop_length lt (by simp) (by simp), Nat.zero_add]
  omega

lemma Emmc.artRead_true (served : ∀ j, j < (offset % e.blksz + size + e.blksz - 1) / e.blksz →
      e.readable (start + offset / e.blksz + j) = true) :
    e.artRead m start offset size = m.read (start * e.blksz + offset) size := by
  have lt := Nat.mod_lt offset e.pos
  have cover := le_mul_blkCnt (n := offset % e.blksz + size) e.pos
  have whole := Nat.div_add_mod offset e.blksz
  rw [Emmc.artRead, Emmc.readLoop_true lt (fun j _ lt => served j (by omega)) (by simp), Nat.zero_add]
  congr 1
  · rw [Nat.add_mul, Nat.mul_comm (offset / e.blksz)]
    omega
  · omega

lemma blkBuf_getD {j : Nat} (lt : j < b) :
    (patch (List.replicate b 0xFF) 0 ((buf.drop off).take (min (buf.length - off) b))).getD j 0 =
      buf.getD (off + j) 0xFF := by
  have len : ((buf.drop off).take (min (buf.length - off) b)).length = min (buf.length - off) b := by
    simp
  simp only [patch, List.take_zero, List.nil_append, Nat.zero_add]
  by_cases inside : off + j < buf.length
  · rw [List.getD_append _ _ _ _ (by omega)]
    simp only [List.getD_eq_getElem?_getD]
    rw [List.getElem?_take_of_lt (by omega), List.getElem?_drop, List.getElem?_eq_getElem inside]
    rfl
  · rw [List.getD_append_right _ _ _ _ (by omega), len, List.drop_replicate,
      List.getD_replicate _ (by omega), List.getD_eq_default _ _ (by omega)]

lemma blkBuf_length :
    (patch (List.replicate b 0xFF) 0 ((buf.drop off).take (min (buf.length - off) b))).length = b := by
  have fits : 0 + ((buf.drop off).take (min (buf.length - off) b)).length ≤
      (List.replicate b (0xFF : UInt8)).length := by
    simp only [List.length_take, List.length_drop, List.length_replicate]
    omega
  rw [length_patch fits, List.length_replicate]

lemma Emmc.writeLoop_cells : ∀ {n i : Nat} {m : Mem}, e.writeLoop blkOff buf n i m x =
      if (blkOff + i ≤ x / e.blksz ∧ x / e.blksz < blkOff + i + n) ∧ e.writable (x / e.blksz) then
        buf.getD (x - blkOff * e.blksz) 0xFF
      else m x := by
  intro n
  induction n with
  | zero =>
    intro i m
    rw [if_neg (by omega)]
    rfl
  | succ n ih =>
    intro i m
    have whole := Nat.div_add_mod x e.blksz
    have part := Nat.mod_lt x e.pos
    rw [Emmc.writeLoop, ih]
    by_cases here : x / e.blksz = blkOff + i
    · rw [if_neg (by omega)]
      rw [here, Nat.mul_comm] at whole
      by_cases ok : e.writable (blkOff + i)
      · have at_x : (blkOff + i) * e.blksz = blkOff * e.blksz + i * e.blksz := Nat.add_mul _ _ _
        rw [if_pos ok, if_pos ⟨by omega, by rw [here]; exact ok⟩, Mem.write, blkBuf_length,
          if_pos (by omega), blkBuf_getD (by omega)]
        congr 1
        omega
      · rw [if_neg ok, if_neg (by rw [here]; exact fun h => ok h.2)]
    · have same : (if e.writable (blkOff + i) then m.write ((blkOff + i) * e.blksz)
          (patch (List.replicate e.blksz 0xFF) 0
            ((buf.drop (i * e.blksz)).take (min (buf.length - i * e.blksz) e.blksz))) else m) x = m x := by
        split
        · refine Mem.write_outside ?_
          rw [blkBuf_length]
          by_contra inside
          apply here
          refine Nat.div_eq_of_lt_le (by omega) ?_
          rw [Nat.succ_mul]
          omega
        · rfl
      rw [same]
      congr 1
      simp only [eq_iff_iff, and_congr_left_iff]
      omega

lemma Emmc.artWrite_cells (aligned : e.blksz ∣ offset) : e.artWrite m start offset buf x =
      if (start * e.blksz + offset ≤ x ∧ x < start * e.blksz + offset + roundUp buf.length e.blksz) ∧
          e.writable (x / e.blksz) then
        buf.getD (x - (start * e.blksz + offset)) 0xFF
      else m x := by
  obtain ⟨k, rfl⟩ := aligned
  have at_k : (start + k) * e.blksz = start * e.blksz + e.blksz * k := by
    rw [Nat.add_mul, Nat.mul_comm k]
  rw [Emmc.artWrite, Emmc.writeLoop_cells, Nat.mul_div_cancel_left _ e.pos, at_k]
  congr 1
  simp only [eq_iff_iff, and_congr_left_iff]
  intro _
  rw [roundUp, Nat.add_zero, Nat.le_div_iff_mul_le e.pos, Nat.div_lt_iff_lt_mul e.pos, Nat.add_mul (start + k), at_k]

end Emmc

/-! ## Serial NOR -/

def Nor.unitAt (n : Nor) (unit offset : Nat) : Nat :=
  if n.cypress then
    if offset ≤ 0x8000 - 0x1000 then 0x1000
    else if offset < 0x10000 then 0x8000
    else 0x10000
  else unit

def Nor.eraseLoop (n : Nor) (unit : Nat) : Nat → Nat → Nat → Mem → Mem
  | 0, _, _, m => m
  | fuel + 1, offset, len, m =>
    if len = 0 then m
    else
      let u := n.unitAt unit offset
      n.eraseLoop unit fuel (offset + u) (len - u) (m.fill (offset / u * u) u 0xFF)

def Nor.eraseOps (n : Nor) (m : Mem) (offset len : Nat) : Except Errno Mem :=
  if offset % n.eraseSize ≠ 0 ∨ len % n.eraseSize ≠ 0 then .error .erase
  else if n.isLocked offset len then .error .einval
  else
    let unit := if offset % 0x10000 = 0 ∧ len % 0x10000 = 0 ∧ n.sect64k then 0x10000 else n.eraseSize
    .ok (n.eraseLoop unit len offset len m)

def Nor.programLoop (n : Nor) : Nat → Nat → Bytes → Mem → Mem
  | 0, _, _, m => m
  | fuel + 1, offset, data, m =>
    if data = [] then m
    else
      let byteAddr := offset % n.pageSize
      let chunk := data.take (min data.length (n.pageSize - byteAddr))
      n.programLoop fuel (offset + chunk.length) (data.drop chunk.length) (m.program offset chunk)

def Nor.writeOps (n : Nor) (m : Mem) (offset : Nat) (data : Bytes) : Except Errno Mem :=
  if n.isLocked offset data.length then .error .einval
  else .ok (n.programLoop data.length offset data m)

def Nor.artWrite (n : Nor) (m : Mem) (a : Nat) (buf : Bytes) : Except Errno Mem := do
  let m ← n.eraseOps m a (roundUp buf.length n.eraseSize)
  n.writeOps m a buf

section Nor

variable {n : Nor} {m : Mem}

variable {m' : Mem} {a unit : Nat}

/-- A loop that starts each round at a unit, with whole units left, erases the whole range. -/
lemma Nor.eraseLoop_fill (Starts : Nat → Nat → Prop)
    (round : ∀ {offset len : Nat}, Starts offset len → len ≠ 0 → 0 < n.unitAt unit offset ∧
      n.unitAt unit offset ∣ offset ∧ n.unitAt unit offset ≤ len ∧
      Starts (offset + n.unitAt unit offset) (len - n.unitAt unit offset)) :
    ∀ {fuel offset len : Nat} {m : Mem}, len ≤ fuel → Starts offset len →
      n.eraseLoop unit fuel offset len m = m.fill offset len 0xFF := by
  intro fuel
  induction fuel with
  | zero =>
    intro offset len m le _
    obtain rfl : len = 0 := by omega
    exact (Mem.fill_zero m offset 0xFF).symm
  | succ fuel ih =>
    intro offset len m le starts
    rw [Nor.eraseLoop]
    split
    · rename_i done
      rw [done, Mem.fill_zero]
    rename_i more
    obtain ⟨pos, at_unit, le_len, next⟩ := round starts more
    simp only
    rw [Nat.div_mul_cancel at_unit, ih (by omega) next, Mem.fill_fill]
    congr 1
    omega

lemma Nor.eraseLoop_plain (plain : n.cypress = false) (pos : 0 < unit) {offset len : Nat}
    (at_unit : unit ∣ offset) (whole : unit ∣ len) :
    n.eraseLoop unit len offset len m = m.fill offset len 0xFF := by
  refine Nor.eraseLoop_fill (fun offset len => unit ∣ offset ∧ unit ∣ len) (fun starts more => ?_)
    (Nat.le_refl len) ⟨at_unit, whole⟩
  have here (offset : Nat) : n.unitAt unit offset = unit := by simp [Nor.unitAt, plain]
  rw [here]
  exact ⟨pos, starts.1, Nat.le_of_dvd (Nat.pos_of_ne_zero more) starts.2,
    Nat.dvd_add starts.1 (Nat.dvd_refl unit), Nat.dvd_sub starts.2 (Nat.dvd_refl unit)⟩

def SectorStart (offset : Nat) : Prop :=
  (offset ≤ 0x8000 ∧ offset % 0x1000 = 0) ∨ (0x10000 ≤ offset ∧ offset % 0x10000 = 0)

lemma Nor.eraseLoop_hybrid (hybrid : n.cypress = true) {offset len : Nat} (sector : SectorStart offset)
    (stop : (offset + len) % 0x10000 = 0) : n.eraseLoop unit len offset len m = m.fill offset len 0xFF := by
  refine Nor.eraseLoop_fill (fun offset len => SectorStart offset ∧ (offset + len) % 0x10000 = 0)
    (fun starts more => ?_) (Nat.le_refl len) ⟨sector, stop⟩
  obtain ⟨sector, stop⟩ := starts
  rw [Nor.unitAt, if_pos hybrid, Nat.dvd_iff_mod_eq_zero]
  simp only [SectorStart] at sector ⊢
  split_ifs <;> omega

lemma Nor.eraseOps_ok {offset len : Nat} (ok : n.eraseOps m offset len = .ok m') : m' = m.fill offset len 0xFF := by
  rw [Nor.eraseOps] at ok
  split at ok
  · cases ok
  rename_i units
  split at ok
  · cases ok
  cases ok
  have at_unit : n.eraseSize ∣ offset := Nat.dvd_of_mod_eq_zero (by omega)
  have whole : n.eraseSize ∣ len := Nat.dvd_of_mod_eq_zero (by omega)
  cases hybrid : n.cypress with
  | true =>
    rw [n.hybrid hybrid] at at_unit whole
    refine Nor.eraseLoop_hybrid hybrid ?_ (by omega)
    rw [SectorStart]
    omega
  | false =>
    split
    · rename_i wide
      exact Nor.eraseLoop_plain hybrid (by decide) (Nat.dvd_of_mod_eq_zero wide.1) (Nat.dvd_of_mod_eq_zero wide.2.1)
    · exact Nor.eraseLoop_plain hybrid n.pos at_unit whole

lemma Nor.programLoop_eq : ∀ {fuel offset : Nat} {data : Bytes} {m : Mem}, data.length ≤ fuel →
    n.programLoop fuel offset data m = m.program offset data := by
  intro fuel
  induction fuel with
  | zero =>
    intro offset data m le
    obtain rfl : data = [] := List.eq_nil_of_length_eq_zero (by omega)
    simp [Nor.programLoop]
  | succ fuel ih =>
    intro offset data m le
    rw [Nor.programLoop]
    split
    · rename_i done
      simp [done]
    rename_i more
    have pos : 0 < data.length := List.length_pos_of_ne_nil more
    have room : 0 < n.pageSize - offset % n.pageSize := Nat.sub_pos_of_lt (Nat.mod_lt _ n.page)
    have rest : (data.drop (data.take (min data.length (n.pageSize - offset % n.pageSize))).length).length ≤ fuel := by
      simp only [List.length_drop, List.length_take]
      omega
    rw [ih rest, ← Mem.program_append]
    congr 1
    rw [List.length_take, Nat.min_eq_left (Nat.min_le_left _ _), List.take_append_drop]

lemma Nor.artWrite_cells {buf : Bytes} (ok : n.artWrite m a buf = .ok m') :
    m' = m.lay a (roundUp buf.length n.eraseSize) buf := by
  rw [Nor.artWrite] at ok
  cases erased : n.eraseOps m a (roundUp buf.length n.eraseSize) with
  | error err =>
    rw [erased] at ok
    cases ok
  | ok m₁ =>
    rw [erased, Nor.eraseOps_ok erased] at ok
    change n.writeOps _ a buf = .ok m' at ok
    rw [Nor.writeOps] at ok
    split at ok
    · cases ok
    · cases ok
      rw [Nor.programLoop_eq (Nat.le_refl _), Mem.program_fill _ (le_roundUp n.pos)]

lemma Nor.artWrite_isOk (at_unit : n.eraseSize ∣ a) (free : ∀ o l, n.isLocked o l = false)
    (m : Mem) (buf : Bytes) : ∃ m', n.artWrite m a buf = .ok m' := by
  have units : ¬ (a % n.eraseSize ≠ 0 ∨ roundUp buf.length n.eraseSize % n.eraseSize ≠ 0) := by
    rw [Nat.mod_eq_zero_of_dvd at_unit, Nat.mod_eq_zero_of_dvd (dvd_roundUp _ _)]
    simp
  simp only [Nor.artWrite, Nor.eraseOps, if_neg units, free, Bool.false_eq_true, if_false]
  change ∃ m', n.writeOps _ a buf = .ok m'
  simp only [Nor.writeOps, free, Bool.false_eq_true, if_false]
  exact ⟨_, rfl⟩

end Nor

/-! ## NAND -/

def Nand.rewriteLoop (d : Nand) (base start stop : Nat) (buf : Bytes) :
    Nat → Nat → Mem → Except Errno Mem
  | 0, _, m => .ok m
  | fuel + 1, blockOff, m =>
    if blockOff < stop then
      let dataStart := if start > blockOff then start else blockOff
      let within := dataStart - blockOff
      let chunk := stop - dataStart
      if blockOff < base ∨ chunk > d.erasesize - within then .error .einval
      else
        let block := patch (m.read blockOff d.erasesize) within ((buf.drop (dataStart - start)).take chunk)
        if d.isBad blockOff then .error .eio
        else d.rewriteLoop base start stop buf fuel (blockOff + d.erasesize)
          ((m.fill blockOff d.erasesize 0xFF).program blockOff block)
    else .ok m

def Nand.artWrite (d : Nand) (m : Mem) (base offset : Nat) (buf : Bytes) : Except Errno Mem :=
  let start := base + offset
  let stop := start + buf.length
  if d.erasesize = 0 then .error .einval
  else
    let blockOff := start / d.erasesize * d.erasesize
    d.rewriteLoop base start stop buf (stop - blockOff) blockOff m

section Nand

variable {d : Nand} {m : Mem}

variable {buf : Bytes} {m' : Mem} {base blockOff fuel offset start : Nat}

lemma rewrite_block {size within : Nat} (fits : within + buf.length ≤ size) :
    (m.fill blockOff size 0xFF).program blockOff (patch (m.read blockOff size) within buf) =
      m.write (blockOff + within) buf := by
  have fits' : within + buf.length ≤ (m.read blockOff size).length := by simpa using fits
  have len := length_patch fits'
  rw [Mem.length_read] at len
  rw [Mem.program_fill _ (by omega)]
  funext x
  simp only [Mem.lay, Mem.write]
  by_cases inside : blockOff ≤ x ∧ x < blockOff + size
  · rw [if_pos inside]
    by_cases new : blockOff + within ≤ x ∧ x < blockOff + within + buf.length
    · rw [if_pos new, patch, List.append_assoc, List.getD_append_right _ _ _ _ (by simp; omega),
        List.getD_append _ _ _ _ (by simp; omega)]
      have pos : x - blockOff - ((m.read blockOff size).take within).length = x - (blockOff + within) := by
        simp only [List.length_take, Mem.length_read]
        omega
      rw [pos, List.getD_eq_getElem _ _ (by omega), List.getD_eq_getElem _ _ (by omega)]
    · rw [if_neg new, getD_patch_outside _ fits' (by omega), Mem.getD_read _ _ (by omega)]
      congr 1
      omega
  · rw [if_neg inside, if_neg (by omega)]

/-- The range may not leave the block in which it starts. -/
lemma Nand.rewriteLoop_eq (enough : start + buf.length - blockOff ≤ fuel) (low : blockOff ≤ start)
    (high : start < blockOff + d.erasesize) :
    d.rewriteLoop base start (start + buf.length) buf fuel blockOff m =
      if start + buf.length ≤ blockOff then .ok m
      else if blockOff < base ∨ d.erasesize < start - blockOff + buf.length then .error .einval
      else if d.isBad blockOff then .error .eio
      else .ok (m.write start buf) := by
  have data : (if start > blockOff then start else blockOff) = start := by split <;> omega
  have last : ∀ {fuel : Nat} {m₁ : Mem}, start - blockOff + buf.length ≤ d.erasesize →
      d.rewriteLoop base start (start + buf.length) buf fuel (blockOff + d.erasesize) m₁ = .ok m₁ := by
    intro fuel m₁ fits
    cases fuel with
    | zero => rfl
    | succ fuel => rw [Nand.rewriteLoop, if_neg (by omega)]
  cases fuel with
  | zero =>
    rw [if_pos (by omega)]
    rfl
  | succ fuel =>
    rw [Nand.rewriteLoop]
    simp only [data, Nat.sub_self, List.drop_zero, Nat.add_sub_cancel_left, List.take_length]
    split_ifs <;> first | rfl | omega | skip
    rw [last (by omega), rewrite_block (by omega), Nat.add_sub_cancel' low]

lemma Nand.artWrite_block : d.artWrite m base offset buf =
      if d.erasesize = 0 then .error .einval
      else if base + offset + buf.length ≤ (base + offset) / d.erasesize * d.erasesize then .ok m
      else if (base + offset) / d.erasesize * d.erasesize < base ∨
          d.erasesize < base + offset - (base + offset) / d.erasesize * d.erasesize + buf.length then .error .einval
      else if d.isBad ((base + offset) / d.erasesize * d.erasesize) then .error .eio
      else .ok (m.write (base + offset) buf) := by
  rw [Nand.artWrite]
  refine ite_congr rfl (fun _ => rfl) fun zero => ?_
  exact Nand.rewriteLoop_eq (Nat.le_refl _) (Nat.div_mul_le_self _ _) (Nat.lt_div_mul_add (Nat.pos_of_ne_zero zero))

lemma Nand.artWrite_cells (ok : d.artWrite m base offset buf = .ok m') : m' = m.write (base + offset) buf := by
  have low := Nat.div_mul_le_self (base + offset) d.erasesize
  rw [Nand.artWrite_block] at ok
  split_ifs at ok <;> cases ok
  · obtain rfl : buf = [] := List.eq_nil_of_length_eq_zero (by omega)
    exact (Mem.write_nil m _).symm
  · rfl

lemma Nand.artWrite_accepts (ok : d.artWrite m base offset buf = .ok m') (other : Mem) :
    ∃ m'', d.artWrite other base offset buf = .ok m'' := by
  rw [Nand.artWrite_block] at ok ⊢
  split_ifs at ok ⊢ <;> exact ⟨_, rfl⟩

lemma Nand.artWrite_eq (pos : 0 < d.erasesize) (aligned : d.erasesize ∣ base)
    (good : ∀ b, d.isBad b = false) : d.artWrite m base offset buf =
      if offset % d.erasesize + buf.length ≤ d.erasesize then .ok (m.write (base + offset) buf)
      else .error .einval := by
  obtain ⟨k, rfl⟩ := aligned
  have whole := Nat.div_add_mod (d.erasesize * k + offset) d.erasesize
  rw [Nat.mul_add_mod, Nat.mul_comm] at whole
  have above : d.erasesize * k ≤ (d.erasesize * k + offset) / d.erasesize * d.erasesize := by
    rw [Nat.mul_add_div pos, Nat.add_mul, Nat.mul_comm k]
    exact Nat.le_add_right _ _
  have low := Nat.div_mul_le_self (d.erasesize * k + offset) d.erasesize
  rw [Nand.artWrite_block, if_neg (Nat.ne_of_gt pos), good]
  split_ifs <;> first | rfl | omega | skip
  obtain rfl : buf = [] := List.eq_nil_of_length_eq_zero (by omega)
  rw [Mem.write_nil]

end Nand

/-! ## The two functions -/

def ArtFlash.artPartOffset (f : ArtFlash) : Option Nat :=
  f.smemArt.map (f.blockSize * ·)

def ArtFlash.artRead (f : ArtFlash) (offset size : Nat) : Except Errno Bytes :=
  if f.flashType = .mmcFlash then
    match f.gptArt with
    | none => .error .enoent
    | some start => .ok (f.emmc.artRead f.cells start offset size)
  else
    match f.artPartOffset with
    | none => .error .enoent
    | some base =>
      if isNorFlash f.flashType then .ok (f.cells.read (base + offset) size)
      else if isNandFlash f.flashType then .ok (f.cells.read (base + offset) size)
      else .error .einval

def ArtFlash.written (f : ArtFlash) (offset : Nat) (buf : Bytes) : Except Errno Mem :=
  if f.flashType = .mmcFlash then
    match f.gptArt with
    | none => .error .enoent
    | some start => .ok (f.emmc.artWrite f.cells start offset buf)
  else
    match f.artPartOffset with
    | none => .error .enoent
    | some base =>
      if isNorFlash f.flashType then f.nor.artWrite f.cells (base + offset) buf
      else if isNandFlash f.flashType then f.nand.artWrite f.cells base offset buf
      else .error .einval

def ArtFlash.artWrite (f : ArtFlash) (offset : Nat) (buf : Bytes) : Except Errno ArtFlash :=
  (f.written offset buf).map fun m => { f with cells := m }

def ArtFlash.base (f : ArtFlash) : Nat :=
  if f.flashType = .mmcFlash then f.gptArt.getD 0 * f.emmc.blksz else f.artPartOffset.getD 0

def ArtFlash.span (f : ArtFlash) (size : Nat) : Nat :=
  if f.flashType = .mmcFlash then roundUp size f.emmc.blksz
  else if isNorFlash f.flashType then roundUp size f.nor.eraseSize
  else size

def ArtFlash.Touches (f : ArtFlash) (offset size x : Nat) : Prop :=
  (f.base + offset ≤ x ∧ x < f.base + offset + f.span size) ∧
    (f.flashType = .mmcFlash → f.emmc.writable (x / f.emmc.blksz) = true)

instance (f : ArtFlash) (offset size x : Nat) : Decidable (f.Touches offset size x) :=
  inferInstanceAs (Decidable (_ ∧ _))

lemma ArtFlash.le_span (f : ArtFlash) (size : Nat) : size ≤ f.span size := by
  rw [ArtFlash.span]
  split
  · exact le_roundUp f.emmc.pos
  · split
    · exact le_roundUp f.nor.pos
    · exact Nat.le_refl size

variable {f f' : ArtFlash} {got buf : Bytes} {offset size : Nat}

lemma ArtFlash.artWrite_ok (ok : f.artWrite offset buf = .ok f') :
    ∃ m, f.written offset buf = .ok m ∧ { f with cells := m } = f' := by
  rw [ArtFlash.artWrite] at ok
  cases result : f.written offset buf with
  | error err =>
    rw [result] at ok
    cases ok
  | ok m =>
    rw [result] at ok
    exact ⟨m, rfl, Except.ok.inj ok⟩

lemma ArtFlash.written_ok {m : Mem} (ok : f.written offset buf = .ok m) :
    (f.flashType = .mmcFlash ∧ ∃ start, f.gptArt = some start ∧ f.emmc.artWrite f.cells start offset buf = m) ∨
    ¬ f.flashType = .mmcFlash ∧ ∃ base, f.artPartOffset = some base ∧
      (isNorFlash f.flashType = true ∧ f.nor.artWrite f.cells (base + offset) buf = .ok m ∨
        ¬ isNorFlash f.flashType = true ∧ isNandFlash f.flashType = true ∧
          f.nand.artWrite f.cells base offset buf = .ok m) := by
  rw [ArtFlash.written] at ok
  split at ok
  · rename_i mmc
    split at ok
    · cases ok
    · rename_i start part
      exact .inl ⟨mmc, start, part, Except.ok.inj ok⟩
  rename_i other
  split at ok
  · cases ok
  rename_i base part
  refine .inr ⟨other, base, part, ?_⟩
  split at ok
  · rename_i nor
    exact .inl ⟨nor, ok⟩
  rename_i noNor
  split at ok
  · rename_i nand
    exact .inr ⟨noNor, nand, ok⟩
  · cases ok

lemma ArtFlash.artWrite_cells (aligned : 512 ∣ offset) (ok : f.artWrite offset buf = .ok f') (x : Nat) :
    f'.cells x = if f.Touches offset buf.length x then buf.getD (x - (f.base + offset)) 0xFF
      else f.cells x := by
  obtain ⟨m, result, rfl⟩ := artWrite_ok ok
  simp only [ArtFlash.Touches, ArtFlash.base, ArtFlash.span]
  obtain ⟨mmc, start, part, rfl⟩ | ⟨other, base, part, ⟨nor, result⟩ | ⟨noNor, -, result⟩⟩ := written_ok result
  · simp only [mmc, part, if_true, Option.getD_some, forall_const]
    exact Emmc.artWrite_cells (Nat.dvd_trans f.emmc.divides aligned)
  · simp only [other, part, if_false, Option.getD_some, false_implies, and_true]
    rw [Nor.artWrite_cells result, if_pos nor]
    rfl
  · simp only [other, part, if_false, Option.getD_some, false_implies, and_true]
    rw [Nand.artWrite_cells result, if_neg noNor]
    simp only [Mem.write]
    by_cases inside : base + offset ≤ x ∧ x < base + offset + buf.length
    · rw [if_pos inside, if_pos inside, List.getD_eq_getElem _ _ (by omega), List.getD_eq_getElem _ _ (by omega)]
    · rw [if_neg inside, if_neg inside]

lemma ArtFlash.artRead_length (ok : f.artRead offset size = .ok got) : got.length = size := by
  rw [ArtFlash.artRead] at ok
  split at ok
  · split at ok
    · cases ok
    · cases ok
      exact Emmc.artRead_length _ _ _ _ _
  · split at ok
    · cases ok
    split at ok
    · cases ok
      exact Mem.length_read _ _ _
    · split at ok
      · cases ok
        exact Mem.length_read _ _ _
      · cases ok

lemma ArtFlash.artRead_true (ok : f.artRead offset size = .ok got)
    (served : f.flashType = .mmcFlash → ∀ b, f.emmc.readable b = true) :
    got = f.cells.read (f.base + offset) size := by
  rw [ArtFlash.artRead] at ok
  rw [ArtFlash.base]
  split at ok
  · rename_i mmc
    split at ok
    · cases ok
    · rename_i start part
      cases ok
      rw [if_pos mmc, part]
      exact Emmc.artRead_true fun _ _ => served mmc _
  · rename_i other
    split at ok
    · cases ok
    rename_i base part
    rw [if_neg other, part]
    split at ok
    · cases ok
      rfl
    · split at ok
      · cases ok
        rfl
      · cases ok

end ResQBoot
