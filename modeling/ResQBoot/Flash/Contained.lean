import ResQBoot.Flash.Nand

/-!
# Containment of the `flash` command

What remains is whether the resolved range is the assigned one (`Within`): a NAND partition has to start below 4 GiB,
and a partition that reaches to the end of the device gets a size from the device that its flag names.
-/

namespace ResQBoot.Flash

variable {size part addr k : Nat} {ft : SmemBoot} {p : Ptn} {layout : Layout} {d : BlockDev} {c : Cmd} {P : Cmd → Prop} {w : World} {g : GptPart}

def Cmd.range : Cmd → Option (Device × Nat × Nat)
  | .nandErase off size => some (.nand, off, size)
  | .nandWrite _ off size => some (.nand, off, size)
  | .mmcErase start cnt => some (.emmc, start, cnt)
  | .mmcWrite _ start cnt => some (.emmc, start, cnt)
  | .mmcWriteBuf start cnt _ => some (.emmc, start, cnt)
  | .sfErase off len => some (.nor, off, len)
  | .sfWrite _ off len => some (.nor, off, len)
  | .sfWriteBuf off data => some (.nor, off, data.length)
  | _ => none

def Cmd.fileBytes (b : Board) : Cmd → Option Nat
  | .nandWrite _ _ size => some size
  | .mmcWrite _ _ cnt => b.emmc.map fun d => cnt * d.blksz
  | .sfWrite _ _ len => some len
  | _ => none

/-! ### The assigned range -/

def BlockDev.entry (d : BlockDev) (name : Bytes) : Option GptPart :=
  (d.gpt.filterMap id).find? fun g => g.name = name

def Ptn.stop (p : Ptn) (unit size : Nat) : Nat :=
  if p.size = tillEnd then size else p.start * unit + p.size * unit

def gptRange (b : Board) (name : Bytes) : Option (Device × Nat × Nat) :=
  match b.emmc with
  | none => none
  | some d => (d.entry name).map fun g => (.emmc, g.startingLba, g.endingLba + 1)

def assigned (b : Board) (name : Bytes) : Option (Device × Nat × Nat) :=
  if isNandFlash b.flashType then
    (b.smemFind name).map fun p => (.nand, p.start * b.blockSize, p.stop b.blockSize b.nandSize)
  else if b.flashType = .mmcFlash ∨ b.flashType = .noFlash then gptRange b name
  else if b.flashType = .spiFlash then
    if b.getWhichFlashParam name > 0 then
      (b.smemFind name).map fun p =>
        (.nand, p.start * b.getPartBlockSize p, p.stop (b.getPartBlockSize p) b.nandSize)
    else if b.secondaryNand && isRootfs name && b.rootfsUnset then
      some (.nand, b.activeRootfs * ipqNandRootfsSize, (b.activeRootfs + 1) * ipqNandRootfsSize)
    else
      match b.smemFind name with
      | none => gptRange b name
      | some p =>
        if (b.secondary = .mmcFlash ∨ b.rootfsUnset = true) ∧ p.start = 0 ∧ p.size = 0 then gptRange b name
        else some (.nor, p.start * b.blockSize, p.stop b.blockSize b.norSize)
  else none

def Ptn.home (b : Board) (p : Ptn) : Nat × Nat :=
  if isNandFlash b.flashType then (b.blockSize, b.nandSize)
  else if p.which > 0 then (b.getPartBlockSize p, b.nandSize)
  else (b.blockSize, b.norSize)

/-- The names of the SMEM table are distinct, and the ranges of both tables lie inside their devices. -/
structure TablesInside (b : Board) : Prop where
  names : (b.table.map Ptn.name).Nodup
  smem : ∀ p ∈ b.table, p.start * (p.home b).1 ≤ p.stop (p.home b).1 (p.home b).2 ∧
    p.stop (p.home b).1 (p.home b).2 ≤ (p.home b).2
  gpt : ∀ d g, b.emmc = some d → some g ∈ d.gpt → g.startingLba ≤ g.endingLba ∧ g.endingLba < d.lba

structure Contained (b : Board) (name : Bytes) (n : Nat) (cs : List Cmd) : Prop where
  ranges : ∀ c ∈ cs, ∀ dev off len, c.range = some (dev, off, len) →
    ∃ lo hi, assigned b name = some (dev, lo, hi) ∧ lo ≤ off ∧ off + len ≤ hi
  covers : ∀ c ∈ cs, ∀ k, c.fileBytes b = some k → n ≤ k

def issued (b : Board) (io : Io) (name : Bytes) (addr n : Nat) (w : World) : List Cmd :=
  (doFlash b io name addr n w).2.log.drop w.log.length

/-! ### The condition -/

def FitsNand (b : Board) (p : Ptn) (lo part : Nat) : Prop :=
  ∀ c, b.nand = some c → part < c.writesize ∨ lo < 2 ^ 32 ∧ (p.size = tillEnd → lo + part ≤ c.size)

def Within (b : Board) (name : Bytes) : Prop :=
  if isNandFlash b.flashType then
    ∀ p start size, b.smemFind name = some p → b.smemGetpart name = some (start, size) →
      FitsNand b p (p.start * b.blockSize) (b.blockSize * size % 2 ^ 32)
  else if b.flashType = .spiFlash then
    if b.getWhichFlashParam name > 0 then
      ∀ p offset size, b.smemFind name = some p → b.getpartOffsetSize name = some (offset, size) →
        FitsNand b p (p.start * b.getPartBlockSize p) size
    else (b.secondaryNand && isRootfs name && b.rootfsUnset) = true → b.nand ≠ none →
      b.activeRootfs * ipqNandRootfsSize < 2 ^ 32
  else True

/-! ### What is issued -/

section Issued

variable {b : Board} {io : Io} {name : Bytes} {addr n : Nat} {w : World} {t : Target}

/-- A command of a write line is a preparation, the erase of the partition or the write of the file. -/
lemma writeToFlash_mem {off : Nat} (mem : c ∈ writeToFlash ft addr off part size layout) :
    c.range = none ∧ (∀ b, c.fileBytes b = none) ∨ ∃ dev, deviceOf ft = some dev ∧
      (c.range = some (dev, off, part) ∧ (∀ b, c.fileBytes b = none) ∨ c.range = some (dev, off, size) ∧
        ∀ b, c.fileBytes b = if ft = .mmcFlash then b.emmc.map fun d => size * d.blksz else some size) := by
  cases ft <;> simp only [writeToFlash, List.mem_append, List.mem_cons, List.not_mem_nil, or_false] at mem
  case nandFlash | qspiNandFlash =>
    rcases mem with (rfl | layouts) | rfl | rfl
    · exact .inl ⟨rfl, fun _ => rfl⟩
    · split at layouts
      · obtain rfl := List.mem_singleton.mp layouts
        exact .inl ⟨rfl, fun _ => rfl⟩
      · cases layouts
    · exact .inr ⟨.nand, rfl, .inl ⟨rfl, fun _ => rfl⟩⟩
    · exact .inr ⟨.nand, rfl, .inr ⟨rfl, fun _ => rfl⟩⟩
  case mmcFlash =>
    rcases mem with rfl | rfl
    · exact .inr ⟨.emmc, rfl, .inl ⟨rfl, fun _ => rfl⟩⟩
    · exact .inr ⟨.emmc, rfl, .inr ⟨rfl, fun _ => rfl⟩⟩
  case spiFlash =>
    rcases mem with rfl | rfl | rfl
    · exact .inl ⟨rfl, fun _ => rfl⟩
    · exact .inr ⟨.nor, rfl, .inl ⟨rfl, fun _ => rfl⟩⟩
    · exact .inr ⟨.nor, rfl, .inr ⟨rfl, fun _ => rfl⟩⟩

lemma writeToFlash_range {off : Nat} {dev : Device}
    {o l : Nat} (mem : c ∈ writeToFlash ft addr off part size layout) (le : size ≤ part)
    (range : c.range = some (dev, o, l)) : deviceOf ft = some dev ∧ o = off ∧ l ≤ part := by
  rcases writeToFlash_mem mem with ⟨none, -⟩ | ⟨dev', device, ⟨here, -⟩ | ⟨here, -⟩⟩
  · cases none.symm.trans range
  all_goals
    cases here.symm.trans range
    exact ⟨device, rfl, by omega⟩

def Issues (P : Cmd → Prop) (w w' : World) : Prop := ∃ run, w'.log = w.log ++ run ∧ ∀ c ∈ run, P c

lemma Issues.none (w : World) : Issues P w w := ⟨[], by simp, by simp⟩

lemma Issues.trans {w' w'' : World} (first : Issues P w w') (second : Issues P w' w'') :
    Issues P w w'' := by
  obtain ⟨run, log, all⟩ := first
  obtain ⟨run', log', all'⟩ := second
  refine ⟨run ++ run', by rw [log', log, List.append_assoc], fun c mem => ?_⟩
  rcases List.mem_append.mp mem with left | right
  · exact all c left
  · exact all' c right

lemma Issues.mono {Q : Cmd → Prop} {w' : World} (issues : Issues P w w') (weaker : ∀ c, P c → Q c) :
    Issues Q w w' := by
  obtain ⟨run, log, all⟩ := issues
  exact ⟨run, log, fun c mem => weaker c (all c mem)⟩

lemma runCommand_issues (b : Board) (io : Io) (cs : List Cmd) (w : World) : Issues (· ∈ cs) w (runCommand b io cs w).2 := by
  obtain ⟨run, pre, log⟩ := runCommand_log b io cs w
  exact ⟨run, log, fun c mem => pre.subset mem⟩

def FromWrite (b : Board) (t : Target) (addr size : Nat) (c : Cmd) : Prop :=
  c ∈ writeToFlash t.flashType addr t.offset t.partSize size t.layout ∧
    (isNandFlash t.flashType = true → b.nand = none → c = .nandDevice)

lemma writeToFlash_issues (b : Board) (io : Io) (t : Target) (addr size : Nat) (w : World) :
    Issues (FromWrite b t addr size) w
      (runCommand b io (writeToFlash t.flashType addr t.offset t.partSize size t.layout) w).2 := by
  obtain ⟨run, pre, log⟩ := runCommand_log b io (writeToFlash t.flashType addr t.offset t.partSize size t.layout) w
  refine ⟨run, log, fun c mem => ⟨pre.subset mem, fun nand absent => ?_⟩⟩
  have failed : (exec b io .nandDevice w).1 = false := by
    rw [exec]
    split
    · simp [effect, absent]
    · rfl
  rw [writeToFlash_line nand, runCommand_cons, failed, if_neg Bool.false_ne_true, exec_log] at log
  have run_eq := List.append_cancel_left log
  rw [← run_eq] at mem
  exact List.mem_singleton.mp mem

lemma writeMarkers_issues (k off : Nat) (w : World) :
    Issues (fun c => ∃ j < k, c = .sfWriteBuf ((off + j * b.blockSize) % 2 ^ 32) cleanmarker) w
      (writeMarkers b io k (off % 2 ^ 32) w).2 := by
  induction k generalizing off w with
  | zero => exact Issues.none w
  | succ k ih =>
    have first := (runCommand_issues b io [.sfWriteBuf (off % 2 ^ 32) cleanmarker] w).mono
      (Q := fun c => ∃ j < k + 1, c = .sfWriteBuf ((off + j * b.blockSize) % 2 ^ 32) cleanmarker)
      (fun c mem => ⟨0, by omega, by simpa using mem⟩)
    rw [writeMarkers]
    split
    · rename_i w₁ done
      rw [done] at first
      refine first.trans ?_
      rw [Nat.mod_add_mod]
      refine (ih (off + b.blockSize) w₁).mono ?_
      rintro c ⟨j, lt, rfl⟩
      refine ⟨j + 1, by omega, ?_⟩
      rw [Nat.add_assoc, Nat.succ_mul, Nat.add_comm b.blockSize]
    · rename_i w₁ failed
      rw [failed] at first
      exact first

def IsMarker (b : Board) (t : Target) (size : Nat) (c : Cmd) : Prop :=
  let aligned := roundUp size b.blockSize % 2 ^ 32
  let left := (t.partSize + 2 ^ 32 - aligned) % 2 ^ 32
  ∃ j < (left + b.blockSize - 1) / b.blockSize,
    c = .sfWriteBuf ((t.offset + aligned + j * b.blockSize) % 2 ^ 32) cleanmarker

lemma addMarkers_issues (size : Nat) (ok : Bool) (w : World) :
    Issues (IsMarker b t size) w (addMarkers b io t size (ok, w)).2 := by
  rw [addMarkers]
  simp only
  split
  · exact Issues.none w
  · exact writeMarkers_issues _ _ w

lemma flashTarget_issues (plain : NotGpt name) : Issues (fun c => roundSize b t n ≤ t.partSize ∧
        (FromWrite b t addr (roundSize b t n) c ∨ t.cleanMarker = true ∧ IsMarker b t (roundSize b t n) c))
      w (flashTarget b io name addr n t w).2 := by
  rw [flashTarget]
  simp only
  split
  · exact Issues.none w
  rename_i fits
  have write := (writeToFlash_issues b io t addr (roundSize b t n) w).mono
    (Q := fun c => roundSize b t n ≤ t.partSize ∧ (FromWrite b t addr (roundSize b t n) c ∨
      t.cleanMarker = true ∧ IsMarker b t (roundSize b t n) c))
    (fun c made => ⟨by omega, .inl made⟩)
  split
  · rw [if_neg (not_or.mpr plain)]
    exact write
  split
  · rename_i marker
    refine write.trans ?_
    exact (addMarkers_issues _ _ _).mono fun c isMarker => ⟨by omega, .inr ⟨marker, isMarker⟩⟩
  · exact write

lemma doFlash_log : (doFlash b io name addr n w).2.log =
    (flashResolved b io name addr n (resolveFlash b (w.flashTypeNew.getD b.flashType) name n) w).2.log := by
  rw [doFlash]
  split <;> rename_i eq <;> rw [eq]

lemma doFlash_issues (plain : NotGpt name) : Issues (fun c => c = .ubiWrite addr name n ∨
        ∃ t, resolveFlash b (w.flashTypeNew.getD b.flashType) name n = .target t ∧ roundSize b t n ≤ t.partSize ∧
          (FromWrite b t addr (roundSize b t n) c ∨ t.cleanMarker = true ∧ IsMarker b t (roundSize b t n) c))
      w (doFlash b io name addr n w).2 := by
  rw [Issues, doFlash_log]
  cases resolved : resolveFlash b (w.flashTypeNew.getD b.flashType) name n with
  | exit => exact Issues.none w
  | ubi => exact (runCommand_issues b io _ w).mono fun c mem => .inl (List.mem_singleton.mp mem)
  | target t => exact (flashTarget_issues plain).mono fun c made => .inr ⟨t, rfl, made⟩

end Issued

/-! ### The rounded size -/

section Round

variable {b : Board} {t : Target} {n : Nat}

lemma roundSize_mmc (mmc : t.flashType = .mmcFlash) (blocks : 0 < t.blksz) (file : t.fileSize = n) :
    roundSize b t n = (n + t.blksz - 1) / t.blksz := by
  rw [roundSize, if_pos ⟨mmc, by omega⟩, ceil_div n blocks]
  simp [mmc, isNandFlash, file]

lemma roundSize_page {c : Chip} (chip : b.nand = some c) (nand : isNandFlash t.flashType = true)
    (file : t.fileSize = n) (small : n ≤ 2 ^ 32 - 2 ^ 16) : roundSize b t n = roundUp n c.writesize := by
  obtain ⟨k, le, page⟩ := c.page
  have size : b.nandWritesize = 2 ^ k := by rw [Board.nandWritesize, chip]; exact page
  have pos := Nat.two_pow_pos k
  have bytes : t.flashType ≠ .mmcFlash := by
    intro mmc
    rw [mmc] at nand
    cases nand
  have dvd : 2 ^ k ∣ 2 ^ 32 - 2 ^ 16 :=
    Nat.dvd_sub (Nat.pow_dvd_pow 2 (by omega)) (Nat.pow_dvd_pow 2 le)
  have up : roundUp n (2 ^ k) ≤ 2 ^ 32 - 2 ^ 16 := roundUp_le pos dvd small
  have split := Nat.div_add_mod n (2 ^ k)
  have lt := Nat.mod_lt n pos
  rw [roundSize, if_neg (by simp [bytes])]
  simp only [file, nand, size, page, Bool.true_and]
  rw [if_pos (by simp), roundUp, ceil_div n pos]
  rw [roundUp, ceil_div n pos] at up
  split_ifs at up ⊢ <;> rw [Nat.add_mul, Nat.mul_comm] at up ⊢
  · rw [Nat.mod_eq_of_lt (by omega)]
    omega
  · omega

lemma le_roundSize (file : t.fileSize = n) (bytes : t.blksz = 0) (small : n ≤ 2 ^ 32 - 2 ^ 16) :
    n ≤ roundSize b t n := by
  cases nand : isNandFlash t.flashType with
  | false => simp [roundSize, nand, bytes, file]
  | true =>
    cases chip : b.nand with
    | none => simp [roundSize, Board.nandWritesize, chip, bytes, file]
    | some c =>
      rw [roundSize_page chip nand file small]
      exact le_roundUp c.writesize_pos

lemma writesize_le_roundSize {c : Chip} (chip : b.nand = some c) (nand : isNandFlash t.flashType = true)
    (file : t.fileSize = n) (pos : 1 ≤ n) (small : n ≤ 2 ^ 32 - 2 ^ 16) :
    c.writesize ≤ roundSize b t n := by
  rw [roundSize_page chip nand file small]
  exact Nat.le_of_dvd (Nat.lt_of_lt_of_le pos (le_roundUp c.writesize_pos)) (dvd_roundUp n _)

end Round

/-! ### What a name resolves to -/

inductive Resolves (b : Board) (ft : SmemBoot) (name : Bytes) (n : Nat) : Target → Prop where
  | empty (ft' : SmemBoot) (dev : Option BlockDev) (layout : Layout)
      (why : b.emmc = none ∨ isNandFlash ft' = true ∨ ft' = ft ∧ ft ∉ [.mmcFlash, .noFlash, .spiFlash]) :
      Resolves b ft name n ⟨ft', 0, 0, n, 0, dev, layout, false⟩
  | nand (p : Ptn) (size : Nat) (boot : isNandFlash ft = true) (found : b.smemFind name = some p)
      (part : b.smemGetpart name = some (p.start, size)) :
      Resolves b ft name n ⟨ft, b.blockSize * p.start % 2 ^ 32, b.blockSize * size % 2 ^ 32, n, 0, none,
        nandLayout b name, false⟩
  | flagged (p : Ptn) (offset size : Nat) (boot : ft = .spiFlash)
      (flag : b.getWhichFlashParam name > 0) (found : b.smemFind name = some p)
      (part : b.getpartOffsetSize name = some (offset, size)) :
      Resolves b ft name n ⟨.nandFlash, offset, size, n, 0, none, .default, false⟩
  | slot (boot : ft = .spiFlash) (noFlag : ¬ b.getWhichFlashParam name > 0)
      (rootfs : (b.secondaryNand && isRootfs name && b.rootfsUnset) = true) (nand : isNandFlash b.secondary = true) :
      Resolves b ft name n ⟨b.secondary, b.activeRootfs * ipqNandRootfsSize % 2 ^ 32, ipqNandRootfsSize, n, 0,
        none, .default, false⟩
  | emmc (d : BlockDev) (g : GptPart) (dev : b.emmc = some d)
      (found : gptByName name (d.gpt.take 127) = some g)
      (here : ft = .mmcFlash ∨ ft = .noFlash ∨ ft = .spiFlash ∧ ¬ b.getWhichFlashParam name > 0 ∧
        (b.secondaryNand && isRootfs name) = false ∧ onEmmc b name = true) :
      Resolves b ft name n ⟨.mmcFlash, (g.info d.blksz).start, (g.info d.blksz).size, n, d.blksz, some d,
        .default, false⟩
  | nor (p : Ptn) (size : Nat) (boot : ft = .spiFlash)
      (noFlag : ¬ b.getWhichFlashParam name > 0) (noSlot : (b.secondaryNand && isRootfs name) = false)
      (noEmmc : onEmmc b name = false) (found : b.smemFind name = some p)
      (part : b.smemGetpart name = some (p.start, size)) :
      Resolves b ft name n ⟨.spiFlash, b.blockSize * p.start % 2 ^ 32, b.blockSize * size % 2 ^ 32, n, 0, none,
        .default, b.cleanMarker && name = bytes "rootfs"⟩

section Resolve

variable {b : Board} {name : Bytes} {n : Nat} {t : Target}

lemma smemGetpart_some {start : Nat} (part : b.smemGetpart name = some (start, size)) :
    ∃ p, b.smemFind name = some p ∧ p.start = start := by
  obtain ⟨p, found, eq⟩ := Option.map_eq_some_iff.mp part
  exact ⟨p, found, congrArg Prod.fst eq⟩

lemma getpartOffsetSize_some {offset : Nat} (part : b.getpartOffsetSize name = some (offset, size)) :
    ∃ p, b.smemFind name = some p := by
  obtain ⟨p, found, -⟩ := Option.map_eq_some_iff.mp part
  exact ⟨p, found⟩

lemma resolveSmem_target {marker : Bool}
    (target : resolveSmem b ft layout marker name n = .target t) :
    ∃ p size, b.smemFind name = some p ∧ b.smemGetpart name = some (p.start, size) ∧
      t = ⟨ft, b.blockSize * p.start % 2 ^ 32, b.blockSize * size % 2 ^ 32, n, 0, none, layout, marker⟩ := by
  rw [resolveSmem] at target
  split at target
  · split at target <;> cases target
  · rename_i start size part
    obtain ⟨p, found, rfl⟩ := smemGetpart_some part
    cases target
    exact ⟨p, size, found, part, rfl⟩

lemma resolveEmmc_target (plain : NotGpt name) (target : resolveEmmc d name n = .target t) :
    ∃ g, gptByName name (d.gpt.take 127) = some g ∧
      t = ⟨.mmcFlash, (g.info d.blksz).start, (g.info d.blksz).size, n, d.blksz, some d, .default, false⟩ := by
  rw [resolveEmmc, if_neg plain.1, if_neg plain.2] at target
  split at target
  · cases target
  · rename_i info found
    obtain ⟨g, named, rfl⟩ := Option.map_eq_some_iff.mp found
    cases target
    exact ⟨g, named, rfl⟩

lemma resolves_of_target (plain : NotGpt name)
    (target : resolveFlash b ft name n = .target t) : Resolves b ft name n t := by
  cases ft <;> simp only [resolveFlash] at target
  case nandFlash | qspiNandFlash =>
    obtain ⟨p, size, found, part, rfl⟩ := resolveSmem_target target
    exact .nand p size rfl found part
  case mmcFlash | noFlash =>
    split at target
    · rename_i absent
      cases target
      exact .empty _ _ _ (.inl absent)
    · rename_i d dev
      obtain ⟨g, found, rfl⟩ := resolveEmmc_target plain target
      exact .emmc d g dev found (by simp)
  case spiFlash =>
    split at target
    · rename_i flag
      split at target
      · cases target
      · rename_i offset size part
        cases target
        obtain ⟨p, found⟩ := getpartOffsetSize_some part
        exact .flagged p offset size rfl flag found part
    · rename_i noFlag
      split at target
      · rename_i slot
        have nand : isNandFlash b.secondary = true := (Bool.and_eq_true_iff.mp slot).1
        split at target <;> cases target
        · rename_i unset
          exact .slot rfl noFlag (by simp [slot, unset]) nand
        · exact .empty _ _ _ (.inr (.inl nand))
      · rename_i noSlot
        simp only [Bool.not_eq_true] at noSlot
        split at target
        · rename_i here
          split at target
          · cases target
          · rename_i d dev
            obtain ⟨g, found, rfl⟩ := resolveEmmc_target plain target
            exact .emmc d g dev found (.inr (.inr ⟨rfl, noFlag, noSlot, here⟩))
        · rename_i noEmmc
          obtain ⟨p, size, found, part, rfl⟩ := resolveSmem_target target
          exact .nor p size rfl noFlag noSlot (by simpa using noEmmc) found part
  all_goals
    cases target
    exact .empty _ _ _ (.inr (.inr ⟨rfl, by decide⟩))

/-! ### The resolved range -/

def Inside (b : Board) (name : Bytes) (t : Target) : Prop :=
  ∃ dev lo hi, deviceOf t.flashType = some dev ∧ assigned b name = some (dev, lo, hi) ∧ lo ≤ t.offset ∧
    t.offset + t.partSize ≤ hi

lemma inside_of_entry {dev : Device} {unit : Nat} (device : deviceOf t.flashType = some dev)
    (range : assigned b name = some (dev, p.start * unit, p.stop unit size))
    (offset : t.offset = p.start * unit) (sized : t.partSize = part)
    (explicit : p.size ≠ tillEnd → part ≤ p.size * unit)
    (rest : p.size = tillEnd → p.start * unit + part ≤ size) : Inside b name t := by
  refine ⟨dev, _, _, device, range, by rw [offset], ?_⟩
  rw [offset, sized, Ptn.stop]
  split
  · rename_i till
    exact rest till
  · rename_i fixed
    have := explicit fixed
    omega

lemma smemGetpart_size {start : Nat} (found : b.smemFind name = some p)
    (part : b.smemGetpart name = some (start, size)) (explicit : p.size ≠ tillEnd) : size = p.size := by
  rw [Board.smemGetpart, found, Option.map_some, if_neg explicit] at part
  simp only [Option.some.injEq, Prod.mk.injEq] at part
  exact part.2.symm

lemma inside_of_smem {dev : Device} {room : Nat} (device : deviceOf t.flashType = some dev)
    (range : assigned b name = some (dev, p.start * b.blockSize, p.stop b.blockSize room))
    (found : b.smemFind name = some p) (part : b.smemGetpart name = some (p.start, size))
    (offset : t.offset = b.blockSize * p.start % 2 ^ 32) (sized : t.partSize = b.blockSize * size % 2 ^ 32)
    (low : p.start * b.blockSize < 2 ^ 32)
    (rest : p.size = tillEnd → p.start * b.blockSize + b.blockSize * size % 2 ^ 32 ≤ room) : Inside b name t := by
  rw [Nat.mul_comm, Nat.mod_eq_of_lt low] at offset
  refine inside_of_entry device range offset sized (fun explicit => ?_) rest
  rw [smemGetpart_size found part explicit, Nat.mul_comm p.size]
  exact Nat.mod_le _ _

lemma assigned_nand {c : Chip} (chip : b.nand = some c) (boot : isNandFlash b.flashType = true)
    (found : b.smemFind name = some p) :
    assigned b name = some (.nand, p.start * b.blockSize, p.stop b.blockSize c.size) := by
  rw [assigned, if_pos boot, found, Board.nandSize, chip]
  rfl

lemma assigned_flagged {c : Chip} (chip : b.nand = some c) (boot : b.flashType = .spiFlash)
    (flag : b.getWhichFlashParam name > 0) (found : b.smemFind name = some p) :
    assigned b name = some (.nand, p.start * b.getPartBlockSize p, p.stop (b.getPartBlockSize p) c.size) := by
  rw [assigned, boot, if_neg (by decide), if_neg (by decide), if_pos rfl, if_pos flag, found, Board.nandSize, chip]
  rfl

lemma assigned_slot (boot : b.flashType = .spiFlash) (noFlag : ¬ b.getWhichFlashParam name > 0)
    (rootfs : (b.secondaryNand && isRootfs name && b.rootfsUnset) = true) : assigned b name =
      some (.nand, b.activeRootfs * ipqNandRootfsSize, (b.activeRootfs + 1) * ipqNandRootfsSize) := by
  rw [assigned, boot, if_neg (by decide), if_neg (by decide), if_pos rfl, if_neg noFlag, if_pos rootfs]

lemma entry_of_gptByName (found : gptByName name (d.gpt.take 127) = some g) :
    d.entry name = some g := by
  have keep : ∀ t rest : List (Option GptPart), gptByName name t = some g →
      (((t ++ rest).filterMap id).find? fun g => g.name = name) = some g := by
    intro t rest found
    induction t with
    | nil => cases found
    | cons slot t ih =>
      cases slot with
      | none => cases found
      | some g' =>
        rw [gptByName] at found
        split at found
        · rename_i same
          cases found
          simp [same]
        · rename_i other
          have step : (some g' :: t ++ rest).filterMap id = g' :: (t ++ rest).filterMap id := rfl
          rw [step, List.find?_cons_of_neg (by simpa using Ne.symm other)]
          exact ih found
  have all := keep _ (d.gpt.drop 127) found
  rwa [List.take_append_drop] at all

section

variable (inside : TablesInside b)
include inside

lemma info_eq (dev : b.emmc = some d)
    (found : gptByName name (d.gpt.take 127) = some g) :
    (g.info d.blksz).start = g.startingLba ∧ (g.info d.blksz).size = g.endingLba + 1 - g.startingLba := by
  have lies := inside.gpt d g dev (List.mem_of_mem_take (gptByName_mem found))
  have lt := d.lba_lt
  have start : g.startingLba % 2 ^ 32 = g.startingLba := Nat.mod_eq_of_lt (by omega)
  have stop : g.endingLba % 2 ^ 32 = g.endingLba := Nat.mod_eq_of_lt (by omega)
  refine ⟨start, ?_⟩
  simp only [GptPart.info, start, stop]
  omega

lemma assigned_onEmmc (boot : b.flashType = .spiFlash) (noFlag : ¬ b.getWhichFlashParam name > 0)
    (noSlot : (b.secondaryNand && isRootfs name) = false) (here : onEmmc b name = true) :
    assigned b name = gptRange b name := by
  rw [assigned, boot, if_neg (by decide), if_neg (by decide), if_pos rfl, if_neg noFlag,
    if_neg (by rw [noSlot, Bool.false_and]; decide)]
  simp only [onEmmc, Bool.and_eq_true, Bool.or_eq_true, decide_eq_true_eq] at here
  cases found : b.smemFind name with
  | none => rfl
  | some p =>
    simp only
    rw [if_pos]
    have flag : p.which = 0 := by
      rw [getWhichFlashParam_eq inside.names, found] at noFlag
      simpa using noFlag
    obtain ⟨⟨k, low, block⟩, le⟩ := b.norBoot boot
    have nonempty : b.norSize / b.blockSize ≠ 0 := by
      have := Nat.two_pow_pos k
      exact Nat.ne_of_gt (Nat.div_pos le (by omega))
    have quot := Nat.div_le_self b.norSize b.blockSize
    have lt := b.norSize_lt
    rw [Board.smemGetpart, found, Option.map_some] at here
    simp only [Board.deviceSizeByPart, Board.getPartBlockSize, flag, Bool.and_eq_true,
      decide_eq_true_eq, if_neg (show ¬ (0 : Nat) = 1 by decide)] at here
    generalize b.norSize / b.blockSize = blocks at *
    obtain ⟨beside, zero, size⟩ := here
    refine ⟨beside, zero, ?_⟩
    -- A partition that reaches to the end of the NOR has at least one block.
    split at size
    · omega
    · exact size

lemma assigned_gpt (here : b.flashType = .mmcFlash ∨ b.flashType = .noFlash ∨
      b.flashType = .spiFlash ∧ ¬ b.getWhichFlashParam name > 0 ∧ (b.secondaryNand && isRootfs name) = false ∧
        onEmmc b name = true) : assigned b name = gptRange b name := by
  rcases here with boot | boot | ⟨boot, noFlag, noSlot, here⟩
  · rw [assigned, boot, if_neg (by decide), if_pos (.inl rfl)]
  · rw [assigned, boot, if_neg (by decide), if_pos (.inr rfl)]
  · exact assigned_onEmmc inside boot noFlag noSlot here

lemma inside_emmc (dev : b.emmc = some d)
    (found : gptByName name (d.gpt.take 127) = some g) (range : assigned b name = gptRange b name) :
    Inside b name ⟨.mmcFlash, (g.info d.blksz).start, (g.info d.blksz).size, n, d.blksz, some d, .default, false⟩ := by
  have lies := inside.gpt d g dev (List.mem_of_mem_take (gptByName_mem found))
  obtain ⟨start, size⟩ := info_eq inside dev found
  refine ⟨.emmc, g.startingLba, g.endingLba + 1, rfl, ?_, ?_, ?_⟩
  · rw [range, gptRange, dev]
    simp only [entry_of_gptByName found, Option.map_some]
  · exact Nat.le_of_eq start.symm
  · simp only [start, size]
    omega

lemma nor_placed (boot : b.flashType = .spiFlash)
    (noFlag : ¬ b.getWhichFlashParam name > 0) (found : b.smemFind name = some p)
    (part : b.smemGetpart name = some (p.start, size)) :
    p.start * b.blockSize ≤ b.norSize ∧ p.stop b.blockSize b.norSize ≤ b.norSize ∧
      (p.size = tillEnd → p.start * b.blockSize + b.blockSize * size % 2 ^ 32 ≤ b.norSize) := by
  have flag : p.which = 0 := by
    rw [getWhichFlashParam_eq inside.names, found] at noFlag
    simpa using noFlag
  have home : p.home b = (b.blockSize, b.norSize) := by
    rw [Ptn.home, boot, if_neg (by decide), if_neg (by omega)]
  have lies := inside.smem p (smemFind_mem found).1
  rw [home] at lies
  refine ⟨Nat.le_trans lies.1 lies.2, lies.2, fun till => ?_⟩
  obtain ⟨⟨k, low, block⟩, le⟩ := b.norBoot boot
  have pos : 0 < b.blockSize := by
    rw [block]
    exact Nat.two_pow_pos k
  have start : p.start ≤ b.norSize / b.blockSize :=
    (Nat.le_div_iff_mul_le pos).mpr (Nat.le_trans lies.1 lies.2)
  have lt := b.norSize_lt
  have quot := Nat.div_le_self b.norSize b.blockSize
  rw [Board.smemGetpart, found, Option.map_some, if_pos till] at part
  simp only [Board.deviceSizeByPart, Board.getPartBlockSize, flag, Option.some.injEq, Prod.mk.injEq] at part
  obtain ⟨-, rfl⟩ := part
  simp only [if_neg (show ¬ (0 : Nat) = 1 by decide)]
  have whole := Nat.mul_div_le b.norSize b.blockSize
  generalize b.norSize / b.blockSize = q at *
  have blocks : (q + 2 ^ 32 - p.start) % 2 ^ 32 = q - p.start := by omega
  rw [blocks, Nat.mul_sub]
  have scaled : b.blockSize * p.start ≤ b.blockSize * q := Nat.mul_le_mul_left _ start
  rw [Nat.mod_eq_of_lt (by omega), Nat.mul_comm p.start]
  omega

end

lemma assigned_nor (boot : b.flashType = .spiFlash)
    (noFlag : ¬ b.getWhichFlashParam name > 0) (noSlot : (b.secondaryNand && isRootfs name) = false)
    (noEmmc : onEmmc b name = false) (found : b.smemFind name = some p)
    (part : b.smemGetpart name = some (p.start, size)) :
    assigned b name = some (.nor, p.start * b.blockSize, p.stop b.blockSize b.norSize) := by
  rw [assigned, boot, if_neg (by decide), if_neg (by decide), if_pos rfl, if_neg noFlag,
    if_neg (by rw [noSlot, Bool.false_and]; decide), found]
  simp only
  rw [if_neg]
  rintro ⟨beside, zero, empty⟩
  have explicit : p.size ≠ tillEnd := by rw [empty]; decide
  rw [onEmmc, part, smemGetpart_size found part explicit] at noEmmc
  simp only [zero, empty, decide_true, Bool.and_true, Bool.or_eq_false_iff, decide_eq_false_iff_not] at noEmmc
  rcases beside with mmc | unset
  · exact noEmmc.1 mmc
  · rw [unset] at noEmmc
    exact Bool.noConfusion noEmmc.2

lemma inside_nor (inside : TablesInside b) {marker : Bool}
    (boot : b.flashType = .spiFlash) (noFlag : ¬ b.getWhichFlashParam name > 0)
    (noSlot : (b.secondaryNand && isRootfs name) = false) (noEmmc : onEmmc b name = false)
    (found : b.smemFind name = some p) (part : b.smemGetpart name = some (p.start, size)) :
    Inside b name ⟨.spiFlash, b.blockSize * p.start % 2 ^ 32, b.blockSize * size % 2 ^ 32, n, 0, none,
      .default, marker⟩ := by
  obtain ⟨low, -, till⟩ := nor_placed inside boot noFlag found part
  have lt := b.norSize_lt
  exact inside_of_smem rfl (assigned_nor boot noFlag noSlot noEmmc found part) found part rfl rfl (by omega) till

lemma Resolves.inside (tables : TablesInside b) (within : Within b name)
    (resolves : Resolves b b.flashType name n t) (pos : 1 ≤ n) (small : n ≤ 2 ^ 32 - 2 ^ 16)
    (accepted : roundSize b t n ≤ t.partSize) :
    isNandFlash t.flashType = true ∧ b.nand = none ∨ Inside b name t := by
  have least (file : t.fileSize = n) (bytes : t.blksz = 0) : n ≤ t.partSize :=
    Nat.le_trans (le_roundSize file bytes small) accepted
  by_cases absent : isNandFlash t.flashType = true ∧ b.nand = none
  · exact .inl absent
  right
  have present (nand : isNandFlash t.flashType = true) : ∃ c, b.nand = some c :=
    Option.ne_none_iff_exists'.mp fun none => absent ⟨nand, none⟩
  have page (c : Chip) (chip : b.nand = some c) (nand : isNandFlash t.flashType = true)
      (file : t.fileSize = n) : c.writesize ≤ t.partSize :=
    Nat.le_trans (writesize_le_roundSize chip nand file pos small) accepted
  cases resolves with
  | empty ft dev layout => exact absurd (least rfl rfl) (Nat.not_le_of_lt pos)
  | nand p size boot found part =>
    obtain ⟨c, chip⟩ := present boot
    rw [Within, if_pos boot] at within
    rcases within p _ size found part c chip with tiny | ⟨low, rest⟩
    · exact absurd (page c chip boot rfl) (Nat.not_le_of_lt tiny)
    · exact inside_of_smem (deviceOf_nand boot) (assigned_nand chip boot found) found part rfl rfl low rest
  | flagged p offset size boot flag found part =>
    obtain ⟨c, chip⟩ := present rfl
    rw [Within, boot, if_neg (by decide), if_pos rfl, if_pos flag] at within
    rcases within p offset size found part c chip with tiny | ⟨low, rest⟩
    · exact absurd (page c chip rfl rfl) (Nat.not_le_of_lt tiny)
    rw [Board.getpartOffsetSize, found, Option.map_some] at part
    simp only [Option.some.injEq, Prod.mk.injEq] at part
    refine inside_of_entry rfl (assigned_flagged chip boot flag found) ?_ rfl (fun explicit => ?_) rest
    · rw [← part.1, Nat.mod_eq_of_lt low]
    · rw [← part.2, if_neg explicit]
      exact Nat.mod_le _ _
  | slot boot noFlag rootfs nand =>
    obtain ⟨c, chip⟩ := present nand
    rw [Within, boot, if_neg (by decide), if_pos rfl, if_neg noFlag] at within
    have low := within rootfs (by simp [chip])
    refine ⟨_, _, _, deviceOf_nand nand, assigned_slot boot noFlag rootfs, ?_⟩
    simp only [Nat.mod_eq_of_lt low, Nat.succ_mul, Nat.le_refl, and_self]
  | emmc d g dev found here =>
    exact inside_emmc tables dev found (assigned_gpt tables here)
  | nor p size boot noFlag noSlot noEmmc found part =>
    exact inside_nor tables boot noFlag noSlot noEmmc found part

lemma Resolves.covers (resolves : Resolves b ft name n t)
    (pos : 1 ≤ n) (small : n ≤ 2 ^ 32 - 2 ^ 16) (accepted : roundSize b t n ≤ t.partSize)
    (mem : c ∈ writeToFlash t.flashType addr t.offset t.partSize (roundSize b t n) t.layout)
    (file : c.fileBytes b = some k) : n ≤ k := by
  rcases writeToFlash_mem mem with ⟨-, none⟩ | ⟨dev, device, ⟨-, none⟩ | ⟨-, bytes⟩⟩
  · cases (none b).symm.trans file
  · cases (none b).symm.trans file
  rw [bytes] at file
  split_ifs at file with mmc
  · obtain ⟨d, disk, rfl⟩ := Option.map_eq_some_iff.mp file
    cases resolves with
    | emmc d' g disk' found here =>
      cases disk.symm.trans disk'
      rw [roundSize_mmc rfl d.blksz_pos rfl]
      exact le_roundUp d.blksz_pos
    | empty ft' dev' layout =>
      have : n ≤ 0 := Nat.le_trans (le_roundSize rfl rfl small) accepted
      omega
    | nand p size nand | slot boot noFlag rootfs nand =>
      cases device.symm.trans (deviceOf_nand nand)
      cases device.symm.trans (congrArg deviceOf mmc)
    | flagged | nor => cases mmc
  · cases file
    cases resolves with
    | emmc => exact absurd rfl mmc
    | _ => exact le_roundSize rfl rfl small

lemma IsMarker.range (isMarker : IsMarker b t size c) (wide : 12 ≤ b.blockSize)
    (whole : b.blockSize ∣ t.partSize) (small : t.offset + t.partSize < 2 ^ 32) (le : size ≤ t.partSize) :
    ∃ off, c = .sfWriteBuf off cleanmarker ∧ t.offset ≤ off ∧ off + 12 ≤ t.offset + t.partSize := by
  obtain ⟨j, lt, rfl⟩ := isMarker
  have pos : 0 < b.blockSize := by omega
  have up := roundUp_le pos whole le
  have dvd := dvd_roundUp size b.blockSize
  generalize roundUp size b.blockSize = a at *
  have aligned : a % 2 ^ 32 = a := Nat.mod_eq_of_lt (by omega)
  have left : (t.partSize + 2 ^ 32 - a) % 2 ^ 32 = t.partSize - a := by omega
  rw [aligned, left] at lt
  have blocks := roundUp_of_dvd pos (Nat.dvd_sub whole dvd)
  have end_le : (j + 1) * b.blockSize ≤ t.partSize - a := by
    rw [roundUp] at blocks
    exact Nat.le_trans (Nat.mul_le_mul_right _ lt) (Nat.le_of_eq blocks)
  rw [Nat.succ_mul] at end_le
  exact ⟨_, rfl, by omega, by omega⟩

lemma Resolves.marker (tables : TablesInside b)
    (resolves : Resolves b ft name n t) (boot : ft = b.flashType) (marks : t.cleanMarker = true)
    (isMarker : IsMarker b t size c) (le : size ≤ t.partSize) :
    ∃ off, c = .sfWriteBuf off cleanmarker ∧ deviceOf t.flashType = some .nor ∧ t.offset ≤ off ∧
      off + 12 ≤ t.offset + t.partSize := by
  cases resolves with
  | nor p size' spi noFlag noSlot noEmmc found part =>
    subst boot
    obtain ⟨⟨k, low, block⟩, -⟩ := b.norBoot spi
    have lt : 2 ^ k < 2 ^ 32 := block ▸ b.blockSize_lt
    have wide : 12 ≤ b.blockSize := by
      have := Nat.pow_le_pow_right (n := 2) (by omega) low
      omega
    have dvd : b.blockSize ∣ 2 ^ 32 := by
      rw [block]
      exact Nat.pow_dvd_pow 2 (Nat.le_of_lt ((Nat.pow_lt_pow_iff_right (by omega)).mp lt))
    have whole : b.blockSize ∣ b.blockSize * size' % 2 ^ 32 :=
      (Nat.dvd_mod_iff dvd).mpr (Nat.dvd_mul_right _ _)
    obtain ⟨dev, lo, hi, -, range, -, stop⟩ :=
      inside_nor (n := n) tables spi noFlag noSlot noEmmc found part
    rw [assigned_nor spi noFlag noSlot noEmmc found part] at range
    cases range
    obtain ⟨-, last, -⟩ := nor_placed tables spi noFlag found part
    have small := b.norSize_lt
    obtain ⟨off, rfl, above, below⟩ :=
      isMarker.range wide whole (Nat.lt_of_le_of_lt (Nat.le_trans stop last) small) le
    exact ⟨off, rfl, rfl, above, below⟩
  | _ => cases marks

lemma contained_of_within {io : Io} (plain : NotGpt name) (tables : TablesInside b)
    (within : Within b name) (noOverride : w.flashTypeNew = none) (pos : 1 ≤ n)
    (small : n ≤ 2 ^ 32 - 2 ^ 16) : Contained b name n (issued b io name addr n w) := by
  obtain ⟨run, log, all⟩ : Issues _ w (doFlash b io name addr n w).2 := doFlash_issues plain
  rw [noOverride, Option.getD_none] at all
  rw [issued, log, List.drop_left]
  constructor
  · intro c mem dev off len range
    rcases all c mem with rfl | ⟨t, target, accepted, made⟩
    · cases range
    have resolves := resolves_of_target plain target
    rcases resolves.inside tables within pos small accepted with ⟨nand, absent⟩ | inside
    · rcases made with ⟨-, only⟩ | ⟨marks, isMarker⟩
      · rw [only nand absent] at range
        cases range
      · obtain ⟨o, -, device, -⟩ := resolves.marker tables rfl marks isMarker accepted
        rw [deviceOf_nand nand] at device
        cases device
    · obtain ⟨dev', lo, hi, device, assigned, above, below⟩ := inside
      rcases made with ⟨made, -⟩ | ⟨marks, isMarker⟩
      · obtain ⟨same, rfl, le⟩ := writeToFlash_range made accepted range
        cases device.symm.trans same
        exact ⟨lo, hi, assigned, above, by omega⟩
      · obtain ⟨o, rfl, nor, low, high⟩ := resolves.marker tables rfl marks isMarker accepted
        cases device.symm.trans nor
        cases range
        exact ⟨lo, hi, assigned, by omega, Nat.le_trans high below⟩
  · intro c mem k file
    rcases all c mem with rfl | ⟨t, target, accepted, made⟩
    · cases file
    rcases made with ⟨made, -⟩ | ⟨marks, isMarker⟩
    · exact (resolves_of_target plain target).covers pos small accepted made file
    · obtain ⟨j, -, rfl⟩ := isMarker
      cases file

end Resolve

/-! ### The condition is needed -/

section Needed

variable {b : Board} {name : Bytes} {t : Target} {c : Chip}

lemma mem_log_runCommand {io : Io} {cmd : Cmd} {pre rest : List Cmd}
    (ok : ∀ x ∈ pre, ∀ w, (exec b io x w).1 = true) (w : World) :
    cmd ∈ (runCommand b io (pre ++ cmd :: rest) w).2.log := by
  induction pre generalizing w with
  | nil =>
    have logged := exec_log b io cmd w
    have here : cmd ∈ (exec b io cmd w).2.log := by
      rw [logged]
      exact List.mem_append_right _ List.mem_cons_self
    rw [List.nil_append, runCommand]
    split <;> rename_i w₁ eq <;> rw [eq] at here
    · obtain ⟨run, -, log⟩ := runCommand_log b io rest w₁
      rw [log]
      exact List.mem_append_left _ here
    · exact here
  | cons x pre ih =>
    have done := ok x List.mem_cons_self w
    rw [List.cons_append, runCommand]
    split <;> rename_i w₁ eq <;> rw [eq] at done
    · exact ih (fun y mem => ok y (List.mem_cons_of_mem x mem)) w₁
    · cases done

lemma erase_issued {n : Nat} (chip : b.nand = some c) (nand : isNandFlash t.flashType = true)
    (target : resolveFlash b (w.flashTypeNew.getD b.flashType) name n = .target t)
    (accepted : roundSize b t n ≤ t.partSize) (fresh : w.log = []) :
    .nandErase t.offset t.partSize ∈ issued b sound name 0 n w := by
  rw [issued, fresh, List.length_nil, List.drop_zero, doFlash_log, flashResolved_nand target nand accepted,
    writeToFlash_line nand, ← List.cons_append]
  refine mem_log_runCommand (fun x mem w' => ?_) w
  rcases List.mem_cons.mp mem with rfl | layouts
  · simp [exec_sound, effect, chip]
  · split at layouts
    · obtain rfl := List.mem_singleton.mp layouts
      rfl
    · cases layouts

lemma roundSize_one (chip : b.nand = some c) (nand : isNandFlash t.flashType = true)
    (file : t.fileSize = 1) : roundSize b t 1 = c.writesize := by
  rw [roundSize_page chip nand file (by decide), roundUp, Nat.add_sub_cancel_left, Nat.div_self c.writesize_pos,
    Nat.one_mul]

lemma resolved_inside (contained : Contained b name 1 (issued b sound name 0 1 idle)) (chip : b.nand = some c)
    (nand : isNandFlash t.flashType = true) (target : resolveFlash b b.flashType name 1 = .target t)
    (file : t.fileSize = 1) (page : c.writesize ≤ t.partSize) :
    ∃ lo hi, assigned b name = some (.nand, lo, hi) ∧ lo ≤ t.offset ∧ t.offset + t.partSize ≤ hi :=
  contained.ranges _ (erase_issued chip nand target (by rw [roundSize_one chip nand file]; exact page) rfl)
    .nand t.offset t.partSize rfl

lemma fitsNand_of_inside (name : Bytes) {unit : Nat}
    (range : ∀ c, b.nand = some c → assigned b name = some (.nand, p.start * unit, p.stop unit c.size))
    (inside : ∀ c, b.nand = some c → c.writesize ≤ part → ∃ lo hi, assigned b name = some (.nand, lo, hi) ∧
      lo ≤ p.start * unit % 2 ^ 32 ∧ p.start * unit % 2 ^ 32 + part ≤ hi) :
    FitsNand b p (p.start * unit) part := by
  intro c chip
  rcases Nat.lt_or_ge part c.writesize with tiny | page
  · exact .inl tiny
  obtain ⟨lo, hi, assigned, above, below⟩ := inside c chip page
  rw [range c chip] at assigned
  cases assigned
  have low : p.start * unit < 2 ^ 32 := by
    have := Nat.mod_lt (p.start * unit) (Nat.two_pow_pos 32)
    omega
  refine .inr ⟨low, fun till => ?_⟩
  rwa [Nat.mod_eq_of_lt low, Ptn.stop, if_pos till] at below

lemma within_of_contained (contained : Contained b name 1 (issued b sound name 0 1 idle)) :
    Within b name := by
  rw [Within]
  split
  · rename_i boot
    intro p start size found part
    have resolved : resolveFlash b b.flashType name 1 = .target ⟨b.flashType, b.blockSize * start % 2 ^ 32,
        b.blockSize * size % 2 ^ 32, 1, 0, none, nandLayout b name, false⟩ := by
      cases ft : b.flashType <;> rw [ft] at boot
      case nandFlash | qspiNandFlash => simp only [resolveFlash, resolveSmem, part]
      all_goals cases boot
    obtain ⟨p', found', rfl⟩ := smemGetpart_some part
    cases found.symm.trans found'
    refine fitsNand_of_inside name (fun c chip => ?_) (fun c chip page => ?_)
    · exact assigned_nand chip boot found
    · rw [Nat.mul_comm p.start]
      exact resolved_inside contained chip boot resolved rfl page
  · split
    · rename_i spi
      split
      · rename_i flag
        intro p offset size found part
        have resolved : resolveFlash b b.flashType name 1 =
            .target ⟨.nandFlash, offset, size, 1, 0, none, .default, false⟩ := by
          simp only [spi, resolveFlash, if_pos flag, part]
        have place : offset = p.start * b.getPartBlockSize p % 2 ^ 32 := by
          rw [Board.getpartOffsetSize, found, Option.map_some] at part
          exact (congrArg Prod.fst (Option.some.inj part)).symm
        refine fitsNand_of_inside name (fun c chip => ?_) (fun c chip page => ?_)
        · exact assigned_flagged chip spi flag found
        · rw [← place]
          exact resolved_inside contained chip rfl resolved rfl page
      · rename_i noFlag
        intro rootfs present
        obtain ⟨c, chip⟩ := Option.ne_none_iff_exists'.mp present
        have here := rootfs
        simp only [Bool.and_eq_true] at here
        have nand : isNandFlash b.secondary = true := here.1.1
        have resolved : resolveFlash b b.flashType name 1 = .target ⟨b.secondary,
            b.activeRootfs * ipqNandRootfsSize % 2 ^ 32, ipqNandRootfsSize, 1, 0, none, .default, false⟩ := by
          simp only [spi, resolveFlash, if_neg noFlag, here.1.1, here.1.2, here.2, Bool.and_self, if_true]
        have page : c.writesize ≤ ipqNandRootfsSize := by
          obtain ⟨k, le, eq⟩ := c.page
          rw [eq]
          exact Nat.le_trans (Nat.pow_le_pow_right (by omega) le) (by decide)
        obtain ⟨lo, hi, range, above, -⟩ :=
          resolved_inside contained chip nand resolved rfl page
        rw [assigned_slot spi noFlag rootfs] at range
        cases range
        have := Nat.mod_lt (b.activeRootfs * ipqNandRootfsSize) (Nat.two_pow_pos 32)
        simp only at above
        omega
    · trivial

end Needed

/-- Every erase and write of `flash` lies in the range that the tables assign to the name, and covers
the file, exactly where the resolved range is the assigned one. -/
theorem flash_contained_iff (b : Board) (name : Bytes)
    (plain : name ≠ gptPartName ∧ name ≠ gptBackupPartName) (tables : TablesInside b) :
    (∀ io addr n w, w.flashTypeNew = none → 1 ≤ n → n ≤ 2 ^ 32 - 2 ^ 16 →
      Contained b name n (issued b io name addr n w)) ↔ Within b name := by
  constructor
  · intro contained
    exact within_of_contained (contained sound 0 1 idle rfl (by decide) (by decide))
  · intro within io addr n w noOverride pos small
    exact contained_of_within plain tables within noOverride pos small

def nandBoard (attr : Nat) : Board where
  ipq806x := false
  cleanMarker := false
  flashType := .nandFlash
  secondary := .noFlash
  blockSize := 2 ^ 17
  rootfsUnset := false
  activeRootfs := 0
  table := [.entry (bytes "rootfs") 1 tillEnd attr]
  ubiVolPresent := fun _ => false
  nand := some ⟨2 ^ 27, 2 ^ 11, 2 ^ 17, 64, fun _ => false, ⟨11, by decide, rfl⟩, ⟨17, by decide, rfl⟩,
    by decide, by decide, by decide, by decide⟩
  norSize := 0
  norSector := 2 ^ 16
  emmc := none
  blockSize_lt := by decide
  norSize_lt := noNor_lt
  norBoot := fun boot => by cases boot

lemma nandBoard_tables (attr : Nat) : TablesInside (nandBoard attr) where
  names := List.nodup_singleton _
  smem := by
    intro p mem
    obtain rfl := List.mem_singleton.mp mem
    have home (p : Ptn) : p.home (nandBoard attr) = (2 ^ 17, 2 ^ 27) := rfl
    simp [Ptn.entry, home, Ptn.stop, tillEnd]
  gpt := by
    intro d g dev
    cases dev

lemma rootfs_plain : bytes "rootfs" ≠ gptPartName ∧ bytes "rootfs" ≠ gptBackupPartName := by decide

/-- With the flag of the NAND the size of the rootfs is computed from the NAND. -/
theorem flash_contained_nandBoard :
    Within (nandBoard 0x0100ffff) (bytes "rootfs") ∧
      Contained (nandBoard 0x0100ffff) (bytes "rootfs") 1
        (issued (nandBoard 0x0100ffff) sound (bytes "rootfs") 0 1 idle) := by
  have within : Within (nandBoard 0x0100ffff) (bytes "rootfs") := by
    rw [Within, if_pos (by decide)]
    intro p start size found part c chip
    have entry : (nandBoard 0x0100ffff).smemGetpart (bytes "rootfs") = some (1, 1023) := by decide
    rw [entry] at part
    cases part
    cases found
    cases chip
    exact .inr ⟨by decide, fun _ => by decide⟩
  exact ⟨within, (flash_contained_iff (nandBoard 0x0100ffff) (bytes "rootfs") rootfs_plain
    (nandBoard_tables _)).mpr within sound 0 1 idle rfl (by decide) (by decide)⟩

/-- With the flag of the NOR the size is computed from the NOR, whose size is 0: flashing one byte erases
from the start of the rootfs to 4 GiB on a NAND of 128 MiB. -/
theorem flash_past_assigned_range :
    assigned (nandBoard 0x0000ffff) (bytes "rootfs") = some (.nand, 2 ^ 17, 2 ^ 27) ∧
    .nandErase (2 ^ 17) (2 ^ 32 - 2 ^ 17) ∈ issued (nandBoard 0x0000ffff) sound (bytes "rootfs") 0 1 idle ∧
    ¬ Contained (nandBoard 0x0000ffff) (bytes "rootfs") 1
      (issued (nandBoard 0x0000ffff) sound (bytes "rootfs") 0 1 idle) := by
  have range : assigned (nandBoard 0x0000ffff) (bytes "rootfs") = some (.nand, 2 ^ 17, 2 ^ 27) := by decide
  have erase : .nandErase (2 ^ 17) (2 ^ 32 - 2 ^ 17) ∈
      issued (nandBoard 0x0000ffff) sound (bytes "rootfs") 0 1 idle := by decide
  refine ⟨range, erase, fun contained => ?_⟩
  obtain ⟨lo, hi, assigned, -, below⟩ := contained.ranges _ erase _ _ _ rfl
  rw [range] at assigned
  cases assigned
  revert below
  decide

end ResQBoot.Flash
