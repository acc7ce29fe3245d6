import ResQBoot.Board.Macaddr
import ResQBoot.Lib.Script

/-!
# Failures of the device in a MAC edit

The edits as scripts of device commands, each of which may fail. The eMMC reports a failure by the number 0 of
blocks, which the loops of `art_read` and `art_write` take for a success.
-/

namespace ResQBoot

open Failsafe (isValidEthaddr)

namespace Art

/-! ### The scripts -/

inductive Cmd where
  | alloc
  | probe
  | mmcRead (block : Nat) (blkBuf : Bytes)
  | mmcWrite (block : Nat) (data : Bytes)
  | norRead (addr size : Nat)
  | norErase (addr size : Nat)
  | norWrite (addr : Nat) (data : Bytes)
  | nandRead (addr size : Nat)
  | nandErase (addr size : Nat)
  | nandWrite (addr : Nat) (data : Bytes)
  deriving DecidableEq, Repr

structure Reply where
  coded : Bool
  short : Bool
  errno : Nat
  data : Bytes
  deriving DecidableEq, Repr

def Reply.failed (r : Reply) : Bool := r.coded || r.short

def Reply.blocks (r : Reply) : Int := if r.failed then 0 else 1

def Reply.norRet (r : Reply) : Int := if r.failed then -(r.errno + 1) else 0

def Reply.nandRet (r : Reply) : Int := if r.coded then -(r.errno + 1) else if r.short then r.errno else 0

def Reply.eraseRet (r : Reply) : Int := if r.coded then -(r.errno + 1) else if r.short then r.errno + 1 else 0

abbrev Run (ρ : Type) := Script Cmd Reply ρ

def mmcReadLoop (blksz blkOff intra size : Nat) : Nat → Nat → Bytes → Bytes → Int → Run (Int × Bytes)
  | 0, _, _, buf, ret => .done (if ret < 0 then ret else 0, buf)
  | n + 1, i, blkBuf, buf, _ =>
    let skip := if i = 0 then intra else 0
    let dstOff := if i = 0 then 0 else i * blksz - intra
    let copyLen := min (size - dstOff) (blksz - skip)
    .issue (.mmcRead (blkOff + i) blkBuf) fun r =>
      if r.blocks < 0 then .done (r.blocks, buf)
      else mmcReadLoop blksz blkOff intra size n (i + 1) r.data (buf ++ (r.data.drop skip).take copyLen) r.blocks

def mmcWriteLoop (blksz blkOff : Nat) (buf : Bytes) : Nat → Nat → Int → Run Int
  | 0, _, ret => .done (if ret < 0 then ret else 0)
  | n + 1, i, _ =>
    let byteOff := i * blksz
    let copyLen := min (buf.length - byteOff) blksz
    let blkBuf := patch (List.replicate blksz 0xFF) 0 ((buf.drop byteOff).take copyLen)
    .issue (.mmcWrite (blkOff + i) blkBuf) fun r =>
      if r.blocks < 0 then .done r.blocks else mmcWriteLoop blksz blkOff buf n (i + 1) r.blocks

def nandLoop (erasesize base start stop : Nat) (buf : Bytes) : Nat → Nat → Int → Run Int
  | 0, _, ret => .done ret
  | fuel + 1, blockOff, ret =>
    if blockOff < stop then
      let dataStart := if start > blockOff then start else blockOff
      let within := dataStart - blockOff
      let chunk := stop - dataStart
      if blockOff < base ∨ chunk > erasesize - within then .done (-22)
      else .issue (.nandRead blockOff erasesize) fun r =>
        if r.nandRet < 0 ∨ r.short then .done (-5)
        else
          let block := patch r.data within ((buf.drop (dataStart - start)).take chunk)
          .issue (.nandErase blockOff erasesize) fun e =>
            if e.eraseRet < 0 then .done e.eraseRet
            else .issue (.nandWrite blockOff block) fun w =>
              if w.nandRet < 0 ∨ w.short then .done (-5)
              else nandLoop erasesize base start stop buf fuel (blockOff + erasesize) w.nandRet
    else .done ret

def artRead (f : ArtFlash) (offset size : Nat) : Run (Int × Bytes) :=
  if f.flashType = .mmcFlash then
    .issue .probe fun p =>
      if p.failed then .done (-19, [])
      else
        match f.gptArt with
        | none => .done (-1, [])
        | some start => .issue .alloc fun a =>
          if a.failed then .done (-12, [])
          else
            let intra := offset % f.emmc.blksz
            mmcReadLoop f.emmc.blksz (start + offset / f.emmc.blksz) intra size
              ((intra + size + f.emmc.blksz - 1) / f.emmc.blksz) 0 (f.emmc.heap.read 0 f.emmc.blksz) [] 0
  else
    match f.artPartOffset with
    | none => .done (-2, [])
    | some base =>
      if isNorFlash f.flashType then
        .issue .probe fun p =>
          if p.failed then .done (-19, [])
          else .issue (.norRead (base + offset) size) fun r => .done (r.norRet, r.data)
      else if isNandFlash f.flashType then
        .issue (.nandRead (base + offset) size) fun r => .done (if r.short then -5 else r.nandRet, r.data)
      else .done (-22, [])

def artWrite (f : ArtFlash) (offset : Nat) (buf : Bytes) : Run Int :=
  if f.flashType = .mmcFlash then
    .issue .probe fun p =>
      if p.failed then .done (-19)
      else
        match f.gptArt with
        | none => .done (-1)
        | some start => .issue .alloc fun a =>
          if a.failed then .done (-12)
          else mmcWriteLoop f.emmc.blksz (start + offset / f.emmc.blksz) buf
            ((buf.length + f.emmc.blksz - 1) / f.emmc.blksz) 0 0
  else
    match f.artPartOffset with
    | none => .done (-2)
    | some base =>
      if isNorFlash f.flashType then
        .issue .probe fun p =>
          if p.failed then .done (-19)
          else .issue (.norErase (base + offset) (roundUp buf.length f.nor.eraseSize)) fun e =>
            if e.norRet < 0 then .done e.norRet
            else .issue (.norWrite (base + offset) buf) fun w => .done w.norRet
      else if isNandFlash f.flashType then
        let start := base + offset
        let stop := start + buf.length
        if f.nand.erasesize = 0 then .done (-22)
        else .issue .alloc fun a =>
          if a.failed then .done (-12)
          else
            let blockOff := start / f.nand.erasesize * f.nand.erasesize
            nandLoop f.nand.erasesize base start stop buf (stop - blockOff) blockOff 0
      else .done (-22)

def editArea (f : ArtFlash) (offset size : Nat) (edit : Bytes → Bytes) : Run Int :=
  .issue .alloc fun a =>
    if a.failed then .done (-12)
    else (artRead f offset size).bind fun read =>
      if read.1 < 0 then .done read.1 else artWrite f offset (edit read.2)

def modifyBase (soc : Soc) (f : ArtFlash) (newMac : Mac) (macIndex : Int) : Run Int :=
  if !isValidEthaddr newMac.1 ∨ macIndex < 0 ∨ macIndex ≥ soc.noMacs then .done (-22)
  else editArea f 0 artBaseSize fun buf => patch buf (artBaseMac0 + macIndex.toNat * artMacLen) newMac.1

def editChecked (f : ArtFlash) (calOff hdrSize : Nat) (refused : Bytes → Option Int) (size : Bytes → Nat)
    (edit : Bytes → Bytes) : Run Int :=
  (artRead f calOff hdrSize).bind fun read =>
    if read.1 < 0 then .done read.1
    else
      match refused read.2 with
      | some code => .done code
      | none => editArea f calOff (size read.2) edit

/-- The result for a calibration header that the ath10k variant does not accept. -/
def ath10kRefused (hdr : Bytes) : Option Int :=
  let calSize := (hdr.getD 0 0).toUInt16 ||| (hdr.getD 1 0).toUInt16 <<< 8
  if calSize = 0xFFFF ∨ calSize = 0 then some (-61) else none

/-- The result for a calibration header that the other variant does not accept. -/
def artRefused (hdr : Bytes) : Option Int := if hdr.getD 0 0 ≠ 0x01 then some (-38) else none

def modifyAth10k (soc : Soc) (f : ArtFlash) (newMac : Mac) (wifiIndex : Int) : Run Int :=
  if !isValidEthaddr newMac.1 ∨ wifiIndex < 0 ∨ wifiIndex ≥ ath10kWifiCount then .done (-22)
  else
    editChecked f (soc.calOffset wifiIndex.toNat) 2 ath10kRefused (fun _ => ath10kCalChecksumSize)
      fun cal => ath10kCal cal newMac.1

def modifyArt (soc : Soc) (f : ArtFlash) (newMac : Mac) (wifiIndex : Int) : Run Int :=
  if !isValidEthaddr newMac.1 ∨ wifiIndex < 0 ∨ wifiIndex ≥ wifiCalMaxIdx then .done (-22)
  else
    editChecked f (soc.calOffset (wifiIndex.toNat / 2)) 16 artRefused artCalSize
      fun cal => artCal cal (artCalMac0 + wifiIndex.toNat % 2 * artMacLen) newMac.1

def modifyWifi (soc : Soc) (f : ArtFlash) (newMac : Mac) (wifiIndex : Int) : Run Int :=
  if soc.ath10k then modifyAth10k soc f newMac wifiIndex else modifyArt soc f newMac wifiIndex

/-! ### The chips of a board -/

def served (data : Bytes) : Reply := ⟨false, false, 0, data⟩

def lost (data : Bytes) : Reply := ⟨true, false, 4, data⟩

@[simp] lemma served_failed (data : Bytes) : (served data).failed = false := rfl

@[simp] lemma served_short (data : Bytes) : (served data).short = false := rfl

@[simp] lemma served_norRet (data : Bytes) : (served data).norRet = 0 := rfl

@[simp] lemma served_nandRet (data : Bytes) : (served data).nandRet = 0 := rfl

@[simp] lemma served_eraseRet (data : Bytes) : (served data).eraseRet = 0 := rfl

@[simp] lemma served_data (data : Bytes) : (served data).data = data := rfl

@[simp] lemma lost_norRet (data : Bytes) : (lost data).norRet = -5 := rfl

@[simp] lemma lost_eraseRet (data : Bytes) : (lost data).eraseRet = -5 := rfl

def device (f : ArtFlash) : Cmd → Mem → Reply × Mem
  | .alloc, m | .probe, m => (served [], m)
  | .mmcRead b blkBuf, m =>
    if f.emmc.readable b then (served (m.read (b * f.emmc.blksz) f.emmc.blksz), m) else (lost blkBuf, m)
  | .mmcWrite b data, m =>
    if f.emmc.writable b then (served [], m.write (b * f.emmc.blksz) data) else (lost [], m)
  | .norRead a n, m => (served (m.read a n), m)
  | .norErase a n, m =>
    match f.nor.eraseOps m a n with
    | .ok m' => (served [], m')
    | .error _ => (lost [], m)
  | .norWrite a data, m =>
    match f.nor.writeOps m a data with
    | .ok m' => (served [], m')
    | .error _ => (lost [], m)
  | .nandRead a n, m => (served (m.read a n), m)
  | .nandErase a n, m => if f.nand.isBad a then (lost [], m) else (served [], m.fill a n 0xFF)
  | .nandWrite a data, m => (served [], m.program a data)

def Agrees {α : Type} (cells : α → Mem) (out : Int × Mem) : Except Errno α → Prop
  | .ok a => out = (0, cells a)
  | .error _ => out.1 < 0

section Chips

variable {f : ArtFlash} {offset size : Nat} {buf : Bytes}

lemma blocks_nonneg (r : Reply) : ¬ r.blocks < 0 := by
  rw [Reply.blocks]
  split <;> decide

variable {i : Int} {mac : Mac} {blkOff : Nat} {soc : Soc}

lemma mmcReadLoop_run {intra : Nat} : ∀ {n i : Nat} {blkBuf buf : Bytes} {ret : Int}, ¬ ret < 0 →
    (mmcReadLoop f.emmc.blksz blkOff intra size n i blkBuf buf ret).run (device f) f.cells =
      ((0, f.emmc.readLoop f.cells blkOff intra size n i blkBuf buf), f.cells) := by
  intro n
  induction n with
  | zero =>
    intro i blkBuf buf ret good
    rw [mmcReadLoop, if_neg good]
    rfl
  | succ n ih =>
    intro i blkBuf buf ret _
    rw [mmcReadLoop, Emmc.readLoop, Script.run, device]
    by_cases ok : f.emmc.readable (blkOff + i) = true <;> simp only [ok, if_true, Bool.false_eq_true, if_false] <;>
      rw [if_neg (blocks_nonneg _), ih (blocks_nonneg _)] <;> rfl

lemma mmcWriteLoop_run : ∀ {n i : Nat} {ret : Int} {m : Mem}, ¬ ret < 0 →
    (mmcWriteLoop f.emmc.blksz blkOff buf n i ret).run (device f) m = (0, f.emmc.writeLoop blkOff buf n i m) := by
  intro n
  induction n with
  | zero =>
    intro i ret m good
    rw [mmcWriteLoop, if_neg good]
    rfl
  | succ n ih =>
    intro i ret m _
    rw [mmcWriteLoop, Emmc.writeLoop, Script.run, device]
    by_cases ok : f.emmc.writable (blkOff + i) = true <;> simp only [ok, if_true, Bool.false_eq_true, if_false] <;>
      rw [if_neg (blocks_nonneg _), ih (blocks_nonneg _)]

/-- A check that both make, and that ends both with an error. -/
lemma Agrees.guard {α : Type} {cells : α → Mem} {p : Prop} [Decidable p] {code : Int} {e : Errno} {t : Run Int} {m : Mem}
    {result : Except Errno α} (negative : code < 0) (agrees : Agrees cells (t.run (device f) m) result) :
    Agrees cells ((if p then .done code else t).run (device f) m) (if p then .error e else result) := by
  split_ifs
  · exact negative
  · exact agrees

lemma Agrees.map {out : Int × Mem} {result : Except Errno Mem} (agrees : Agrees id out result) :
    Agrees ArtFlash.cells out (result.map fun m => { f with cells := m }) := by
  cases result with
  | error e | ok m => exact agrees

lemma nandLoop_run {base start stop : Nat} : ∀ {fuel blockOff : Nat} {m : Mem},
    Agrees id ((nandLoop f.nand.erasesize base start stop buf fuel blockOff 0).run (device f) m)
      (f.nand.rewriteLoop base start stop buf fuel blockOff m) := by
  intro fuel
  induction fuel with
  | zero =>
    intro blockOff m
    rfl
  | succ fuel ih =>
    intro blockOff m
    rw [nandLoop, Nand.rewriteLoop]
    generalize (if start > blockOff then start else blockOff) = dataStart
    split_ifs with more bad
    · refine .guard (by decide) ?_
      simp [Script.run, device, bad, Agrees]
    · refine .guard (by decide) ?_
      simp only [Script.run, device, bad, served_nandRet, served_short, served_data, served_eraseRet,
        lt_self_iff_false, Bool.false_eq_true, or_self, if_false]
      exact ih
    · rfl

lemma artRead_run : match f.artRead offset size with
    | .ok got => (artRead f offset size).run (device f) f.cells = ((0, got), f.cells)
    | .error _ => ((artRead f offset size).run (device f) f.cells).1.1 < 0 := by
  rw [artRead, ArtFlash.artRead]
  by_cases mmc : f.flashType = .mmcFlash
  · rw [if_pos mmc, if_pos mmc]
    cases f.gptArt with
    | none => exact (by decide : (-1 : Int) < 0)
    | some start => exact mmcReadLoop_run (by decide)
  rw [if_neg mmc, if_neg mmc]
  cases f.artPartOffset with
  | none => exact (by decide : (-2 : Int) < 0)
  | some base =>
    dsimp only
    split_ifs
    · rfl
    · rfl
    · exact (by decide : (-22 : Int) < 0)

lemma artWrite_run : Agrees ArtFlash.cells ((artWrite f offset buf).run (device f) f.cells) (f.artWrite offset buf) := by
  refine Agrees.map ?_
  rw [artWrite, ArtFlash.written]
  by_cases mmc : f.flashType = .mmcFlash
  · rw [if_pos mmc, if_pos mmc]
    cases f.gptArt with
    | none => exact (by decide : (-1 : Int) < 0)
    | some start => exact mmcWriteLoop_run (by decide)
  rw [if_neg mmc, if_neg mmc]
  cases f.artPartOffset with
  | none => exact (by decide : (-2 : Int) < 0)
  | some base =>
    dsimp only
    split_ifs
    · rw [Nor.artWrite]
      cases erase : f.nor.eraseOps f.cells (base + offset) (roundUp buf.length f.nor.eraseSize) with
      | error e => simp [Script.run, device, erase, bind, Except.bind, Agrees]
      | ok m =>
        cases write : f.nor.writeOps m (base + offset) buf with
        | error e | ok m' => simp [Script.run, device, erase, write, bind, Except.bind, Agrees]
    · rw [Nand.artWrite, if_pos (by assumption)]
      exact (by decide : (-22 : Int) < 0)
    · rw [Nand.artWrite, if_neg (by assumption)]
      exact nandLoop_run
    · exact (by decide : (-22 : Int) < 0)

lemma Agrees.read {next : Int × Bytes → Run Int} {rest : Bytes → Except Errno ArtFlash}
    (stops : ∀ read : Int × Bytes, read.1 < 0 → next read = .done read.1)
    (agrees : ∀ got, Agrees ArtFlash.cells ((next (0, got)).run (device f) f.cells) (rest got)) :
    Agrees ArtFlash.cells (((artRead f offset size).bind next).run (device f) f.cells) (f.artRead offset size >>= rest) := by
  have read := @artRead_run f offset size
  rw [Script.run_bind]
  cases result : f.artRead offset size with
  | error e =>
    rw [result] at read
    simp only at read
    rw [stops _ read]
    exact read
  | ok got =>
    rw [result] at read
    simp only at read
    rw [read]
    exact agrees got

lemma editArea_run (edit : Bytes → Bytes) : Agrees ArtFlash.cells ((editArea f offset size edit).run (device f) f.cells)
    (f.artRead offset size >>= fun got => f.artWrite offset (edit got)) :=
  Agrees.read (fun _ bad => if_pos bad) fun _ => artWrite_run

lemma modifyBase_run :
    Agrees ArtFlash.cells ((modifyBase soc f mac i).run (device f) f.cells) (macaddrModifyBase soc f mac i) := by
  rw [modifyBase, macaddrModifyBase]
  exact .guard (by decide) (editArea_run _)

lemma modifyAth10k_run :
    Agrees ArtFlash.cells ((modifyAth10k soc f mac i).run (device f) f.cells) (modifyWifiAth10k soc f mac i) := by
  rw [modifyAth10k, modifyWifiAth10k]
  refine .guard (by decide) (Agrees.read (fun read bad => if_pos bad) fun hdr => ?_)
  simp only [lt_self_iff_false, if_false, ath10kRefused]
  split_ifs
  · exact (by decide : (-61 : Int) < 0)
  · exact editArea_run _

lemma modifyArt_run :
    Agrees ArtFlash.cells ((modifyArt soc f mac i).run (device f) f.cells) (modifyWifiArt soc f mac i) := by
  rw [modifyArt, modifyWifiArt]
  refine .guard (by decide) (Agrees.read (fun read bad => if_pos bad) fun hdr => ?_)
  simp only [lt_self_iff_false, if_false, artRefused]
  split_ifs
  · exact (by decide : (-38 : Int) < 0)
  · exact editArea_run _

/-- On the chips of the board the scripts do what `macaddr_modify_base` and `macaddr_modify_wifi` do to the flash. -/
theorem scripts_agree (soc : Soc) (f : ArtFlash) (mac : Mac) (i : Int) :
    Agrees ArtFlash.cells ((modifyBase soc f mac i).run (device f) f.cells) (macaddrModifyBase soc f mac i) ∧
    Agrees ArtFlash.cells ((modifyWifi soc f mac i).run (device f) f.cells) (macaddrModifyWifi soc f mac i) := by
  refine ⟨modifyBase_run, ?_⟩
  rw [modifyWifi, macaddrModifyWifi]
  split_ifs
  · exact modifyAth10k_run
  · exact modifyArt_run

end Chips

/-! ### What a run reports -/

def Cmd.isRead : Cmd → Bool
  | .mmcRead _ _ | .norRead _ _ | .nandRead _ _ => true
  | _ => false

def Cmd.isWrite : Cmd → Bool
  | .mmcWrite _ _ | .norWrite _ _ | .nandWrite _ _ => true
  | _ => false

def Cmd.isErase : Cmd → Bool
  | .norErase _ _ | .nandErase _ _ => true
  | _ => false

/-- A read or a write that fails. -/
def Fails (c : Cmd) (r : Reply) : Prop := (c.isRead ∨ c.isWrite) ∧ r.failed

def Cmd.Changes (c : Cmd) : Prop := c.isWrite ∨ c.isErase

/-- A failed read or write gives a negative result, and nothing is changed after a failed read. -/
structure Reported (log : List (Cmd × Reply)) (ret : Int) : Prop where
  negative : (∃ e ∈ log, Fails e.1 e.2) → ret < 0
  quiet : ∀ pre e post, log = pre ++ e :: post → e.1.isRead → e.2.failed → ∀ e' ∈ post, ¬ e'.1.Changes

/-- The failures that the code tests for: of an allocation, of a probe, and of a transfer that is not a block of the
eMMC. -/
def Noticed (f : ArtFlash) (c : Cmd) (r : Reply) : Prop :=
  (c = .alloc ∨ c = .probe ∨ (c.isRead ∨ c.isWrite) ∧ f.flashType ≠ .mmcFlash) ∧ r.failed

section Scripts

variable {f : ArtFlash} {offset size : Nat} {buf : Bytes} {c : Cmd} {i : Int} {mac : Mac} {blkOff blksz : Nat} {r : Reply} {soc : Soc}

end Scripts

section Runs

variable {f : ArtFlash} {t : Run Int} {σ : Type} {answer : Cmd → σ → Reply × σ} {s : σ}

/-- No block of the eMMC fails to be read or written. -/
def BlocksServed (f : ArtFlash) (log : List (Cmd × Reply)) : Prop :=
  f.flashType = .mmcFlash → ∀ e ∈ log, ¬ Fails e.1 e.2

lemma Script.Halts.reported (halts : t.Halts (Noticed f) (· < 0)) (served : BlocksServed f (t.transcript answer s)) :
    Reported (t.transcript answer s) (t.run answer s).1 := by
  have noticed {e : Cmd × Reply} (mem : e ∈ t.transcript answer s) (failed : Fails e.1 e.2) : Noticed f e.1 e.2 :=
    ⟨.inr (.inr ⟨failed.1, fun mmc => served mmc e mem failed⟩), failed.2⟩
  constructor
  · rintro ⟨e, mem, failed⟩
    obtain ⟨pre, post, at_e⟩ := List.append_of_mem mem
    exact (halts.last at_e (noticed mem failed)).2
  · intro pre e post at_e read failed e' mem
    have here : e ∈ t.transcript answer s := at_e ▸ List.mem_append_right _ List.mem_cons_self
    rw [(halts.last at_e (noticed here ⟨.inl read, failed⟩)).1] at mem
    cases mem

end Runs

end Art

end ResQBoot
