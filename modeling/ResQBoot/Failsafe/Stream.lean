import ResQBoot.Failsafe.Plain

/-!
# The stream of a backup

The connection of a backup goes through the stages of `Stage`. `Streams` is the invariant: the body bytes TCP has
accepted, followed by those that have been read and not been sent, are the flash up to the count the server keeps.
-/

namespace ResQBoot.Failsafe

structure Flash where
  bytes : Bytes
  length_lt : bytes.length < 2 ^ 64

def Delivers (fl : Bytes) (call : FlashCall) (r : FlashResult) : Prop :=
  0 < r.count → call.offset + r.count ≤ fl.length ∧
    r.stored.take r.count = (fl.drop call.offset).take r.count

instance (fl : Bytes) (call : FlashCall) (r : FlashResult) : Decidable (Delivers fl call r) :=
  inferInstanceAs (Decidable (_ → _))

inductive Stage where
  | header
  | data
  | reading
  | waiting
  deriving DecidableEq, Repr

def Stage.ahead (bk : Backup) (m : Region → Mem) (c : Conn) : Stage → Bytes
  | .header => (m .ram).read bk.dataAddr bk.dataSize
  | .data => c.dataptr.deref m c.upload
  | .reading => []
  | .waiting => (m .ram).read bk.dataAddr bk.dataSize

def Stage.Flags (start : Nat) (bk : Backup) (c : Conn) : Stage → Prop
  | .header => bk.sendingHeader = true ∧ bk.chunkBusy = false ∧ 0 < bk.dataSize ∧
    c.pcb.out.length + c.upload = start ∧ ∃ r a, c.dataptr = .mem r a
  | .data => bk.sendingHeader = false ∧ bk.chunkBusy = false ∧ start ≤ c.pcb.out.length ∧
    ∃ a, c.dataptr = .mem .ram a
  | .reading => bk.sendingHeader = false ∧ bk.chunkBusy = true ∧ start ≤ c.pcb.out.length ∧
    c.upload = 0 ∧ bk.chunked = true ∧ 0 < bk.totalRemaining
  | .waiting => bk.sendingHeader = false ∧ bk.chunkBusy = true ∧ start ≤ c.pcb.out.length ∧
    c.upload = 0 ∧ bk.chunked = true

def Backup.told (size : Nat) (bk : Backup) : Nat := if bk.chunked then bk.totalSent else size

structure Backup.Counts (size : Nat) (bk : Backup) : Prop where
  total : bk.totalSize = size
  sent : bk.totalSent ≤ size
  remaining : bk.totalRemaining = size - bk.totalSent
  offset : 0 < bk.totalRemaining → bk.chunkOffset = bk.totalSent

structure Streams (b : Board) (fl : Bytes) (start size : Nat) (st : Stage) (bk : Backup)
    (m : Region → Mem) (c : Conn) : Prop where
  state : c.state = .fileRequest
  owns : c.ownsGlobal = true
  body : c.trail.body = some (start, size)
  addr : bk.dataAddr = b.uploadAddr
  counts : bk.chunked = true → bk.Counts size
  within : bk.told size ≤ fl.length
  flags : st.Flags start bk c
  whole : c.pcb.out.drop start ++ st.ahead bk m c = fl.take (bk.told size)

lemma Board.ramPtr_uploadAddr (b : Board) : ramPtr b.uploadAddr = .mem .ram b.uploadAddr := by
  obtain eq | eq := b.uploadAddr_eq <;> simp [ramPtr, eq]

section
variable {b : Board} {fl : Bytes} {start size : Nat} {st : Stage} {bk : Backup} {m m' : Region → Mem}
  {c : Conn}

section

variable (str : Streams b fl start size st bk m c)
include str

lemma Streams.of_ram (ram : m' .ram = m .ram) :
    Streams b fl start size st bk m' c := by
  obtain ⟨state, owns, body, addr, counts, within, flags, whole⟩ := str
  refine ⟨state, owns, body, addr, counts, within, flags, ?_⟩
  rw [← whole]
  cases st with
  | header => simp [Stage.ahead, ram]
  | data =>
    obtain ⟨-, -, -, a, eq⟩ := flags
    simp [Stage.ahead, eq, Ptr.deref, ram]
  | reading => rfl
  | waiting => simp [Stage.ahead, ram]

lemma Streams.sent : c.pcb.out.drop start <+: fl.take size := by
  have le : bk.told size ≤ size := by
    unfold Backup.told
    split
    · exact (str.counts ‹_›).sent
    · exact Nat.le_refl _
  have pre : c.pcb.out.drop start <+: fl.take (bk.told size) := ⟨_, str.whole⟩
  exact pre.trans (List.take_prefix_take_left le)

lemma Streams.send (t : List TcpAnswer) :
    Streams b fl start size st bk m (sendLoop m t c) := by
  have flags := str.flags
  have whole := str.whole
  suffices both : st.Flags start bk (sendLoop m t c) ∧ (sendLoop m t c).pcb.out.drop start ++
      st.ahead bk m (sendLoop m t c) = fl.take (bk.told size) from
    ⟨by simpa using str.state, by simpa using str.owns, by simpa using str.body, str.addr, str.counts,
      str.within, both.1, both.2⟩
  cases st with
  | header =>
    obtain ⟨hdr, free, pos, len, r, a, eq⟩ := flags
    obtain ⟨a', eq'⟩ := sendLoop_region m t c ⟨a, eq⟩
    -- the header shrinks by what is accepted, and no body byte is out
    have len' : (sendLoop m t c).pcb.out.length + (sendLoop m t c).upload = start := by
      have := congrArg List.length (sendLoop_stream m t c)
      simp only [List.length_append, eq, eq', Ptr.deref, Mem.length_read] at this
      omega
    refine ⟨⟨hdr, free, pos, len', r, a', eq'⟩, ?_⟩
    rw [List.drop_eq_nil_of_le (by omega)] at whole ⊢
    exact whole
  | data =>
    obtain ⟨hdr, free, le, at'⟩ := flags
    have le' := Nat.le_trans le (sendLoop_out m t c).length_le
    refine ⟨⟨hdr, free, le', sendLoop_region m t c at'⟩, ?_⟩
    calc (sendLoop m t c).pcb.out.drop start ++ Stage.ahead bk m (sendLoop m t c) .data
        = ((sendLoop m t c).pcb.out ++ Stage.ahead bk m (sendLoop m t c) .data).drop start :=
          (List.drop_append_of_le_length le').symm
      _ = (c.pcb.out ++ Stage.ahead bk m c .data).drop start :=
          congrArg (List.drop start) (sendLoop_stream m t c)
      _ = c.pcb.out.drop start ++ Stage.ahead bk m c .data := List.drop_append_of_le_length le
      _ = fl.take (bk.told size) := whole
  | reading | waiting =>
    rw [sendLoop_empty m t c flags.2.2.2.1]
    exact ⟨flags, whole⟩

lemma Streams.touch (now : UInt32) :
    Streams b fl start size st bk m { c with lastActivity := now } := by
  obtain ⟨state, owns, body, addr, counts, within, flags, whole⟩ := str
  exact ⟨state, owns, body, addr, counts, within, by cases st <;> exact flags, by cases st <;> exact whole⟩

end

lemma Streams.headerOut (str : Streams b fl start size .header bk m c) (out : c.upload = 0) :
    Streams b fl start size .data { bk with sendingHeader := false } m
      { c with state := .fileRequest, dataptr := ramPtr bk.dataAddr, upload := bk.dataSize } := by
  obtain ⟨-, free, -, len, -⟩ := str.flags
  refine ⟨rfl, str.owns, str.body, str.addr, fun ch => ?_, str.within, ⟨rfl, free, ?_, b.uploadAddr, ?_⟩, ?_⟩
  · obtain ⟨total, sent, remaining, offset⟩ := str.counts ch
    exact ⟨total, sent, remaining, offset⟩
  · simp only
    omega
  · simp only [str.addr, b.ramPtr_uploadAddr]
  · have whole := str.whole
    simp only [Stage.ahead, str.addr, b.ramPtr_uploadAddr, Ptr.deref] at whole ⊢
    exact whole

lemma Streams.ask (str : Streams b fl start size .data bk m c) (out : c.upload = 0)
    (chunked : bk.chunked = true) (more : 0 < bk.totalRemaining) :
    Streams b fl start size .reading { bk with chunkBusy := true } m c := by
  obtain ⟨hdr, free, le, a, eq⟩ := str.flags
  refine ⟨str.state, str.owns, str.body, str.addr, fun ch => ?_, str.within, ⟨hdr, rfl, le, out, chunked, more⟩, ?_⟩
  · obtain ⟨total, sent, remaining, offset⟩ := str.counts ch
    exact ⟨total, sent, remaining, offset⟩
  · have whole := str.whole
    simp only [Stage.ahead, eq, out, Ptr.deref, Mem.read_zero] at whole ⊢
    exact whole

lemma Streams.complete (str : Streams b fl start size .data bk m c) (out : c.upload = 0)
    (last : bk.chunked = true → bk.totalRemaining = 0) :
    c.pcb.out.drop start = fl.take size ∧ size ≤ fl.length := by
  have told : bk.told size = size := by
    unfold Backup.told
    split
    · rename_i ch
      obtain ⟨-, sent, remaining, -⟩ := str.counts ch
      have := last ch
      omega
    · rfl
  obtain ⟨-, -, -, a, eq⟩ := str.flags
  have whole := str.whole
  rw [told] at whole
  refine ⟨?_, told ▸ str.within⟩
  simpa [Stage.ahead, eq, out, Ptr.deref] using whole

end

/-! ## The callbacks of the connection -/

def Backup.nextCall (b : Board) (bk : Backup) : FlashCall :=
  ⟨bk.partName, bk.chunkOffset, min bk.totalRemaining b.ramAvail, bk.raw, bk.flashType⟩

inductive Stage.Leads : Stage → Stage → Prop where
  | same (st : Stage) : Leads st st
  | out : Leads .header .data
  | asks : Leads .data .reading

structure GoesOn (b : Board) (fl : Bytes) (start size : Nat) (st : Stage) (w : Work) (r : Work × Fate) :
    Prop where
  fate : r.2 = .keep
  owner : r.1.g.hsGlobal = w.g.hsGlobal
  call : r.1.g.backup.nextCall b = w.g.backup.nextCall b
  stage : ∃ st', st.Leads st' ∧ Streams b fl start size st' r.1.g.backup r.1.mem r.1.hs

section
variable {b : Board} {fl : Bytes} {start size : Nat} {st : Stage} {k : Cause} {w : Work}
  {r : Work × Fate}

lemma Streams.headerSent (str : Streams b fl start size st w.g.backup w.mem w.hs) (owner : w.isOwner = true) :
    (headerSent w = w ∧ (st = .header → w.hs.upload ≠ 0)) ∨
    (st = .header ∧ (headerSent w).hs.upload ≠ 0 ∧ (headerSent w).g.hsGlobal = w.g.hsGlobal ∧
      (headerSent w).g.hist = w.g.hist ∧ (headerSent w).mem = w.mem ∧
      (headerSent w).g.backup.nextCall b = w.g.backup.nextCall b ∧
      Streams b fl start size .data (headerSent w).g.backup (headerSent w).mem (headerSent w).hs) := by
  have flags := str.flags
  by_cases out : st = .header ∧ w.hs.upload = 0
  · obtain ⟨rfl, out⟩ := out
    obtain ⟨hdr, -, pos, -⟩ := flags
    have eq : ResQBoot.Failsafe.headerSent w = { w.setBackup { w.g.backup with sendingHeader := false } with
        hs := { w.hs with
          state := .fileRequest
          dataptr := ramPtr w.g.backup.dataAddr
          upload := w.g.backup.dataSize } } := by
      simp [ResQBoot.Failsafe.headerSent, owner, hdr, out]
    rw [eq]
    exact .inr ⟨rfl, Nat.ne_of_gt pos, rfl, rfl, rfl, rfl, str.headerOut out⟩
  · refine .inl ⟨?_, fun hdr zero => out ⟨hdr, zero⟩⟩
    cases st with
    | header =>
      have : w.hs.upload ≠ 0 := fun zero => out ⟨rfl, zero⟩
      simp [ResQBoot.Failsafe.headerSent, this]
    | data | reading | waiting => simp [ResQBoot.Failsafe.headerSent, flags.1]

lemma Streams.onData (str : Streams b fl start size st w.g.backup w.mem w.hs) (out : w.hs.upload = 0)
    (hdr : st = .header → w.hs.upload ≠ 0) (free : w.g.backup.chunkBusy = false) : st = .data := by
  have flags := str.flags
  cases st with
  | header => exact absurd out (hdr rfl)
  | data => rfl
  | reading | waiting => cases flags.2.1.symm.trans free

lemma Effect.streams (eff : Effect b k w r) (str : Streams b fl start size st w.g.backup w.mem w.hs)
    (owner : w.g.hsGlobal = some w.h) : r.2 = .freed ∨ GoesOn b fl start size st w r := by
  have busy {p : Prop} (new : w.hs.state = .none) : p := by cases str.state.symm.trans new
  have touched (now : UInt32) : Streams b fl start size st (w.touch now).g.backup (w.touch now).mem (w.touch now).hs :=
    str.touch now
  have owns (now : UInt32) : (w.touch now).isOwner = true := by
    simp [Work.isOwner, Work.touch, str.owns, owner]
  cases eff with
  | sends e now => exact .inr ⟨rfl, rfl, rfl, st, .same st, (touched now).send e.tcp⟩
  | answers e now a new sound => exact busy new
  | aborts | closes | fins | drops => exact .inl rfl
  | refuses now t new | gives now t total new | uploads e t total boundary w₁ r new => exact busy new
  | continues e t w₁ r up => cases str.state.symm.trans up
  | reads t total call new => exact busy new
  | sendsMore e more =>
    obtain ⟨eq, -⟩ | ⟨rfl, -, own, hist, mem, call, str'⟩ := (touched e.now).headerSent (owns e.now)
    · rw [eq]
      exact .inr ⟨rfl, rfl, rfl, st, .same st, (touched e.now).send e.tcp⟩
    · exact .inr ⟨rfl, own, call, .data, .out, str'.send e.tcp⟩
  | asks now sent _ chunked more free =>
    obtain ⟨eq, hdr⟩ | ⟨-, pos, -⟩ := (touched now).headerSent (owns now)
    · rw [eq] at sent chunked more free ⊢
      obtain rfl := (touched now).onData sent hdr free
      exact .inr ⟨rfl, rfl, rfl, .reading, .asks, (touched now).ask sent chunked more⟩
    · exact absurd sent pos
  | waits now sent =>
    obtain ⟨eq, -⟩ | ⟨-, pos, -⟩ := (touched now).headerSent (owns now)
    · rw [eq]
      exact .inr ⟨rfl, rfl, rfl, st, .same st, touched now⟩
    · exact absurd sent pos

/-- A backup that is closed behind its last byte is complete. -/
lemma Streams.closing (str : Streams b fl start size st w.g.backup w.mem w.hs) (owner : w.g.hsGlobal = some w.h)
    {now : UInt32} (closing : (ResQBoot.Failsafe.headerSent (w.touch now)).Closing) :
    w.hs.pcb.out.drop start = fl.take size ∧ size ≤ fl.length := by
  have touched : Streams b fl start size st (w.touch now).g.backup (w.touch now).mem (w.touch now).hs := str.touch now
  have owns : (w.touch now).isOwner = true := by
    simp [Work.isOwner, Work.touch, str.owns, owner]
  obtain ⟨sent, last⟩ := closing
  obtain ⟨eq, hdr⟩ | ⟨-, pos, -⟩ := touched.headerSent owns
  · rw [eq] at sent last
    obtain ⟨free, last⟩ := last owns
    obtain rfl := touched.onData sent hdr free
    exact touched.complete sent last
  · exact absurd sent pos

end

/-! ## The flash reads -/

lemma FlashResult.count_lt (r : FlashResult) : r.count < 2 ^ 32 := by
  unfold FlashResult.count
  cases r.size with
  | none => decide
  | some n => exact n.toNat_lt

section
variable {b : Board} {fl : Bytes} {start size : Nat} {st : Stage} {bk : Backup} {m : Region → Mem}
  {c : Conn} {call : FlashCall} {r : FlashResult} {e : Env} {w : Work}

lemma Delivers.read (del : Delivers fl call r) (some : 0 < r.count) (ram : Mem) (a : Nat) {n : Nat}
    (le : n ≤ r.count) : (ram.write a r.stored).read a n = (fl.drop call.offset).take n := by
  obtain ⟨within, eq⟩ := del some
  have len : r.count ≤ r.stored.length := by
    have := congrArg List.length eq
    simp only [List.length_take, List.length_drop] at this
    omega
  rw [Mem.read_write_take _ _ (Nat.le_trans le len)]
  have cut := congrArg (List.take n) eq
  rwa [List.take_take, List.take_take, Nat.min_eq_left le] at cut

lemma firstChunk_data (b : Board) (total size : Nat) (bk : Backup) :
    (firstChunk b total size bk).dataAddr = b.uploadAddr ∧ (firstChunk b total size bk).dataSize = size ∧
      (firstChunk b total size bk).chunkBusy = bk.chunkBusy := by
  unfold firstChunk
  split <;> exact ⟨rfl, rfl, rfl⟩

lemma backupReadDone_streams {total : Nat} (free : w.g.backup.chunkBusy = false)
    (named : w.g.backup.totalSize = total) (zero : call.offset = 0) (pos : 0 < total) (del : Delivers fl call r) (some : 0 < r.count) :
    ∃ start size, Streams b fl start size .header (backupReadDone b e total call r w).g.backup
      (backupReadDone b e total call r w).mem (backupReadDone b e total call r w).hs := by
  obtain ⟨within, -⟩ := del some
  have ram := del.read some (w.mem .ram) b.uploadAddr (Nat.min_le_left r.count total)
  rw [zero, List.drop_zero] at ram
  unfold backupReadDone
  simp only [Nat.ne_of_gt some, if_false]
  obtain ⟨size, size_eq⟩ : ∃ size, size = min r.count total := ⟨_, rfl⟩
  rw [← size_eq] at ram ⊢
  have fits : size ≤ fl.length := by omega
  let hdr := backupHeader call (announced b total size)
  refine ⟨w.hs.pcb.out.length + hdr.length, announced b total size, ?_⟩
  -- before anything of the header is sent
  have start : Streams b fl (w.hs.pcb.out.length + hdr.length) (announced b total size) .header
      { firstChunk b total size w.g.backup with sendingHeader := true }
      ((w.stored b r).printPartJson hdr).mem
      ((((w.stored b r).printPartJson hdr).takeBackup b total call size)).hs := by
    obtain ⟨addr, dataSize, busy⟩ := firstChunk_data b total size w.g.backup
    have told : (firstChunk b total size w.g.backup).told (announced b total size) = size := by
      unfold firstChunk announced Backup.told
      split_ifs <;> first | rfl | contradiction
    refine ⟨rfl, rfl, rfl, addr, fun ch => ?_, Nat.le_trans (Nat.le_of_eq told) fits,
      ⟨rfl, busy.trans free, Nat.lt_of_lt_of_eq (by omega) dataSize.symm, rfl, _, _, rfl⟩, ?_⟩
    · have large : b.ramAvail < total := by
        by_contra small
        simp [firstChunk, small] at ch
      simp only [firstChunk, large, if_true, announced]
      exact ⟨named, by simp only; omega, rfl, fun _ => rfl⟩
    · have none : w.hs.pcb.out.drop (w.hs.pcb.out.length + hdr.length) = [] :=
        List.drop_eq_nil_of_le (Nat.le_add_right _ _)
      have kept : ((w.stored b r).printPartJson hdr).mem .ram = (w.mem .ram).write b.uploadAddr r.stored := by
        simp [Work.printPartJson, Work.stored]
      refine (congrArg₂ (· ++ ·) none ?_).trans (congrArg (fl.take ·) told.symm)
      simp only [Stage.ahead, kept, addr, dataSize, ram]
  exact start.send e.tcp

lemma Streams.chunkRead (str : Streams b fl start size .reading bk m c) (lt : fl.length < 2 ^ 64)
    (del : Delivers fl (bk.nextCall b) r) (some : 0 < r.count) (built : Bytes) :
    Streams b fl start size .waiting (nextChunk b r.count bk)
      (Function.update m .ram ((m .ram).write b.uploadAddr r.stored))
      { c with trail := { c.trail with built := built } } := by
  obtain ⟨hdr, busy, le, out, chunked, more⟩ := str.flags
  obtain ⟨total, sent, remaining, offset⟩ := str.counts chunked
  have offset := offset more
  obtain ⟨within, -⟩ := del some
  have within : bk.totalSent + r.count ≤ fl.length := offset ▸ within
  have count := r.count_lt
  have far : u64 (bk.totalSent + r.count) = bk.totalSent + r.count := u64_of_lt (by omega)
  have whole : c.pcb.out.drop start = fl.take bk.totalSent := by
    simpa [Stage.ahead, Backup.told, chunked] using str.whole
  -- `d` bytes of the read belong to the backup
  obtain ⟨d, d_eq⟩ : ∃ d, d = min r.count (size - bk.totalSent) := ⟨_, rfl⟩
  have dataSize : (nextChunk b r.count bk).dataSize = d := by
    simp only [nextChunk, far, total]
    split_ifs with beyond
    · rw [u32_of_lt (n := bk.totalSent + r.count - size) (by omega), u32]
      omega
    · omega
  have totalSent : (nextChunk b r.count bk).totalSent = bk.totalSent + d := by
    simp only [nextChunk, far, total]
    split_ifs <;> omega
  have told : (nextChunk b r.count bk).told size = bk.totalSent + d := (if_pos chunked).trans totalSent
  have read := del.read some (m .ram) b.uploadAddr (n := d) (by omega)
  refine ⟨str.state, str.owns, str.body, rfl, fun _ => ⟨total, ?_, ?_, fun left => ?_⟩, ?_,
    ⟨hdr, busy, le, out, chunked⟩, ?_⟩
  · omega
  · rw [totalSent]
    simp only [nextChunk, far, total]
    split_ifs <;> omega
  · have kept : (nextChunk b r.count bk).totalRemaining = size - (bk.totalSent + d) := by
      simp only [nextChunk, far, total]
      split_ifs <;> omega
    have next : (nextChunk b r.count bk).chunkOffset = bk.totalSent + r.count := by
      simp only [nextChunk, offset, far]
    omega
  · omega
  · rw [told, Stage.ahead, dataSize, Function.update_self, List.take_add]
    refine congrArg₂ (· ++ ·) whole (read.trans ?_)
    rw [Backup.nextCall, offset]

lemma Streams.handOver (str : Streams b fl start size .waiting bk m c) (t : List TcpAnswer) :
    Streams b fl start size .data { bk with chunkBusy := false } m
      (sendLoop m t { c with dataptr := ramPtr bk.dataAddr, upload := bk.dataSize }) := by
  obtain ⟨hdr, -, le, -, chunked⟩ := str.flags
  refine Streams.send (c := { c with dataptr := ramPtr bk.dataAddr, upload := bk.dataSize }) ?_ t
  refine ⟨str.state, str.owns, str.body, str.addr, fun ch => ?_, str.within, ⟨hdr, rfl, le, b.uploadAddr, ?_⟩, ?_⟩
  · obtain ⟨total, sent, remaining, offset⟩ := str.counts ch
    exact ⟨total, sent, remaining, offset⟩
  · simp only [str.addr, b.ramPtr_uploadAddr]
  · have whole := str.whole
    simp only [Stage.ahead, str.addr, b.ramPtr_uploadAddr, Ptr.deref] at whole ⊢
    exact whole

end

end ResQBoot.Failsafe
