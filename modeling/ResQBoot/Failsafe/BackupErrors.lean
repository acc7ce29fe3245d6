import ResQBoot.Lib.Lines
import ResQBoot.Failsafe.Override
import ResQBoot.Upgrade.UbiImage

/-!
# Read errors of a backup

The length that is announced comes from the size the reader reports, and `nand_raw_chunk_read` reports the pages in
front of the first that it cannot read: a backup that fits into RAM ends there and looks complete.
-/

namespace ResQBoot.Failsafe

open Upgrade (Setup)
open ResQBoot.Flash (ChunkReply ChunkState ChunkReader DeviceRead Chip)

def onFlashOf (s : Setup) (b : Board) : Board := { b with flashCapacity := s.backupFlashCapacity }

def FlashResult.ofReply (addr : Nat) (r : ChunkReply × ChunkState) : FlashResult where
  stored := r.2.world.ram.read addr ((r.1.result.map Prod.snd).getD 0)
  size := r.1.result.map fun out => UInt32.ofNat out.2
  detail := r.1.detail.getD []

def flashResult (s : Setup) (addr : Nat) (call : FlashCall) (st : ChunkState) : FlashResult :=
  .ofReply addr (s.flashreadPartitionChunk call.partName addr call.offset call.size call.raw call.flashType st)

def readerOf (s : Setup) (call : FlashCall) (st : ChunkState) : Option ChunkReader :=
  if s.flashOverrideMatches call.partName call.flashType then
    s.readerFor call.partName (st.world.flashTypeNew.getD s.board.flashType) call.raw call.flashType
  else none

def NeededFails (s : Setup) (call : FlashCall) (st : ChunkState) : Prop :=
  ∃ reader, readerOf s call st = some reader ∧
    ∃ r ∈ reader.needed s.board call.partName call.offset call.size st, r.fails s.io = true

def Shortened (call : FlashCall) (total : Nat) (w : Work) : Prop :=
  ∃ data : Bytes, data.length < total ∧ w.hs.trail.built = backupHeader call data.length ++ data

structure CutShort (s : Setup) (b : Board) (total : Nat) (call : FlashCall) (st : ChunkState) : Prop where
  raw : readerOf s call st = some .raw
  whole : total ≤ b.ramAvail
  first : s.io.reads 0 = true
  later : ∃ c, s.board.nand = some c ∧ ∃ p, 0 < p ∧ p < total / (c.writesize + c.oobsize) ∧
    p < c.size / c.writesize % 2 ^ 32 ∧ s.io.reads (p * c.writesize) = false

section

variable {s : Setup} {b : Board} {e : Env} {total : Nat} {call : FlashCall} {st : ChunkState} {r : FlashResult}
  {w : Work} {data : Bytes}

lemma backupHeader_ne_readFailed (n : Nat) (data detail : Bytes) :
    backupHeader call n ++ data ≠ readFailedText detail := by
  intro eq
  have status := congrArg (·.getD 9 0) eq
  simp only [backupHeader, readFailedText, List.append_assoc] at status
  cases status

lemma backupHeader_inj {m n : Nat} {r r' : Bytes} (eq : backupHeader call m ++ r = backupHeader call n ++ r') :
    m = n := by
  simp only [backupHeader, List.append_assoc, List.append_cancel_left_eq] at eq
  exact (decimal_line_inj eq).1

lemma backupReadDone_error (none : r.count = 0) : ¬Shortened call total (backupReadDone b e total call r w) := by
  rintro ⟨data, -, built⟩
  have text : (backupReadDone b e total call r w).hs.trail.built = readFailedText r.detail := by
    simp only [backupReadDone, none, if_true, httpdSendStatic, sendData_trail, Ptr.deref, Work.printPartJson,
      Function.update_self]
    rw [Mem.read_write_take _ _ (by simp), List.take_left]
  exact backupHeader_ne_readFailed _ _ _ (built.symm.trans text)

lemma backupReadDone_built (b : Board) (e : Env) (total : Nat) (call : FlashCall) (w : Work) (some : 0 < r.count) :
    ∃ body : Bytes, body.length = min r.count total ∧ (backupReadDone b e total call r w).hs.trail.built =
      backupHeader call (announced b total (min r.count total)) ++ body := by
  simp only [backupReadDone, Nat.ne_of_gt some, if_false, Work.setBackup, sendData_trail]
  exact ⟨_, Mem.length_read .., rfl⟩

lemma shortened_iff (some : 0 < r.count) : Shortened call total (backupReadDone b e total call r w) ↔
    total ≤ b.ramAvail ∧ r.count < total := by
  obtain ⟨body, length, built⟩ := backupReadDone_built b e total call w some
  rw [Shortened, built]
  constructor
  · rintro ⟨data, less, same⟩
    have told := backupHeader_inj same
    rw [announced] at told
    split at told <;> omega
  · rintro ⟨whole, less⟩
    refine ⟨body, by omega, ?_⟩
    rw [announced, if_neg (by omega), length]

lemma flashResult_read {reader : ChunkReader} {addr : Nat} (is : readerOf s call st = some reader) :
    flashResult s addr call st =
      .ofReply addr (reader.read s.board s.io call.partName addr call.offset call.size st) := by
  rw [readerOf] at is
  split at is
  · rename_i accepted
    rw [flashResult, Setup.flashreadPartitionChunk, if_pos accepted, is]
  · cases is

lemma count_failed {addr : Nat} {reply : ChunkReply × ChunkState} (failed : reply.1.result = none) :
    (FlashResult.ofReply addr reply).count = 0 := by
  simp only [FlashResult.count, FlashResult.ofReply, failed]
  rfl

lemma takeWhile_range_le {f : Nat → Bool} {n p : Nat} (bad : f p = false) :
    ((List.range n).takeWhile f).length ≤ p := by
  by_contra more
  have inside : p < ((List.range n).takeWhile f).length := Nat.lt_of_not_le more
  have here : ((List.range n).takeWhile f)[p] = p := by
    rw [(List.takeWhile_prefix f).getElem inside, List.getElem_range]
  have good := List.mem_takeWhile_imp (here ▸ List.getElem_mem inside)
  cases bad.symm.trans good

lemma takeWhile_range_pos {f : Nat → Bool} {n : Nat} (pos : 0 < n) :
    0 < ((List.range n).takeWhile f).length ↔ f 0 = true := by
  obtain ⟨n, rfl⟩ := Nat.exists_eq_succ_of_ne_zero (Nat.ne_of_gt pos)
  rw [List.range_succ_eq_map, List.takeWhile_cons]
  split <;> simp_all

def rawRead (s : Setup) (c : Chip) (size : Nat) : Nat :=
  ((List.range (min (c.size / c.writesize % 2 ^ 32) (max 1 (size / (c.writesize + c.oobsize))))).takeWhile fun p =>
    s.io.reads (p * c.writesize)).length

lemma raw_count {c : Chip} (addr : Nat) (is : readerOf s call st = some .raw) (chip : s.board.nand = some c)
    (zero : call.offset = 0) (small : call.size < 2 ^ 32) :
    (flashResult s addr call st).count = rawRead s c call.size * (c.writesize + c.oobsize) % 2 ^ 32 := by
  rw [flashResult_read is, zero, FlashResult.ofReply, FlashResult.count]
  simp only [ChunkReader.read, Flash.nandRawChunkRead_result chip, Flash.pagesAsked_zero small, Nat.zero_div,
    Nat.zero_mod]
  rw [← rawRead]
  split
  · rename_i empty
    have none : rawRead s c call.size = 0 := by
      rw [rawRead, Nat.le_zero.mp empty, Nat.zero_min]
      rfl
    rw [none, Nat.zero_mul]
    rfl
  · split
    · rename_i none
      rw [none, Nat.zero_mul]
      rfl
    · rfl

lemma CutShort.hides (cut : CutShort s b total call st) (zero : call.offset = 0)
    (size : call.size = min total b.ramAvail) :
    NeededFails s call st ∧
      Shortened call total (backupReadDone (onFlashOf s b) e total call (flashResult s b.uploadAddr call st) w) := by
  obtain ⟨raw, whole, first, c, chip, p, later, short, inside, bad⟩ := cut
  have avail := b.ramAvail_lt
  have small : call.size < 2 ^ 32 := by omega
  have pages : p < min (c.size / c.writesize % 2 ^ 32) (max 1 (call.size / (c.writesize + c.oobsize))) := by
    rw [size, Nat.min_eq_left whole]
    omega
  constructor
  · refine ⟨.raw, raw, .nand (p * c.writesize), ?_, by simpa [DeviceRead.fails] using bad⟩
    simp only [ChunkReader.needed, chip, zero, Flash.pagesAsked_zero small]
    exact List.mem_map.mpr ⟨p, List.mem_range.mpr pages, rfl⟩
  have unit : 0 < c.writesize + c.oobsize := Nat.add_pos_left c.writesize_pos _
  have some : 0 < rawRead s c call.size :=
    (takeWhile_range_pos (Nat.lt_of_le_of_lt (Nat.zero_le p) pages)).mpr (by rwa [Nat.zero_mul])
  have few : rawRead s c call.size ≤ p := takeWhile_range_le bad
  have less : rawRead s c call.size * (c.writesize + c.oobsize) < total :=
    calc rawRead s c call.size * (c.writesize + c.oobsize) ≤ p * (c.writesize + c.oobsize) := Nat.mul_le_mul_right _ few
      _ < (p + 1) * (c.writesize + c.oobsize) := Nat.mul_lt_mul_of_pos_right (Nat.lt_succ_self p) unit
      _ ≤ total := (Nat.le_div_iff_mul_le unit).mp short
  have count := raw_count b.uploadAddr raw chip zero small
  rw [Nat.mod_eq_of_lt (by omega)] at count
  have got : 0 < rawRead s c call.size * (c.writesize + c.oobsize) := Nat.mul_pos some unit
  exact (shortened_iff (count ▸ got)).mpr ⟨whole, count ▸ less⟩

lemma cutShort_of_hidden (zero : call.offset = 0) (size : call.size = min total b.ramAvail)
    (failing : NeededFails s call st)
    (short : Shortened call total
      (backupReadDone (onFlashOf s b) e total call (flashResult s b.uploadAddr call st) w)) :
    CutShort s b total call st := by
  obtain ⟨reader, is, r, needed, fails⟩ := failing
  have some : 0 < (flashResult s b.uploadAddr call st).count := by
    by_contra none
    exact backupReadDone_error (Nat.eq_zero_of_not_pos none) short
  have whole : total ≤ b.ramAvail := ((shortened_iff some).mp short).1
  by_cases raw : reader = .raw
  · subst raw
    have avail := b.ramAvail_lt
    have small : call.size < 2 ^ 32 := by omega
    simp only [ChunkReader.needed] at needed
    cases chip : s.board.nand with
    | none =>
      rw [chip] at needed
      cases needed
    | some c =>
      simp only [chip, zero, Flash.pagesAsked_zero small] at needed
      obtain ⟨p, mem, rfl⟩ := List.mem_map.mp needed
      have pages := List.mem_range.mp mem
      have bad : s.io.reads (p * c.writesize) = false := by simpa [DeviceRead.fails] using fails
      -- something has been read, so the page that fails is not the first
      have first : s.io.reads 0 = true := by
        rw [raw_count _ is chip zero small] at some
        have read : 0 < rawRead s c call.size := by
          by_contra none
          rw [Nat.eq_zero_of_not_pos none, Nat.zero_mul] at some
          cases some
        rw [← Nat.zero_mul c.writesize]
        exact (takeWhile_range_pos (Nat.lt_of_le_of_lt (Nat.zero_le p) pages)).mp read
      have later : 0 < p := by
        rw [Nat.pos_iff_ne_zero]
        rintro rfl
        rw [Nat.zero_mul, first] at bad
        cases bad
      rw [size, Nat.min_eq_left whole] at pages
      exact ⟨is, whole, first, c, chip, p, later, by omega, by omega, bad⟩
  · rw [flashResult_read is, count_failed (ChunkReader.read_failed raw needed fails)] at some
    cases some

end

/-- A read that fails before the header is built is never answered with a complete 200 of fewer bytes than the
range, on any board and for any request, exactly where no raw read stops at a later page of a backup without
chunks. -/
theorem backup_errors_iff (s : Setup) (b : Board) (e : Env) (data : Bytes) (st : ChunkState) (w : Work) :
    (∀ total call, parseBackup (onFlashOf s b) data = .read total call → NeededFails s call st →
      ¬Shortened call total (backupReadDone (onFlashOf s b) e total call (flashResult s b.uploadAddr call st) w)) ↔
    ∀ total call, parseBackup (onFlashOf s b) data = .read total call → ¬CutShort s b total call st := by
  refine forall_congr' fun total => forall_congr' fun call => imp_congr_right fun parsed => ?_
  obtain ⟨zero, size, -⟩ := parseBackup_read parsed
  constructor
  · intro told cut
    obtain ⟨failing, short⟩ := cut.hides zero size
    exact told failing short
  · intro sound failing short
    exact sound (cutShort_of_hidden zero size failing short)

def fourthPageBad : Setup :=
  { Upgrade.nandSetup [] with io := { Flash.sound with reads := fun off => off ≠ 12 } }

/-- A raw backup of the chip, of 40 bytes with the spare bytes, is answered with a complete file of 15. -/
theorem backup_three_pages :
    let data := bytes "GET /backup?part=nand_full&size=40&raw=1 HTTP/1.1\r\n\r\n"
    let call : FlashCall := ⟨Flash.nandFull, 0, 40, true, none⟩
    let st : ChunkState := ⟨Flash.idle, Flash.emmcCacheInvalidate⟩
    parseBackup (onFlashOf fourthPageBad sampleBoard) data = .read 40 call ∧ NeededFails fourthPageBad call st ∧
      (backupReadDone (onFlashOf fourthPageBad sampleBoard) { now := 0 } 40 call
        (flashResult fourthPageBad sampleBoard.uploadAddr call st)
        (boot.work 1 { pcb := { id := 0 } })).hs.trail.built = backupHeader call 15 ++ List.replicate 15 0xFF := by
  refine ⟨by decide +kernel, ⟨.raw, rfl, .nand 12, by decide, rfl⟩, by decide +kernel⟩

end ResQBoot.Failsafe
