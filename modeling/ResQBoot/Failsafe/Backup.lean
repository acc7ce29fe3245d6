import ResQBoot.Failsafe.Upload

/-!
# Backups

`httpd_handle_backup` and `backup_chunk_next`, cut at the calls the network may run inside of: `backupReadDone` is the
rest of the first function, `chunkReadDone` and `chunkWaitDone` are the other parts of the second. What
`flashread_partition_chunk` does is its result, a `FlashResult`.
-/

namespace ResQBoot.Failsafe

structure FlashResult where
  stored : Bytes
  size : Option UInt32
  detail : Bytes := []
  deriving DecidableEq, Repr

def FlashResult.count (r : FlashResult) : Nat := (r.size.map UInt32.toNat).getD 0

def flashParam : UInt8 → Bytes → Option Bytes
  | _, [] => none
  | prev, c :: t =>
    if hasAt (c :: t) 0 (bytes "flash=") && (prev = 63 || prev = 38) then some ((c :: t).drop 6)
    else flashParam c t

def flashOverride (query : Bytes) : Option (Option FlashSel) :=
  match flashParam 63 query with
  | none => some none
  | some t =>
    let v := t.takeWhile fun c => c ≠ 38 ∧ c ≠ 13 ∧ c ≠ 10 ∧ c ≠ 32
    if v = bytes "emmc" then some (some .emmc)
    else if v = bytes "nand" then some (some .nand)
    else if v = bytes "nor" then some (some .nor)
    else none

def backupPartName (t : Bytes) : Bytes :=
  (cstr (urlDecode (strTrimCrlf (t.take 63)))).takeWhile (· ≠ 38)

def backupSize (query : Bytes) : Nat :=
  match find (bytes "size=") query with
  | none => 0
  | some k => (simpleStrto 64 10 (query.drop (k + 5))).1

inductive BackupRequest where
  | refused (text : Bytes)
  | read (totalSize : Nat) (call : FlashCall)
  deriving DecidableEq, Repr

def badRequest (why : Bytes) : Bytes :=
  bytes "HTTP/1.0 400 Bad Request\r\nConnection: close\r\n\r\n" ++ why

def parseBackup (b : Board) (data : Bytes) : BackupRequest :=
  match strchr data 4 63 with
  | none => .refused (badRequest (bytes "Missing partition"))
  | some q =>
    let query := (cstr (data.drop q)).drop 1
    if !hasAt query 0 (bytes "part=") then .refused (badRequest (bytes "Missing partition"))
    else
      let name := backupPartName (query.drop 5)
      let raw := contains (bytes "raw=1") query
      match flashOverride query with
      | none => .refused (badRequest (bytes "Invalid flash type"))
      | some flash =>
        if backupSize query = 0 then .refused (badRequest (bytes "Missing size"))
        else
          let capacity := b.flashCapacity name raw flash
          let total := if capacity ≠ 0 ∧ capacity < backupSize query then capacity
            else backupSize query
          .read total ⟨name, 0, min total b.ramAvail, raw, flash⟩

lemma parseBackup_read {b : Board} {d : Bytes} {total : Nat} {call : FlashCall}
    (h : parseBackup b d = .read total call) : call.offset = 0 ∧ call.size = min total b.ramAvail ∧ 0 < total := by
  unfold parseBackup at h
  split at h
  · cases h
  dsimp only at h
  generalize flashOverride _ = flash at h
  cases flash with
  | none => split_ifs at h
  | some flash =>
    split_ifs at h with _ named
    obtain ⟨rfl, rfl⟩ := BackupRequest.read.inj h
    refine ⟨rfl, rfl, ?_⟩
    split_ifs with cap
    · exact Nat.pos_of_ne_zero cap.1
    · exact Nat.pos_of_ne_zero named

def Board.readPhase (b : Board) (call : FlashCall) : ReadPhase :=
  if b.readPolls call then .poll else .direct

def Work.setBackup (bk : Backup) (w : Work) : Work := { w with g := { w.g with backup := bk } }

def httpdHandleBackup (b : Board) (e : Env) (data : Bytes) (w : Work) : Work × Fate :=
  if w.busy then (httpdSendText e busyText w, .keep)
  else
    match parseBackup b data with
    | .refused t => (httpdSendText e t w, .keep)
    | .read total call =>
      (w.setBackup { w.g.backup with
          raw := call.raw
          flashType := call.flashType
          totalSize := total
          partName := call.partName },
        .call (.backupRead w.h total call (b.readPhase call)))

def backupHeader (call : FlashCall) (size : Nat) : Bytes :=
  bytes "HTTP/1.0 200 OK\r\nContent-Type: application/octet-stream\r\n" ++
    bytes "Content-Disposition: attachment; filename=\"" ++ call.partName ++
    (if call.raw then bytes "_oob" else []) ++ bytes ".bin\"\r\nContent-Length: " ++ decimal size ++
    bytes "\r\nConnection: close\r\n\r\n"

def readFailedText (detail : Bytes) : Bytes :=
  bytes "HTTP/1.0 500 Internal Server Error\r\nConnection: close\r\n\r\nRead failed" ++
    (if (cstr detail).isEmpty then [] else bytes ": " ++ cstr detail)

def Work.stored (b : Board) (r : FlashResult) (w : Work) : Work :=
  { w with mem := Function.update w.mem .ram ((w.mem .ram).write b.uploadAddr r.stored) }

def firstChunk (b : Board) (total size : Nat) (bk : Backup) : Backup :=
  let bk := { bk with dataAddr := b.uploadAddr, dataSize := size }
  if b.ramAvail < total then
    { bk with
      chunked := true
      chunkOffset := size
      totalSent := size
      totalRemaining := total - size }
  else
    { bk with
      totalSize := size
      chunked := false
      totalRemaining := 0
      totalSent := 0
      chunkOffset := 0 }

def announced (b : Board) (total size : Nat) : Nat := if b.ramAvail < total then total else size

def Work.printPartJson (t : Bytes) (w : Work) : Work :=
  { w with mem := Function.update w.mem .partJson ((w.mem .partJson).write 0 (t ++ [0])) }

def Work.takeBackup (b : Board) (total : Nat) (call : FlashCall) (size : Nat) (w : Work) : Work :=
  let hdr := backupHeader call (announced b total size)
  { w with
    g := { w.g with hsGlobal := some w.h, backup := firstChunk b total size w.g.backup }
    hs := { w.hs with
      state := .fileRequest
      ownsGlobal := true
      dataptr := .mem .partJson 0
      upload := hdr.length
      trail := { w.hs.trail with
        built := hdr ++ (w.mem .ram).read b.uploadAddr size
        body := some (w.hs.pcb.out.length + hdr.length, announced b total size) } } }

def backupReadDone (b : Board) (e : Env) (total : Nat) (call : FlashCall) (r : FlashResult)
    (w : Work) : Work :=
  let w := w.stored b r
  if r.count = 0 then
    let t := readFailedText r.detail
    httpdSendStatic e (.mem .partJson 0) t.length (w.printPartJson t)
  else
    let size := min r.count total
    let w := w.printPartJson (backupHeader call (announced b total size))
    let w := httpdSendData e (w.takeBackup b total call size)
    w.setBackup { w.g.backup with sendingHeader := true }

def Server.stored (b : Board) (r : FlashResult) (s : Server) : Server :=
  { s with mem := Function.update s.mem .ram ((s.mem .ram).write b.uploadAddr r.stored) }

def Server.setBackup (bk : Backup) (s : Server) : Server := { s with backup := bk }

def Server.owner (s : Server) : Option Conn := s.hsGlobal.bind s.conns

def backupChunkNext (b : Board) (s : Server) : Server :=
  let bk := s.backup
  let call : FlashCall :=
    ⟨bk.partName, bk.chunkOffset, min bk.totalRemaining b.ramAvail, bk.raw, bk.flashType⟩
  { s with stack := .chunkRead call (b.readPhase call) (s.owner.map (·.pcb.id)) :: s.stack }

def nextChunk (b : Board) (n : Nat) (bk : Backup) : Backup :=
  let sent := u64 (bk.totalSent + n)
  let size := if bk.totalSize < sent then u32 (n + 2 ^ 32 - u32 (sent - bk.totalSize)) else n
  let sent := if bk.totalSize < sent then bk.totalSize else sent
  { bk with
    dataAddr := b.uploadAddr
    dataSize := size
    chunkOffset := u64 (bk.chunkOffset + n)
    totalSent := sent
    totalRemaining := bk.totalSize - sent }

def endChunks (bk : Backup) : Backup :=
  { bk with chunked := false, totalRemaining := 0, chunkBusy := false }

def Server.withOwner (s : Server) (f : Work → Work × Fate) (idle : Server) : Server :=
  match s.hsGlobal with
  | none => idle
  | some a =>
    match s.conns a with
    | none => { s with crashed := true }
    | some c => s.commit (f (s.work a c))

lemma Server.withOwner_cases {s : Server} {f : Work → Work × Fate} {idle : Server} {P : Server → Prop}
    (free : s.hsGlobal = none → P idle)
    (gone : ∀ a, s.hsGlobal = some a → s.conns a = none → P { s with crashed := true })
    (works : ∀ a c, s.hsGlobal = some a → s.conns a = some c → P (s.commit (f (s.work a c)))) :
    P (s.withOwner f idle) := by
  unfold Server.withOwner
  split
  · exact free ‹_›
  · split
    · exact gone _ ‹_› ‹_›
    · exact works _ _ ‹_› ‹_›

lemma Server.withOwner_owned {s : Server} {f : Work → Work × Fate} {idle : Server} {P : Server → Prop}
    {a : Addr} {c : Conn} (owner : s.hsGlobal = some a) (live : s.conns a = some c)
    (works : P (s.commit (f (s.work a c)))) : P (s.withOwner f idle) := by
  simpa only [Server.withOwner, owner, live] using works

def extendBuilt (a : Option Addr) (chunk : Bytes) (conns : Addr → Option Conn) :
    Addr → Option Conn := fun x =>
  if a = some x then
    (conns x).map fun c => { c with trail := { c.trail with built := c.trail.built ++ chunk } }
  else conns x

def chunkReadDone (b : Board) (now : UInt32) (owner : Option Nat) (r : FlashResult) (s : Server) :
    Server :=
  let s := s.stored b r
  if r.count = 0 then
    let s := s.setBackup (endChunks s.backup)
    s.withOwner (httpdCloseConn now) s
  else
    let bk := nextChunk b r.count s.backup
    { s.setBackup bk with
      stack := .chunkWait owner :: s.stack
      conns := extendBuilt s.hsGlobal ((s.mem .ram).read b.uploadAddr bk.dataSize) s.conns }

def chunkWaitDone (e : Env) (s : Server) : Server :=
  s.withOwner
    (fun w =>
      let w := httpdSendData e { w with hs := { w.hs with
        dataptr := ramPtr w.g.backup.dataAddr
        upload := w.g.backup.dataSize } }
      (w.setBackup { w.g.backup with chunkBusy := false }, .keep))
    (s.setBackup (endChunks s.backup))

end ResQBoot.Failsafe
