import ResQBoot.Failsafe.Backup

/-!
# The server as a state machine

The callbacks lwIP calls, the main loop, and `HttpdStop`/`HttpdStart` as a step function on `Server`. At each step the
environment chooses which callback runs, what `malloc`, `get_timer`, `tcp_sndbuf`, `tcp_write` and the flash answer, and
when an interrupted call returns. An event that cannot happen leaves the state unchanged: `netEnabled` says when the
network runs, and `pollEnabled` when `failsafe_httpd_poll` is called.
-/

namespace ResQBoot.Failsafe

def armUpgrade (w : Work) : Work :=
  if w.g.upload.done && (w.g.uploadHs.isNone || w.g.uploadHs = some w.h) then
    { w with g := { w.g with
        readyForUpgrade := w.g.readyForUpgrade || !w.g.upload.failed
        upload := { w.g.upload with done := false, failed := false }
        uploadHs := none } }
  else w

def Work.isOwner (w : Work) : Bool := w.hs.ownsGlobal && w.g.hsGlobal = some w.h

def headerSent (w : Work) : Work :=
  if w.isOwner && w.g.backup.sendingHeader && w.hs.upload = 0 then
    { w.setBackup { w.g.backup with sendingHeader := false } with
      hs := { w.hs with
        state := .fileRequest
        dataptr := ramPtr w.g.backup.dataAddr
        upload := w.g.backup.dataSize } }
  else w

lemma headerSent_other {w : Work} (other : w.isOwner = false) : headerSent w = w := by
  simp [headerSent, other]

def Work.logClosed (w : Work) : Work :=
  { w with g := { w.g with hist := { w.g.hist with
    closed := w.g.hist.closed ++ [(w.hs.pcb, w.hs.trail)] } } }

def sentClose (now : UInt32) (w : Work) : Work × Fate :=
  httpdCloseConn now (armUpgrade w).logClosed

def Work.touch (now : UInt32) (w : Work) : Work := { w with hs := { w.hs with lastActivity := now } }

@[simp] lemma touch_g (now : UInt32) (w : Work) : (w.touch now).g = w.g := rfl

def httpdSent (e : Env) (w : Work) : Work × Fate :=
  let w := headerSent (w.touch e.now)
  if w.hs.upload = 0 then
    if w.isOwner && w.g.backup.chunked && 0 < w.g.backup.totalRemaining &&
        !w.g.backup.chunkBusy then
      (w.setBackup { w.g.backup with chunkBusy := true }, .keep)
    else if w.isOwner && w.g.backup.chunkBusy then (w, .keep)
    else sentClose e.now w
  else (httpdSendData e w, .keep)

def httpdFin (e : Env) (w : Work) : Work × Fate :=
  httpdCloseConn e.now (armUpgrade w)

def httpdRequest (b : Board) (e : Env) (data : Bytes) (w : Work) : Work × Fate :=
  match route data with
  | .upload => httpdStartUpload b e data w
  | .backup => httpdHandleBackup b e data w
  | r =>
    match answer b w.g w.dev data r with
    | some a => (w.apply e a, .keep)
    | none => httpdCloseConn e.now w

def httpdRecv (b : Board) (e : Env) (data : Bytes) (w : Work) : Work × Fate :=
  let w := w.touch e.now
  if e.dataOk then
    match w.hs.state with
    | .none => httpdRequest b e data w
    | .uploadRequest => httpdContinueUpload b e data w
    | .fileRequest => (w, .keep)
  else httpdCloseConn e.now w

section Recv

variable {b : Board} {e : Env} {d : Bytes} {w : Work}

lemma recv_lost (lost : ¬ e.dataOk = true) : httpdRecv b e d w = httpdCloseConn e.now (w.touch e.now) := by
  rw [httpdRecv, if_neg lost]

lemma recv_new (ok : e.dataOk = true) (new : w.hs.state = .none) :
    httpdRecv b e d w = httpdRequest b e d (w.touch e.now) := by
  have state : (w.touch e.now).hs.state = .none := new
  simp only [httpdRecv, ok, if_true, state]

lemma recv_answered (ok : e.dataOk = true) (answered : w.hs.state = .fileRequest) :
    httpdRecv b e d w = (w.touch e.now, .keep) := by
  have state : (w.touch e.now).hs.state = .fileRequest := answered
  simp only [httpdRecv, ok, if_true, state]

lemma recv_uploading (ok : e.dataOk = true) (uploading : w.hs.state = .uploadRequest) :
    httpdRecv b e d w = httpdContinueUpload b e d (w.touch e.now) := by
  have state : (w.touch e.now).hs.state = .uploadRequest := uploading
  simp only [httpdRecv, ok, if_true, state]

lemma recv_looking (ok : e.dataOk = true) (uploading : w.hs.state = .uploadRequest)
    (open_ : w.g.upload.dataStartFound = false) {w' : Work} {v : Bool}
    (search : httpdFindandstoreFirstchunk b d (w.touch e.now) = (w', v)) :
    httpdRecv b e d w = if v then fileStarted e w' else httpdCloseConn e.now w' := by
  have open_' : (w.touch e.now).g.upload.dataStartFound = false := open_
  rw [recv_uploading ok uploading, httpdContinueUpload, open_', if_neg Bool.false_ne_true, search]
  cases v <;> rfl

end Recv

def dropConn (w : Work) : Work :=
  let w : Work := { w with g := if w.g.uploadHs = some w.h then httpdDiscardPendingUpload w.g else w.g }
  { w with g := { w.g with hsGlobal := if w.g.hsGlobal = some w.h then none else w.g.hsGlobal } }

def httpdErr (e : Env) (w : Work) : Work × Fate :=
  httpdCloseConn e.now (dropConn w)

def httpdPollCb (e : Env) (w : Work) : Work × Fate :=
  if 300000 ≤ e.now - w.hs.lastActivity then httpdCloseConn e.now (dropConn w)
  else if 0 < w.hs.upload then (httpdSendData e w, .keep)
  else (w, .keep)

def httpdAccept (now : UInt32) (block : Option Addr) (s : Server) : Server :=
  match block with
  | none => s
  | some a =>
    if (s.conns a).isSome then s
    else
      { s with
        conns := Function.update s.conns a
          (some { lastActivity := now, pcb := { id := s.nextId } })
        nextId := s.nextId + 1 }

def httpdStop (s : Server) : Server :=
  { s with
    conns := fun _ => none
    hsGlobal := none
    upload := {}
    backup := {}
    uploadPending := false
    uploadHs := none
    boundaryValue := none
    isRunning := false
    readyForUpgrade := false
    target := { s.target with upgradeType := .firmware, backupAvail := false, autoReboot := true } }

def Server.fetching (s : Server) : Bool :=
  s.backup.chunked && s.backup.chunkBusy && 0 < s.backup.totalRemaining

lemma Server.fetching_iff {s : Server} : s.fetching = true ↔
    s.backup.chunked = true ∧ s.backup.chunkBusy = true ∧ 0 < s.backup.totalRemaining := by
  simp [Server.fetching, and_assoc]

def pollTail (b : Board) (s : Server) : Server :=
  if s.fetching then backupChunkNext b s else s

def failsafeHttpdPoll (b : Board) (s : Server) : Server :=
  if !s.isRunning then s
  else if s.readyForUpgrade then
    { s with
      readyForUpgrade := false
      upgradeStatus := 1
      stack := .upgradeWait false :: s.stack }
  else if s.dev.term.hasPendingCmd then
    { s with
      dev := { s.dev with term := s.dev.term.startPendingCommand }
      stack := .command :: s.stack }
  else pollTail b s

def enterUpgrade (s : Server) : Server :=
  { s with
    hist := { s.hist with entered := s.hist.entered ++
      [⟨s.hist.completed.length, s.netBootFileSize, s.target.upgradeType⟩] }
    stack := .upgrading :: s.stack }

def upgradeDone (ok : Bool) (s : Server) : Server :=
  let s : Server := { s with uploadPending := false }
  if ok then
    { s with
      upgradeStatus := if s.target.autoReboot then 4 else 5
      stack := .doneWait :: s.stack }
  else { s with upgradeStatus := 3, stack := .failedWait :: s.stack }

def resumeFrame (b : Board) (e : Env) (ok : Bool) (s : Server) : Frame → Server
  | .backupRead .. => s
  | .chunkRead .. => s
  | .chunkWait _ => chunkWaitDone e s
  | .command =>
    let s : Server := { s with dev := { s.dev with term := s.dev.term.flushPending } }
    if s.isRunning then pollTail b s else s
  | .upgradeWait false => { s with upgradeStatus := 2, stack := .upgradeWait true :: s.stack }
  | .upgradeWait true => enterUpgrade s
  | .upgrading => upgradeDone ok s
  | .failedWait => s
  | .doneWait => if s.target.autoReboot then boot else s

def readReturns (b : Board) (e : Env) (r : FlashResult) (s : Server) : Frame → Server
  | .backupRead h total call _ =>
    match s.conns h with
    | none => { s with crashed := true }
    | some c => s.commit (backupReadDone b e total call r (s.work h c), .keep)
  | .chunkRead _ _ owner => chunkReadDone b e.now owner r s
  | _ => s

def Frame.isRead : Frame → Bool
  | .backupRead .. => true
  | .chunkRead .. => true
  | _ => false

def Frame.isUpgrade : Frame → Bool
  | .upgradeWait _ => true
  | .upgrading => true
  | _ => false

def Frame.phase : Frame → Option ReadPhase
  | .backupRead _ _ _ p => some p
  | .chunkRead _ p _ => some p
  | _ => none

def Frame.polled : Frame → Frame
  | .backupRead h t c _ => .backupRead h t c .polled
  | .chunkRead c _ o => .chunkRead c .polled o
  | f => f

def Server.netEnabled (s : Server) : Bool :=
  s.isRunning && match s.stack with
    | [] => true
    | f :: _ => f.phase.isNone || f.phase = some .polled

def Server.pollCalled (s : Server) : Option Server :=
  match s.stack with
  | [] => some s
  | .command :: _ => some s
  | .upgrading :: _ => some s
  | f :: rest => if f.phase = some .poll then some { s with stack := f.polled :: rest } else none

def Server.atPrompt (s : Server) : Bool :=
  match s.stack with
  | [] => true
  | .command :: _ => true
  | _ => false

inductive Event where
  | accept (now : UInt32) (block : Option Addr)
  | recv (h : Addr) (e : Env) (seg : Segment)
  | fin (h : Addr) (e : Env)
  | sent (h : Addr) (e : Env)
  | err (h : Addr) (e : Env)
  | pollCb (h : Addr) (e : Env)
  | mainPoll
  | readReturns (e : Env) (r : FlashResult)
  | returns (e : Env) (ok : Bool)
  | stop
  | start

def Event.isNet : Event → Bool
  | .accept .. => true
  | .recv .. => true
  | .fin .. => true
  | .sent .. => true
  | .err .. => true
  | .pollCb .. => true
  | _ => false

def Event.isReadReturn : Event → Bool
  | .readReturns .. => true
  | _ => false

def Server.onConn (s : Server) (h : Addr) (f : Work → Work × Fate) : Server :=
  match s.conns h with
  | none => s
  | some c => s.commit (f (s.work h c))

def netStep (b : Board) (s : Server) : Event → Server
  | .accept now block => httpdAccept now block s
  | .recv h e seg => s.onConn h (httpdRecv b e seg.data)
  | .fin h e => s.onConn h (httpdFin e)
  | .sent h e => s.onConn h (httpdSent e)
  | .err h e => s.onConn h (httpdErr e)
  | .pollCb h e => s.onConn h (httpdPollCb e)
  | _ => s

def loopStep (b : Board) (s : Server) : Event → Server
  | .mainPoll =>
    match s.pollCalled with
    | some s => failsafeHttpdPoll b s
    | none => s
  | .readReturns e r =>
    match s.stack with
    | f :: rest =>
      if f.isRead && f.phase ≠ some .poll then readReturns b e r { s with stack := rest } f else s
    | [] => s
  | .returns e ok =>
    match s.stack with
    | f :: rest => if f.isRead then s else resumeFrame b e ok { s with stack := rest } f
    | [] => s
  | .stop => if s.atPrompt && s.isRunning then httpdStop s else s
  | .start => if s.atPrompt && !s.isRunning then { s with isRunning := true } else s
  | _ => s

def step (b : Board) (s : Server) (ev : Event) : Server :=
  if s.crashed then s
  else if ev.isNet then (if s.netEnabled then netStep b s ev else s)
  else loopStep b s ev

lemma step_net {b : Board} {s : Server} {ev : Event} (run : s.crashed = false)
    (net : s.netEnabled = true) (is : ev.isNet = true) : step b s ev = netStep b s ev := by
  simp only [step, run, net, is, Bool.false_eq_true, if_false, if_true]

lemma Server.onConn_some {s : Server} {h : Addr} {c : Conn} (live : s.conns h = some c)
    (f : Work → Work × Fate) : s.onConn h f = s.commit (f (s.work h c)) := by
  simp only [Server.onConn, live]

def sampleServer : Server := step sampleBoard boot (.accept 0 (some 1))

end ResQBoot.Failsafe
