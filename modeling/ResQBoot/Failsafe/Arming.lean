import ResQBoot.Failsafe.Ownership

/-!
# Arming the upgrade

What the server remembers of a completed upload (`Arming`), what a callback and the main loop can do to it (`Turn`,
`LoopTurn`), and the invariant that keeps an upload apart from the pending image (`Exclusive`).
-/

namespace ResQBoot.Failsafe

variable {k : Cause} {ok : Prop}

structure Arming where
  pending : Bool
  done : Bool
  failed : Bool
  ready : Bool
  uploadHs : Option Addr
  size : Nat
  target : Target
  completed : List Completed
  entered : List Entered
  discarded : List Nat
  frames : List Frame

def Globals.arming (frames : List Frame) (g : Globals) : Arming where
  pending := g.uploadPending
  done := g.upload.done
  failed := g.upload.failed
  ready := g.readyForUpgrade
  uploadHs := g.uploadHs
  size := g.netBootFileSize
  target := g.target
  completed := g.hist.completed
  entered := g.hist.entered
  discarded := g.hist.discarded
  frames := frames

def Server.arming (s : Server) : Arming := s.toGlobals.arming (s.stack.filter Frame.isUpgrade)

inductive Turn (h : Addr) : Arming → Arming → Prop where
  | stays (a : Arming) : Turn h a a
  /-- A new upload, or more of one. -/
  | receives (a : Arming) (failed : Bool) (target : Target) (idle : a.pending = false) :
    Turn h a { a with done := false, failed := failed, uploadHs := none, target := target }
  /-- An upload is answered with 200. -/
  | completes (a : Arming) (c : Completed) (target : Target) (idle : a.pending = false)
      (type : c.type = target.upgradeType) :
    Turn h a
      { a with
        pending := true
        done := true
        failed := false
        uploadHs := some h
        size := c.size
        target := target
        completed := a.completed ++ [c] }
  /-- An upload is answered with 500. -/
  | fails (a : Arming) (size : Nat) (target : Target) (idle : a.pending = false) :
    Turn h a
      { a with done := true, failed := true, uploadHs := none, size := size, target := target }
  /-- The response to an upload is out. -/
  | arms (a : Arming) (done : a.done = true) (whose : a.uploadHs = none ∨ a.uploadHs = some h) :
    Turn h a
      { a with done := false, failed := false, uploadHs := none, ready := a.ready || !a.failed }
  /-- The connection of a pending upload has failed. -/
  | discards (a : Arming) (whose : a.uploadHs = some h) :
    Turn h a
      { a with
        pending := false
        done := false
        failed := false
        uploadHs := none
        discarded := a.discarded ++ [a.completed.length] }

inductive LoopTurn : Arming → Arming → Prop where
  | stays (a : Arming) : LoopTurn a a
  | starts (a : Arming) (ready : a.ready = true) :
    LoopTurn a { a with ready := false, frames := .upgradeWait false :: a.frames }
  | waits (a : Arming) (rest : List Frame) (top : a.frames = .upgradeWait false :: rest) :
    LoopTurn a { a with frames := .upgradeWait true :: rest }
  | enters (a : Arming) (rest : List Frame) (top : a.frames = .upgradeWait true :: rest) :
    LoopTurn a
      { a with
        entered := a.entered ++ [⟨a.completed.length, a.size, a.target.upgradeType⟩]
        frames := .upgrading :: rest }
  | ends (a : Arming) (rest : List Frame) (top : a.frames = .upgrading :: rest) :
    LoopTurn a { a with pending := false, frames := rest }
  | reboots (a : Arming) : LoopTurn a boot.arming

/-! ## Callbacks -/

section
variable {b : Board} {w w' : Work} {r : Work × Fate} {e : Env} {fr : List Frame}

@[simp] lemma stateReset_arming (now : UInt32) : (httpdStateReset now w).g.arming fr = w.g.arming fr := by
  unfold httpdStateReset
  split <;> rfl

@[simp] lemma headerSent_arming : (headerSent w).g.arming fr = w.g.arming fr := by
  unfold headerSent
  split <;> rfl

lemma Booked.arming (k : Booked w w') (fr : List Frame) : w'.g.arming fr =
    { w.g.arming fr with failed := w'.g.upload.failed, target := w'.g.target } := by
  simp only [Globals.arming, k.pending, k.done, k.ready, k.uploadHs, k.size, k.hist]

lemma uploadComplete_failed (failed : w.g.upload.failed = true) : (httpdUploadComplete w).g.arming fr =
      { w.g.arming fr with done := true, size := w.hs.uploadTotal } := by
  simp [httpdUploadComplete, Globals.arming, failed]

lemma uploadComplete_ok (ok : w.g.upload.failed = false) : (httpdUploadComplete w).g.arming fr =
      { w.g.arming fr with
        pending := true
        done := true
        uploadHs := some w.h
        size := w.hs.uploadTotal
        completed := w.g.hist.completed ++
          [⟨w.hs.pcb.id, w.hs.uploadTotal, w.hs.trail.fileType.getD w.g.target.upgradeType⟩] } := by
  simp [httpdUploadComplete, Globals.arming, ok]

lemma UploadOutcome.turn {a : Arming} (out : UploadOutcome e ok w r) (holds : ok) (idle : a.pending = false)
    (eq : w.g.arming fr = { a with
      done := false, failed := w.g.upload.failed, uploadHs := none, target := w.g.target }) :
    Turn w.h a (r.1.g.arming fr) := by
  cases out with
  | goesOn => exact eq ▸ .receives a _ _ idle
  | dropped =>
    rw [httpdCloseConn, stateReset_arming, eq]
    exact .receives a _ _ idle
  | crashed => exact (eq ▸ .receives a _ _ idle : Turn w.h a (w.g.arming fr))
  | answered typed =>
    have same : (finishUpload e w).g.arming fr = (httpdUploadComplete w).g.arming fr :=
      stateReset_arming e.now
    have completed : w.g.hist.completed = a.completed := (congrArg Arming.completed eq :)
    rw [same]
    cases failed : w.g.upload.failed with
    | true =>
      rw [uploadComplete_failed failed, eq, failed]
      exact .fails a _ _ idle
    | false =>
      rw [uploadComplete_ok failed, eq, failed, typed holds, completed]
      exact .completes a ⟨w.hs.pcb.id, w.hs.uploadTotal, w.g.target.upgradeType⟩ w.g.target idle rfl

lemma armUpgrade_turn (w : Work) (fr : List Frame) : Turn w.h (w.g.arming fr) ((armUpgrade w).g.arming fr) := by
  unfold armUpgrade
  split_ifs with go
  · simp only [Bool.and_eq_true, Bool.or_eq_true, Option.isNone_iff_eq_none, decide_eq_true_eq] at go
    exact .arms (w.g.arming fr) go.1 go.2
  · exact .stays _

lemma dropConn_turn : Turn w.h (w.g.arming fr) ((dropConn w).g.arming fr) := by
  unfold dropConn
  dsimp only
  split_ifs with mine
  · exact .discards (w.g.arming fr) mine
  · exact .discards (w.g.arming fr) mine
  · exact .stays _
  · exact .stays _

structure InProgress (w : Work) : Prop where
  pending : w.g.uploadPending = false
  done : w.g.upload.done = false
  uploadHs : w.g.uploadHs = none
  typed : w.Typed

lemma InProgress.of_eq (rcv : InProgress w) (upload : w'.g.upload = w.g.upload)
    (target : w'.g.target = w.g.target) (pending : w.g.uploadPending = false → w'.g.uploadPending = false)
    (uploadHs : w'.g.uploadHs = w.g.uploadHs) (file : w'.hs.trail.fileType = w.hs.trail.fileType)
    : InProgress w' where
  pending := pending rcv.pending
  done := by rw [upload]; exact rcv.done
  uploadHs := uploadHs.trans rcv.uploadHs
  typed := by
    rw [Work.Typed, upload, target, file]
    exact rcv.typed

lemma Effect.turn (eff : Effect b k w r) (up : w.hs.state = .uploadRequest → InProgress w) :
    Turn w.h (w.g.arming fr) (r.1.g.arming fr) := by
  have idle (free : w.busy = false) : (w.g.arming fr).pending = false :=
    (Bool.or_eq_false_iff.mp free).1
  have reset (t : UInt32) (free : w.busy = false) : ((w.touch t).resetUpload).g.arming fr =
        { w.g.arming fr with done := false, failed := false, uploadHs := none } := by
    have pending : false = w.g.uploadPending := (idle free).symm
    simp only [Globals.arming, ← pending]
    rfl
  cases eff with
  | sends e now => exact .stays _
  | answers e now a new sound =>
    have same : ((w.touch now).apply e a).g.arming fr = w.g.arming fr := by
      simp only [Work.apply]
      split <;> rfl
    exact same ▸ .stays _
  | aborts now t =>
    rw [httpdCloseConn, stateReset_arming]
    exact .stays _
  | refuses now t new free =>
    rw [httpdCloseConn, stateReset_arming, reset t free]
    exact .receives (w.g.arming fr) false w.g.target (idle free)
  | gives now t total new free =>
    rw [httpdCloseConn, stateReset_arming]
    exact (reset t free ▸ .receives (w.g.arming fr) false w.g.target (idle free) :
      Turn w.h (w.g.arming fr) ((w.touch t).resetUpload.g.arming fr))
  | uploads e t total boundary w₁ r new free booked out =>
    have start : (((w.touch t).resetUpload.takeOver total).setBoundary boundary).g.arming fr =
      { w.g.arming fr with done := false, failed := false, uploadHs := none } := reset t free
    have eq := booked.arming fr
    rw [start] at eq
    exact booked.h ▸ out.turn trivial (idle free) eq
  | continues e t w₁ r state booked out =>
    obtain ⟨pending, done, uploadHs, typed⟩ := up state
    have start : (w.touch t).g.arming fr =
        { w.g.arming fr with done := false, uploadHs := none } := by
      simp only [Globals.arming, touch_g, done, uploadHs]
    have eq := booked.arming fr
    rw [start] at eq
    exact booked.h ▸ out.turn typed pending eq
  | reads t total call new idle => exact .stays _
  | sendsMore e more =>
    have same : (httpdSendData e (headerSent (w.touch e.now))).g.arming fr = w.g.arming fr :=
      headerSent_arming
    exact same ▸ .stays _
  | asks now =>
    have same : ((headerSent (w.touch now)).setBackup
        { (headerSent (w.touch now)).g.backup with chunkBusy := true }).g.arming fr =
      w.g.arming fr := headerSent_arming
    exact same ▸ .stays _
  | waits now =>
    have same : (headerSent (w.touch now)).g.arming fr = w.g.arming fr := headerSent_arming
    exact same ▸ .stays _
  | closes now =>
    have before : (headerSent (w.touch now)).g.arming fr = w.g.arming fr := headerSent_arming
    have here : (headerSent (w.touch now)).h = w.h := Keeps.headerSent.h
    rw [sentClose, httpdCloseConn, stateReset_arming]
    exact here ▸ before ▸ armUpgrade_turn (headerSent (w.touch now)) fr
  | fins e =>
    rw [httpdFin, httpdCloseConn, stateReset_arming]
    exact armUpgrade_turn w fr
  | drops now =>
    rw [httpdCloseConn, stateReset_arming]
    exact dropConn_turn

lemma UploadOutcome.receiving (out : UploadOutcome e ok w r) (holds : ok)
    (pending : w.g.uploadPending = false) (done : w.g.upload.done = false) (uploadHs : w.g.uploadHs = none)
    (kept : r.2 ≠ .freed) (state : r.1.hs.state = .uploadRequest) : InProgress r.1 := by
  cases out with
  | goesOn typed => exact ⟨pending, done, uploadHs, typed holds⟩
  | dropped => exact absurd rfl kept
  | answered => cases (sendStatic_state ..).symm.trans state
  | crashed typed => exact ⟨pending, done, uploadHs, typed holds⟩

lemma headerSent_uploading (state : (headerSent w).hs.state = .uploadRequest) : headerSent w = w := by
  unfold headerSent at state ⊢
  split_ifs at state ⊢
  rfl

lemma Effect.receiving (eff : Effect b k w r) (up : w.hs.state = .uploadRequest → InProgress w)
    (kept : r.2 ≠ .freed) (state : r.1.hs.state = .uploadRequest) : InProgress r.1 := by
  have same {w' : Work} (g : w'.g.arming [] = w.g.arming [])
      (found : w'.g.upload.dataStartFound = w.g.upload.dataStartFound)
      (trail : w'.hs.trail = w.hs.trail) (was : w.hs.state = .uploadRequest) : InProgress w' := by
    obtain ⟨pending, done, uploadHs, typed⟩ := up was
    refine ⟨(congrArg Arming.pending g :).trans pending, (congrArg Arming.done g :).trans done,
      (congrArg Arming.uploadHs g :).trans uploadHs, fun h => ?_⟩
    have target : w'.g.target = w.g.target := (congrArg Arming.target g :)
    rw [trail, target]
    exact typed (found ▸ h)
  cases eff with
  | sends e now => exact same rfl rfl (sendData_trail ..) ((sendData_state e (w.touch now)).symm.trans state)
  | answers e now a new sound =>
    simp only [Work.apply] at state
    split at state
    · cases (sendStatic_state ..).symm.trans state
    · cases new.symm.trans state
  | aborts | refuses | gives => exact absurd rfl kept
  | uploads e t total boundary w₁ r new idle booked out =>
    have pending : w.g.uploadPending = false := (Bool.or_eq_false_iff.mp idle).1
    exact out.receiving trivial booked.pending booked.done booked.uploadHs kept state
  | continues e t w₁ r was booked out =>
    obtain ⟨pending, done, uploadHs, typed⟩ := up was
    exact out.receiving typed (booked.pending.trans pending) (booked.done.trans done)
      (booked.uploadHs.trans uploadHs) kept state
  | reads t total call new => cases new.symm.trans state
  | sendsMore e more =>
    have state := (sendData_state ..).symm.trans state
    have none := headerSent_uploading state
    rw [none] at state ⊢
    exact same rfl rfl (sendData_trail ..) state
  | asks now | waits now =>
    have none := headerSent_uploading state
    rw [none] at state ⊢
    exact same rfl rfl rfl state
  | closes | fins | drops => exact absurd rfl kept

/-- A callback of another connection leaves an upload in progress alone. -/
lemma Effect.bystander (eff : Effect b k w r) (own : OwnWork w) (owned : w.g.hsGlobal ≠ none)
    (other : w.g.hsGlobal ≠ some w.h) (done : w.g.upload.done = false) (uploadHs : w.g.uploadHs = none) :
    r.1.g = { w.g with hist := r.1.g.hist, crashed := r.1.g.crashed } ∧ r.1.mem .ram = w.mem .ram := by
  have busy {p : Prop} (idle : w.busy = false) : p := by
    simp only [Work.busy, Bool.or_eq_false_iff, Bool.and_eq_false_iff, decide_eq_false_iff_not, not_not] at idle
    obtain none | eq := idle.2
    · exact absurd (by simpa using none) owned
    · exact absurd eq other
  have notOwner : w.hs.ownsGlobal = false := by
    by_contra owns
    exact other (own.owner.mp (by simpa using owns))
  have close (now : UInt32) (w' : Work) (hs : w'.hs.ownsGlobal = w.hs.ownsGlobal) :
      (httpdCloseConn now w').1.g = w'.g := by
    simp [httpdCloseConn, httpdStateReset, hs, notOwner]
  have header (now : UInt32) : headerSent (w.touch now) = w.touch now :=
    headerSent_other (by simp [Work.isOwner, Work.touch, notOwner])
  have arm (w' : Work) (g : w'.g = w.g) : armUpgrade w' = w' := by
    simp [armUpgrade, g, done]
  cases eff with
  | sends => exact ⟨rfl, rfl⟩
  | answers e now a new sound =>
    have ram : a.stored w.mem .ram = w.mem .ram :=
      Answer.stored_other (fun t eq => sound.store .ram t eq rfl) w.mem
    simp only [Work.apply]
    split <;> exact ⟨rfl, ram⟩
  | aborts now t =>
    rw [close now (w.touch t) rfl]
    exact ⟨rfl, rfl⟩
  | refuses now t new idle | gives now t total new idle | uploads e t total boundary w₁ r new idle booked out =>
    exact busy idle
  | continues e t w₁ r state => exact absurd (own.owner.mp (own.uploading state).1) other
  | reads t total call new idle => exact busy idle
  | sendsMore e more =>
    rw [header]
    exact ⟨rfl, rfl⟩
  | asks now sent owner =>
    rw [header, Work.isOwner] at owner
    exact absurd (Bool.and_eq_true_iff.mp owner).1 (by simp [Work.touch, notOwner])
  | waits now =>
    rw [header]
    exact ⟨rfl, rfl⟩
  | closes now =>
    rw [sentClose, header, arm (w.touch now) rfl, close now (w.touch now).logClosed rfl]
    exact ⟨rfl, rfl⟩
  | fins e =>
    rw [httpdFin, arm w rfl, close e.now w rfl]
    exact ⟨rfl, rfl⟩
  | drops now =>
    have waits : w.g.uploadHs ≠ some w.h := by simp [uploadHs]
    have same : dropConn w = w := by simp only [dropConn, if_neg waits, if_neg other]
    rw [same, close now w rfl]
    exact ⟨rfl, rfl⟩

/-- An upload has been confirmed, and its connection has given up the globals. -/
structure Confirms (r : Work × Fate) : Prop where
  kept : r.2 = .keep
  state : r.1.hs.state = .fileRequest
  owns : r.1.hs.ownsGlobal = false
  free : r.1.g.hsGlobal = none

lemma UploadOutcome.confirms (out : UploadOutcome e ok w r) (own : Owner w)
    (idle : w.g.uploadPending = false) (pending : r.1.g.uploadPending = true) : Confirms r := by
  cases out with
  | goesOn | crashed => cases idle.symm.trans pending
  | dropped =>
    simp only [httpdCloseConn, stateReset_kept] at pending
    cases idle.symm.trans pending
  | answered => exact ⟨rfl, sendStatic_state .., sendStatic_owns .., own.finish.2⟩

/-- An upload that is pending was so before, or has just been confirmed. -/
lemma Effect.pending (eff : Effect b k w r) (own : OwnWork w) (up : w.hs.state = .uploadRequest → InProgress w)
    (pending : r.1.g.uploadPending = true) :
    w.g.uploadPending = true ∧ (w.g.hsGlobal = none → r.1.g.hsGlobal = none) ∨ Confirms r := by
  have close {now : UInt32} {w' : Work}
      (was : w'.g.uploadPending = true → w.g.uploadPending = true ∧ (w.g.hsGlobal = none → w'.g.hsGlobal = none))
      (pending : (httpdCloseConn now w').1.g.uploadPending = true) :
      w.g.uploadPending = true ∧ (w.g.hsGlobal = none → (httpdCloseConn now w').1.g.hsGlobal = none) := by
    simp only [httpdCloseConn, stateReset_kept] at pending
    refine ⟨(was pending).1, fun none => ?_⟩
    rw [httpdCloseConn, stateReset_owned.1, (was pending).2 none, ite_self]
  have header (now : UInt32) (pending : (headerSent (w.touch now)).g.uploadPending = true) :
      w.g.uploadPending = true ∧ (w.g.hsGlobal = none → (headerSent (w.touch now)).g.hsGlobal = none) :=
    ⟨(Unsent.headerSent (w.touch now)).pending.symm.trans pending, (own.touch now).header.2.1.trans⟩
  cases eff with
  | sends | reads => exact .inl ⟨pending, id⟩
  | answers e now a new sound =>
    simp only [Work.apply] at pending ⊢
    split at pending <;> exact .inl ⟨pending, id⟩
  | aborts now t => exact .inl (close (fun was => ⟨was, id⟩) pending)
  | refuses | gives => exact .inl (close (fun was => by cases was) pending)
  | uploads e t total boundary w₁ r new idle booked out =>
    have taken : Owner (((w.touch t).resetUpload.takeOver total).setBoundary boundary) :=
      ⟨rfl, rfl, (own.fresh new).2, rfl, own.clear (.inl (own.idle new idle))⟩
    exact .inr (out.confirms (taken.booked booked) booked.pending pending)
  | continues e t w₁ r state booked out =>
    have owner := ((own.touch t).toOwner state).booked booked
    exact .inr (out.confirms owner (booked.pending.trans (up state).pending) pending)
  | sendsMore e more => exact .inl (header e.now pending)
  | asks now | waits now => exact .inl (header now pending)
  | closes now =>
    refine .inl (close (fun was => ?_) pending)
    exact (header now ((Unsent.armUpgrade _).pending.symm.trans was)).imp_right (armUpgrade_own.1.trans <| · ·)
  | fins e =>
    exact .inl (close (fun was => ⟨(Unsent.armUpgrade _).pending.symm.trans was, armUpgrade_own.1.trans⟩) pending)
  | drops now =>
    refine .inl (close (fun was => ?_) pending)
    simp only [dropConn] at was ⊢
    split_ifs at was ⊢
    · cases was
    · cases was
    · exact ⟨was, fun _ => rfl⟩
    · exact ⟨was, id⟩

lemma Effect.free (eff : Effect b k w r) (own : OwnWork w) (free : w.g.uploadPending = true → w.g.hsGlobal = none)
    (up : w.hs.state = .uploadRequest → InProgress w) (pending : r.1.g.uploadPending = true) :
    r.1.g.hsGlobal = none := by
  obtain ⟨was, same⟩ | confirmed := eff.pending own up pending
  · exact same (free was)
  · exact confirmed.free

end

/-! ## The server -/

structure Exclusive (s : Server) : Prop where
  free : s.uploadPending = true → s.hsGlobal = none
  reading : s.stack.any Frame.isBackupRead = true → s.uploadPending = false
  uploading : ∀ a c, s.conns a = some c → c.state = .uploadRequest → InProgress (s.work a c)

section
variable {b : Board} {s s' : Server} {ev : Event}

lemma Exclusive.of_eq (exc : Exclusive s) (hsGlobal : s'.hsGlobal = s.hsGlobal)
    (pending : s'.uploadPending = true → s.uploadPending = true) (upload : s'.upload = s.upload)
    (target : s'.target = s.target) (uploadHs : s'.uploadHs = s.uploadHs)
    (conns : ∀ a c', s'.conns a = some c' → ∃ c, s.conns a = some c ∧ c'.state = c.state ∧
      c'.trail.fileType = c.trail.fileType)
    (reading : s'.stack.any Frame.isBackupRead = true → s.stack.any Frame.isBackupRead = true) :
    Exclusive s' := by
  have idle (free : s.uploadPending = false) : s'.uploadPending = false := by
    by_contra set
    simp [free] at pending
    exact set pending
  refine ⟨fun h => hsGlobal.trans (exc.free (pending h)), fun h => idle (exc.reading (reading h)), ?_⟩
  intro a c' live up
  obtain ⟨c, live, state, file⟩ := conns a c' live
  exact (exc.uploading a c live (state ▸ up)).of_eq upload target idle uploadHs file

lemma StackMove.upgrades {st st' : List Frame} (move : StackMove st st') :
    st'.filter Frame.isUpgrade = st.filter Frame.isUpgrade := by
  cases move with
  | same => rfl
  | polled f rest phase => cases f <;> rfl
  | popped rest => simp [Frame.isUpgrade]

lemma StackMove.reading {st st' : List Frame} (move : StackMove st st')
    (any : st'.any Frame.isBackupRead = true) : st.any Frame.isBackupRead = true := by
  cases move with
  | same => exact any
  | polled f rest phase => simpa only [List.any_cons, polled_isBackupRead] using any
  | popped rest => simp only [List.any_cons, any, Bool.or_true]

lemma Effect.commit_turn {h : Addr} {c : Conn} {w : Work} {f : Fate}
    (eff : Effect b k (s.work h c) (w, f)) (up : c.state = .uploadRequest → InProgress (s.work h c)) :
    Turn h s.arming (s.commit (w, f)).arming := by
  have frames : (s.commit (w, f)).stack.filter Frame.isUpgrade = s.stack.filter Frame.isUpgrade := by
    cases f with
    | keep | freed => rfl
    | call f =>
      obtain ⟨-, -, -, -, -, total, call, rfl⟩ := eff.call rfl
      rfl
  rw [Server.arming, Server.arming, frames]
  exact eff.turn up

lemma NetEffect.exclusive (eff : NetEffect b s ev s') (own : Own s) (exc : Exclusive s)
    (noBackup : s.stack.any Frame.isBackupRead = false) :
    Exclusive s' ∧ ∃ h, Turn h s.arming s'.arming := by
  cases eff with
  | stays => exact ⟨exc, 0, .stays _⟩
  | accepts a now gone =>
    refine ⟨⟨exc.free, exc.reading, fun a' c live up => ?_⟩, 0, .stays _⟩
    obtain ⟨-, new⟩ | ⟨-, old⟩ := update_conns live
    · cases new
      cases up
    · exact exc.uploading a' c old up
  | calls h c k w f live eff keeps why =>
    have up := exc.uploading h c live
    have ownHere := own.conns h c live
    refine ⟨⟨eff.free ownHere exc.free up, fun any => ?_, fun a c' live' state => ?_⟩, h, eff.commit_turn up⟩
    · cases f with
      | keep | freed => cases noBackup.symm.trans any
      | call f =>
        obtain ⟨-, idle, -, -, same, -⟩ := eff.call rfl
        exact same.trans (Bool.or_eq_false_iff.mp idle).1
    · have here : w.h = h := keeps.h
      simp only [Server.commit, here, Function.update_apply] at live'
      split_ifs at live' with eq freed
      · subst eq
        cases live'
        exact (eff.receiving up freed state).of_eq rfl rfl id rfl rfl
      -- the uploading connection is the owner, and this callback is one of another
      · have rcv := exc.uploading a c' live' state
        have old := own.conns a c' live'
        have owner : s.hsGlobal = some a := old.owner.mp (old.uploading state).1
        have owned : (s.work h c).g.hsGlobal ≠ none := by
          rw [show (s.work h c).g.hsGlobal = some a from owner]
          exact Option.some_ne_none a
        have other : (s.work h c).g.hsGlobal ≠ some (s.work h c).h := by
          rw [show (s.work h c).g.hsGlobal = some a from owner]
          exact fun same => eq (Option.some.inj same)
        obtain ⟨g, -⟩ := eff.bystander ownHere owned other rcv.done rcv.uploadHs
        exact rcv.of_eq (congrArg Globals.upload g :) (congrArg Globals.target g :)
          (congrArg Globals.uploadPending g :).trans (congrArg Globals.uploadHs g :) rfl

lemma Own.notUploading (own : Own s) (chunked : s.backup.chunked = true) (a : Addr) (c : Conn)
    (live : s.conns a = some c) : c.state ≠ .uploadRequest := fun up => by
  have clear := (own.conns a c live).clear (.inr up)
  cases clear.2.2.symm.trans chunked

lemma backupReadDone_arming (b : Board) (e : Env) (total : Nat) (call : FlashCall) (r : FlashResult)
    (w : Work) (fr : List Frame) : (backupReadDone b e total call r w).g.arming fr = w.g.arming fr := by
  unfold backupReadDone
  dsimp only
  split <;> rfl

lemma backupReadDone_state (b : Board) (e : Env) (total : Nat) (call : FlashCall) (r : FlashResult)
    (w : Work) : (backupReadDone b e total call r w).hs.state = .fileRequest := by
  unfold backupReadDone
  dsimp only
  split
  · exact sendStatic_state ..
  · exact sendData_state ..

lemma chunkReadDone_arming (b : Board) (now : UInt32) (owner : Option Nat) (r : FlashResult)
    (s : Server) (fr : List Frame) : (chunkReadDone b now owner r s).toGlobals.arming fr = s.toGlobals.arming fr := by
  unfold chunkReadDone
  dsimp only
  split
  · refine Server.withOwner_cases (P := fun s' => s'.toGlobals.arming fr = s.toGlobals.arming fr)
      (fun _ => rfl) (fun _ _ _ => rfl) fun a c _ _ => ?_
    exact stateReset_arming now
  · rfl

lemma chunkReadDone_conns {now : UInt32} {owner : Option Nat} {r : FlashResult} (a : Addr) (c' : Conn)
    (live : (chunkReadDone b now owner r s).conns a = some c') :
    ∃ c, s.conns a = some c ∧ c'.state = c.state ∧ c'.pcb = c.pcb := by
  unfold chunkReadDone at live
  dsimp only at live
  split at live
  · revert live
    refine Server.withOwner_cases (P := fun s' => s'.conns a = some c' → _)
      (fun _ live => ⟨c', live, rfl, rfl⟩) (fun _ _ _ live => ⟨c', live, rfl, rfl⟩)
      fun a' c _ _ live => ?_
    simp only [httpdCloseConn, commit_conns_freed, Function.update_apply] at live
    split_ifs at live
    exact ⟨c', live, rfl, rfl⟩
  · simp only [extendBuilt] at live
    split_ifs at live
    · obtain ⟨c, old, rfl⟩ := Option.map_eq_some_iff.mp live
      exact ⟨c, old, rfl, rfl⟩
    · exact ⟨c', live, rfl, rfl⟩

lemma Exclusive.chunkWaitDone (exc : Exclusive s) (e : Env) :
    Exclusive (chunkWaitDone e s) ∧ (chunkWaitDone e s).arming = s.arming := by
  refine Server.withOwner_cases (P := fun s' => Exclusive s' ∧ s'.arming = s.arming) (fun _ => ?_)
    (fun a _ _ => ?_) fun a c owner live => ?_
  · exact ⟨exc.of_eq rfl id rfl rfl rfl (fun a c live => ⟨c, live, rfl, rfl⟩) id, rfl⟩
  · exact ⟨exc.of_eq rfl id rfl rfl rfl (fun a c live => ⟨c, live, rfl, rfl⟩) id, rfl⟩
  refine ⟨exc.of_eq rfl id rfl rfl rfl (fun a' c' live' => ?_) id, rfl⟩
  rw [commit_conns_keep, Function.update_apply] at live'
  split_ifs at live' with here
  · cases live'
    have here : a' = a := here
    exact ⟨c, here ▸ live, sendData_state .., congrArg Trail.fileType (sendData_trail ..)⟩
  · exact ⟨c', live', rfl, rfl⟩

lemma LoopEffect.exclusive (eff : LoopEffect b s ev s') (own : Own s) (calm : Calm s)
    (exc : Exclusive s) : Exclusive s' ∧ (ev ≠ .stop → LoopTurn s.arming s'.arming) := by
  have still {s' : Server} (h1 : s'.toGlobals.arming [] = s.toGlobals.arming [])
      (h2 : s'.stack.filter Frame.isUpgrade = s.stack.filter Frame.isUpgrade) :
      LoopTurn s.arming s'.arming := by
    have eq : s'.arming = s.arming := by
      rw [Server.arming, Server.arming, h2]
      exact congrArg (fun a => { a with frames := s.stack.filter Frame.isUpgrade }) h1
    exact eq ▸ .stays _
  have tail {f : Frame} {rest : List Frame} (top : s.stack = f :: rest)
      (any : rest.any Frame.isBackupRead = true) : s.stack.any Frame.isBackupRead = true := by
    simp only [top, List.any_cons, any, Bool.or_true]
  have popped {f : Frame} {rest : List Frame} (top : s.stack = f :: rest) (other : f.isUpgrade = false) :
      rest.filter Frame.isUpgrade = s.stack.filter Frame.isUpgrade := by
    simp [top, other]
  have frames {f : Frame} {rest : List Frame} (top : s.stack = f :: rest) (up : f.isUpgrade = true) :
      s.arming.frames = f :: rest.filter Frame.isUpgrade := by
    simp [Server.arming, Globals.arming, top, up]
  have unmoved {s' : Server} (h1 : s'.hsGlobal = s.hsGlobal)
      (h2 : s'.uploadPending = true → s.uploadPending = true) (h3 : s'.upload = s.upload)
      (h4 : s'.target = s.target) (h5 : s'.uploadHs = s.uploadHs) (h6 : s'.conns = s.conns)
      (h7 : s'.stack.any Frame.isBackupRead = true → s.stack.any Frame.isBackupRead = true) :
      Exclusive s' :=
    exc.of_eq h1 h2 h3 h4 h5 (fun a c live => ⟨c, h6 ▸ live, rfl, rfl⟩) h7
  cases eff with
  | stays => exact ⟨exc, fun _ => .stays _⟩
  | polls st dev move =>
    exact ⟨unmoved rfl id rfl rfl rfl rfl move.reading, fun _ => still rfl move.upgrades⟩
  | waited f st top is =>
    have other : f.isUpgrade = false := by obtain rfl | rfl := is <;> rfl
    exact ⟨unmoved rfl id rfl rfl rfl rfl (tail top), fun _ => still rfl (popped top other)⟩
  | readies st move ne ready =>
    refine ⟨unmoved rfl id rfl rfl rfl rfl move.reading, fun _ => ?_⟩
    have turn := LoopTurn.starts s.arming ready
    rwa [show s.arming.frames = _ from move.upgrades.symm] at turn
  | commands st dev move ne | fetches st dev move ne due =>
    exact ⟨unmoved rfl id rfl rfl rfl rfl move.reading, fun _ => still rfl move.upgrades⟩
  | dangles h total call p st top gone =>
    exact ⟨unmoved rfl id rfl rfl rfl rfl (tail top), fun _ => still rfl (popped top rfl)⟩
  | backupReturns e r h total call p st c is top live =>
    have idle := exc.reading (by simp [top, Frame.isBackupRead])
    obtain ⟨free, -⟩ := calm.backup h total call p (top ▸ List.mem_cons_self)
    have arming := backupReadDone_arming b e total call r (s.work h c)
    have pending : (backupReadDone b e total call r (s.work h c)).g.uploadPending = false :=
      (congrArg Arming.pending (arming []) :).trans idle
    refine ⟨⟨fun set => (by cases pending.symm.trans set), fun _ => pending, fun a c' live' up => ?_⟩,
      fun _ => still (arming []) (popped top rfl)⟩
    rw [commit_conns_keep, Function.update_apply] at live'
    split_ifs at live' with here
    · cases live'
      cases (backupReadDone_state ..).symm.trans up
    · have old := own.conns a c' live'
      cases free.symm.trans (old.owner.mp (old.uploading up).1)
  | chunkReturns e r call p owner st is top =>
    have chunked := calm.chunk (by simp [top, Frame.isChunkRead])
    obtain ⟨a, c, owned, -⟩ := own.chunked chunked
    have arming := chunkReadDone_arming b e.now owner r { s with stack := st }
    have pending : (chunkReadDone b e.now owner r { s with stack := st }).uploadPending = false := by
      refine (congrArg Arming.pending (arming []) :).trans (Bool.eq_false_iff.mpr fun set => ?_)
      cases owned.symm.trans (exc.free set)
    refine ⟨⟨fun set => (by cases pending.symm.trans set), fun _ => pending, fun a c' live' up => ?_⟩,
      fun _ => still (arming []) ?_⟩
    · obtain ⟨c, live, state, -⟩ := chunkReadDone_conns a c' live'
      exact absurd (state.symm.trans up) (own.notUploading chunked a c live)
    · obtain stack | stack := chunkReadDone_stack b e.now owner r { s with stack := st }
      · exact stack ▸ popped top rfl
      · rw [stack, List.filter_cons_of_neg (by simp [Frame.isUpgrade])]
        exact popped top rfl
  | handsOver e owner st top =>
    have exc' : Exclusive { s with stack := st } :=
      unmoved rfl id rfl rfl rfl rfl fun any => tail top any
    obtain ⟨exc', same⟩ := exc'.chunkWaitDone e
    exact ⟨exc', fun _ => same ▸ still rfl (popped top rfl)⟩
  | upgradeWaits st top =>
    refine ⟨unmoved rfl id rfl rfl rfl rfl fun any => tail top any, fun _ => ?_⟩
    exact .waits s.arming _ (frames top rfl)
  | enters st top =>
    refine ⟨unmoved rfl id rfl rfl rfl rfl fun any => tail top any, fun _ => ?_⟩
    exact .enters s.arming _ (frames top rfl)
  | upgraded ok st top =>
    have turn := LoopTurn.ends s.arming _ (frames top rfl)
    unfold upgradeDone
    cases ok
    · exact ⟨unmoved rfl (by rintro ⟨⟩) rfl rfl rfl rfl fun any => tail top any, fun _ => turn⟩
    · exact ⟨unmoved rfl (by rintro ⟨⟩) rfl rfl rfl rfl fun any => tail top any, fun _ => turn⟩
  | reboots =>
    exact ⟨⟨by rintro ⟨⟩, by rintro ⟨⟩, fun _ _ live => by cases live⟩, fun _ => .reboots _⟩
  | stops is prompt =>
    exact ⟨⟨by rintro ⟨⟩, fun _ => rfl, fun _ _ live => by cases live⟩, fun ne => absurd is ne⟩
  | starts => exact ⟨unmoved rfl id rfl rfl rfl rfl id, fun _ => still rfl rfl⟩

lemma step_exclusive (own : Own s) (calm : Calm s) (exc : Exclusive s) (quiet : Undisturbed s ev) :
    Exclusive (step b s ev) ∧ (ev ≠ .stop → (∃ h, Turn h s.arming (step b s ev).arming) ∨
      LoopTurn s.arming (step b s ev).arming) := by
  unfold step
  split_ifs with _ net
  · exact ⟨exc, fun _ => .inr (.stays _)⟩
  · have noBackup : s.stack.any Frame.isBackupRead = false :=
      Bool.eq_false_iff.mpr fun any => by cases net.symm.trans (quiet.1 any)
    obtain ⟨exc', turn⟩ := netStep_effect.exclusive own exc noBackup
    exact ⟨exc', fun _ => .inl turn⟩
  · exact ⟨exc, fun _ => .inr (.stays _)⟩
  · obtain ⟨exc', turn⟩ := loopStep_effect.exclusive own calm exc
    exact ⟨exc', fun ne => .inr (turn ne)⟩

structure Orderly (s : Server) : Prop where
  own : Own s
  calm : Calm s
  exclusive : Exclusive s

lemma Orderly.boot : Orderly boot :=
  ⟨.boot, .of_idle rfl rfl, by rintro ⟨⟩, by rintro ⟨⟩, fun _ _ live => by cases live⟩

lemma step_orderly (ord : Orderly s) (quiet : Undisturbed s ev) : Orderly (step b s ev) :=
  have own := step_own ord.own ord.calm quiet
  ⟨own.1, own.2, (step_exclusive ord.own ord.calm ord.exclusive quiet).1⟩

end

end ResQBoot.Failsafe
