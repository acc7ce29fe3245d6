import ResQBoot.Failsafe.Handover
import ResQBoot.Failsafe.Plain
import ResQBoot.Failsafe.Segmented

/-!
# Upload integrity

The segments of an upload may arrive between any other events: `listen` keeps, beside the server, what the connection at
an address has received of its request. `Hears` is the invariant of the connection while it uploads, `Stores` what one
segment does, and `Leaves` what everything else does.
-/

namespace ResQBoot.Failsafe

/-! ## What is received of the file -/

/-- The boundary that the first segment of a request announces. -/
def requestBoundary (ds : List Bytes) : Option Bytes := ds.head?.bind (httpdParseBoundary true)

/-- What the segments hold from the start of the file on, as the server finds it. -/
def filePayload (boundary : Bytes) : List Bytes → Option Bytes
  | [] => none
  | d :: rest =>
    match fileStart boundary d with
    | some k => some (d.drop k ++ rest.flatten)
    | none => filePayload boundary rest

def fileReceived (ds : List Bytes) : Option Bytes := (requestBoundary ds).bind fun boundary => filePayload boundary ds

section
variable {boundary d p : Bytes} {ds : List Bytes}

lemma filePayload_append_none (none : filePayload boundary ds = none) :
    filePayload boundary (ds ++ [d]) = (fileStart boundary d).map d.drop := by
  induction ds with
  | nil => cases h : fileStart boundary d <;> simp [filePayload, h]
  | cons x t ih =>
    rw [filePayload] at none
    cases h : fileStart boundary x with
    | some k => simp [h] at none
    | none =>
      rw [h] at none
      simpa [filePayload, h] using ih none

lemma filePayload_append_some (some : filePayload boundary ds = some p) :
    filePayload boundary (ds ++ [d]) = Option.some (p ++ d) := by
  induction ds with
  | nil => simp [filePayload] at some
  | cons x t ih =>
    rw [filePayload] at some
    cases h : fileStart boundary x with
    | some k =>
      rw [h] at some
      obtain rfl := Option.some.inj some
      simp [filePayload, h]
    | none =>
      rw [h] at some
      simpa [filePayload, h] using ih some

lemma requestBoundary_append (given : requestBoundary ds = some boundary) (d : Bytes) :
    requestBoundary (ds ++ [d]) = some boundary := by
  cases ds with
  | nil => cases given
  | cons x t => exact given

end

/-! ## One segment -/

/-- How far an upload is with `payload` received of its file. -/
inductive UploadPhase (b : Board) (boundary : Bytes) (payload : Option Bytes) (w : Work) : Prop where
  | waiting (wait : Waiting b boundary w) (start : payload = none)
  | failing (fail : Failing b boundary w)
  | receiving {p : Bytes} (rcv : Receiving b boundary p w) (file : payload = some p)

/-- The connection uploads, and has received the segments. -/
def Hears (b : Board) (ds : List Bytes) (w : Work) : Prop :=
  ∃ boundary, requestBoundary ds = some boundary ∧ UploadPhase b boundary (filePayload boundary ds) w

/-- What the last of the segments does to the connection that has received them. -/
structure Stores (b : Board) (ds : List Bytes) (w : Work) (r : Work × Fate) : Prop where
  outside : SameOutside b (w.mem .ram) (r.1.mem .ram)
  kept : r.2 ≠ .freed → r.1.hs.state = .uploadRequest → Hears b ds r.1
  completed : r.1.g.hist.completed = w.g.hist.completed ∨ ∃ p c, fileReceived ds = some p ∧
    r.1.g.hist.completed = w.g.hist.completed ++ [c] ∧ c.size ≤ p.length ∧
    (r.1.mem .ram).read b.uploadAddr c.size = p.take c.size

section
variable {b : Board} {e : Env} {boundary d p : Bytes} {ds : List Bytes} {n : Nat} {w w' : Work} {r : Work × Fate}

lemma Stores.of_other (ram : r.1.mem .ram = w.mem .ram) (hist : r.1.g.hist = w.g.hist)
    (other : r.2 ≠ .freed → r.1.hs.state ≠ .uploadRequest) : Stores b ds w r :=
  ⟨by rw [ram]; exact .refl _ _, fun kept state => absurd state (other kept), .inl (by rw [hist])⟩

lemma Stores.close {now : UInt32} (ram : w'.mem .ram = w.mem .ram) (hist : w'.g.hist = w.g.hist) :
    Stores b ds w (httpdCloseConn now w') :=
  .of_other ram (stateReset_kept.2.2.1.trans hist) fun kept => absurd rfl kept

lemma Spoiled.stores (sp : Spoiled b boundary w.g.hist.completed r) (given : requestBoundary ds = some boundary)
    (outside : SameOutside b (w.mem .ram) (r.1.mem .ram)) : Stores b ds w r := by
  refine ⟨outside, fun kept state => ?_, .inl ?_⟩
  · cases sp with
    | dropped => exact absurd rfl kept
    | failing fail => exact ⟨boundary, given, .failing fail⟩
    | answered _ answered => cases answered.symm.trans state
  · cases sp with
    | dropped _ same | failing _ same | answered _ _ same => exact same

lemma checkComplete_stores (given : requestBoundary ds = some boundary) (file : filePayload boundary ds = some p)
    (up : Uploading boundary w) (load : Loaded b p w) (found : w.g.upload.dataStartFound = true)
    (count : w.hs.upload ≤ p.length) : Stores b ds w (httpdCheckUploadComplete e w, .keep) := by
  refine ⟨by rw [checkComplete_mem]; exact .refl _ _, fun _ state => ?_, ?_⟩
  all_goals
    unfold httpdCheckUploadComplete at *
    rw [up.bound] at *
    dsimp only at *
  · split_ifs at state ⊢ with full
    · rw [finishUpload_state] at state
      cases state
    · exact ⟨boundary, given, .receiving { up, load with found := found, count := count, more := by omega } file⟩
  · split_ifs with full
    · obtain ⟨c, size, one⟩ := completed_ok load.ok
      have le : w.hs.uploadTotal ≤ p.length := by omega
      have stored := load.stored
      rw [Nat.min_eq_right le] at stored
      refine .inr ⟨p, c, by rw [fileReceived, given]; exact file, by simpa using one, by rwa [size], ?_⟩
      simpa [size] using stored
    · exact .inl rfl

/-- A segment that is stored is checked for the end of the upload. -/
lemma Started.stores (start : Started b boundary p n w w') (given : requestBoundary ds = some boundary)
    (count : n ≤ p.length) (found : w'.g.upload.dataStartFound = true)
    (file : w.g.upload.failed = true ∨ filePayload boundary ds = some p) :
    Stores b ds w (httpdCheckUploadComplete e w', .keep) := by
  have failing (failed : w'.g.upload.failed = true) : Stores b ds w (httpdCheckUploadComplete e w', .keep) := by
    have sp := checkComplete_failing (b := b) (e := e) { start.toUploading with
      failed := failed, waiting := fun h => absurd (found.symm.trans h) (by decide) }
    rw [start.hist] at sp
    exact sp.stores given (by rw [checkComplete_mem]; exact start.outside)
  obtain failed | load := start.stored
  · exact failing failed
  obtain failed | file := file
  · exact failing (start.failed failed)
  have next := checkComplete_stores (e := e) given file start.toUploading load found (start.counted ▸ count)
  refine ⟨?_, next.kept, ?_⟩
  · rw [checkComplete_mem]
    exact start.outside
  · rw [← start.hist]
    exact next.completed

lemma Started.begins (start : Started b boundary p p.length w w') (given : requestBoundary ds = some boundary)
    (file : w.g.upload.failed = true ∨ filePayload boundary ds = some p) : Stores b ds w (fileStarted e w') := by
  have found : Started b boundary p p.length w (w'.setFound true) :=
    { start.of_eq rfl rfl rfl, start with stored := start.stored.imp id fun load => { load with } }
  unfold fileStarted
  dsimp only
  split_ifs
  · exact found.stores given (Nat.le_refl _) rfl file
  · refine ⟨start.outside, fun kept => absurd rfl kept, .inl ?_⟩
    rw [← start.hist]
    exact congrArg History.completed stateReset_kept.2.2.1

lemma Waiting.stores (wait : Waiting b boundary w) (short : d.length < 2 ^ 16)
    (given : requestBoundary ds = some boundary) (file : w.g.upload.failed = true ∨ filePayload boundary ds = none) :
    Stores b (ds ++ [d]) w (httpdContinueUpload b e d w) := by
  unfold httpdContinueUpload
  rw [wait.found]
  simp only [Bool.false_eq_true, if_false]
  obtain ⟨tg, eq, -⟩ | ⟨tg, eq⟩ | ⟨k, w', eq, at_, start⟩ := findandstore_cases wait short
  · rw [eq]
    exact .close rfl rfl
  · rw [eq]
    exact .close rfl rfl
  · rw [eq]
    refine start.begins (requestBoundary_append given d) (file.imp id fun none => ?_)
    rw [filePayload_append_none none, at_]
    rfl

lemma Failing.stores (fail : Failing b boundary w) (short : d.length < 2 ^ 16)
    (given : requestBoundary ds = some boundary) : Stores b (ds ++ [d]) w (httpdContinueUpload b e d w) := by
  cases found : w.g.upload.dataStartFound with
  | false => exact (fail.waiting found).stores short given (.inl fail.failed)
  | true =>
    refine (fail.next short).stores (requestBoundary_append given d) ?_
    have failed : (w.setCount (u32 (w.hs.upload + d.length))).g.upload.failed = true := fail.failed
    simp only [httpdContinueUpload, found, if_true, failed, checkComplete_mem]
    exact .refl _ _

/-- A segment of an upload is stored behind those before it. -/
lemma Hears.stores (hears : Hears b ds w) (short : d.length < 2 ^ 16) :
    Stores b (ds ++ [d]) w (httpdContinueUpload b e d w) := by
  obtain ⟨boundary, given, phase⟩ := hears
  cases phase with
  | waiting wait none => exact wait.stores short given (.inr none)
  | failing fail => exact fail.stores short given
  | @receiving p rcv file =>
    obtain ⟨eq, start, found, -⟩ := rcv.stores (e := e) short
    rw [eq]
    refine start.stores (requestBoundary_append given d) ?_ found (.inr (filePayload_append_some file))
    rw [List.length_append]
    exact Nat.add_le_add_right rcv.count _

lemma start_stores (run : w.g.crashed = false) (short : d.length < 2 ^ 16) :
    Stores b [d] w (httpdStartUpload b e d w) := by
  unfold httpdStartUpload
  split_ifs
  · exact .of_other rfl rfl fun _ state => by cases (httpdSendText_state _).symm.trans state
  dsimp only
  cases httpdParseContentLength d with
  | none => exact .close rfl rfl
  | some total =>
    dsimp only
    cases bd : httpdParseBoundary e.boundaryOk d with
    | none => exact .close rfl rfl
    | some boundary =>
      obtain ⟨given, shortB⟩ := parseBoundary_spec short bd
      have given : requestBoundary [d] = some boundary := given
      let w₀ := httpdInitUploadRam b ((w.resetUpload.takeOver total).setBoundary boundary)
      have init : SameOutside b (w.mem .ram) (w₀.mem .ram) := initUploadRam_outside
      have wait : Waiting b boundary w₀ := waiting_init (b := b) total run shortB
      -- what is stored behind the clearing of the area is stored for the request
      have from_ {r : Work × Fate} (st : Stores b [d] w₀ r) : Stores b [d] w r := ⟨init.trans st.outside, st.kept, st.completed⟩
      dsimp only
      obtain ⟨tg, eq, no⟩ | ⟨tg, eq⟩ | ⟨k, w', eq, at_, start⟩ := findandstore_cases wait short
      · rw [eq]
        refine ⟨init, fun _ _ => ⟨boundary, given, .waiting { wait.of_eq rfl rfl rfl, wait with } ?_⟩, .inl rfl⟩
        simp [filePayload, no]
      · rw [eq]
        refine ⟨init, fun _ _ => ⟨boundary, given, .failing { wait.of_eq rfl rfl rfl with
          failed := rfl, waiting := fun _ => { wait.of_eq rfl rfl rfl, wait with } }⟩, .inl rfl⟩
      · rw [eq]
        refine from_ (start.begins given (.inr ?_))
        simp [filePayload, at_]

lemma apply_stores {a : Answer} {r : Option Region} (sound : a.Sound r) (new : w.hs.state = .none) :
    Stores b ds w (w.apply e a, .keep) := by
  refine .of_other ?_ ?_ fun _ => ?_
  · rw [apply_mem]
    exact Answer.stored_other (fun t eq => sound.store .ram t eq rfl) w.mem
  · unfold Work.apply
    dsimp only
    split <;> rfl
  · unfold Work.apply
    dsimp only
    split
    · rw [sendStatic_state]
      rintro ⟨⟩
    · intro up
      cases new.symm.trans up

lemma request_stores (run : w.g.crashed = false) (new : w.hs.state = .none) (short : d.length < 2 ^ 16) :
    Stores b [d] w (httpdRequest b e d w) := by
  unfold httpdRequest
  split
  · exact start_stores run short
  · unfold httpdHandleBackup
    split_ifs
    · rw [sendText_eq_apply]
      exact apply_stores (r := none) (.const _ _) new
    split
    · rw [sendText_eq_apply]
      exact apply_stores (r := none) (.const _ _) new
    · exact .of_other rfl rfl fun _ up => by cases new.symm.trans up
  · split
    · rename_i a eq
      exact apply_stores (answer_sound eq) new
    · exact .close rfl rfl

/-- What a connection has received of its request when a segment arrives. -/
def hearing (ds : List Bytes) (c : Conn) : List Bytes := if c.state = .none then [] else ds

lemma recv_stores (run : w.g.crashed = false) (hears : w.hs.state = .uploadRequest → Hears b ds w)
    (short : d.length < 2 ^ 16) : Stores b (hearing ds w.hs ++ [d]) w (httpdRecv b e d w) := by
  have touched {r : Work × Fate} {l : List Bytes} (st : Stores b l (w.touch e.now) r) : Stores b l w r :=
    ⟨st.outside, st.kept, st.completed⟩
  by_cases copied : e.dataOk = true
  · cases state : w.hs.state with
    | none =>
      rw [recv_new copied state, hearing, if_pos state]
      exact touched (request_stores (w := w.touch e.now) run state short)
    | uploadRequest =>
      have other : w.hs.state ≠ .none := by simp [state]
      rw [recv_uploading copied state, hearing, if_neg other]
      refine touched (Hears.stores (w := w.touch e.now) ?_ short)
      obtain ⟨boundary, given, phase⟩ := hears state
      refine ⟨boundary, given, ?_⟩
      cases phase with
      | waiting wait none => exact .waiting { wait.of_eq rfl rfl rfl, wait with } none
      | failing fail =>
        exact .failing { fail.of_eq rfl rfl rfl with
          failed := fail.failed
          waiting := fun h => { (fail.waiting h).of_eq rfl rfl rfl, fail.waiting h with } }
      | receiving rcv file => exact .receiving { rcv.of_eq rfl rfl rfl, rcv.toLoaded, rcv with } file
    | fileRequest =>
      rw [recv_answered copied state]
      exact touched (.of_other rfl rfl fun _ up => by cases state.symm.trans up)
  · rw [recv_lost copied]
    exact .close rfl rfl

end

/-! ## Other events -/

/-- The upload of the connection is left alone. Only its count may be reset. -/
structure StillOpen (w w' : Work) : Prop where
  upload : w'.g.upload = w.g.upload
  boundary : w'.g.boundaryValue = w.g.boundaryValue
  pointer : w'.g.dataPointer = w.g.dataPointer
  ram : w'.mem .ram = w.mem .ram
  state : w'.hs.state = w.hs.state
  total : w'.hs.uploadTotal = w.hs.uploadTotal
  count : w'.hs.upload ≤ w.hs.upload

/-- The step leaves the upload at `h` alone, if it leaves the connection. -/
def Leaves (h : Addr) (s s' : Server) : Prop :=
  ∀ c', s'.conns h = some c' → c'.state = .uploadRequest → ∃ c, s.conns h = some c ∧ StillOpen (s.work h c) (s'.work h c')

section
variable {b : Board} {e : Env} {boundary : Bytes} {pl : Option Bytes} {ds : List Bytes} {w w' : Work} {r : Work × Fate}

section

variable (st : StillOpen w w') (run : w'.g.crashed = false)
include st run

lemma StillOpen.uploading (up : Uploading boundary w) :
    Uploading boundary w' :=
  ⟨run, st.state.trans up.state, st.boundary.trans up.bound, up.short⟩

lemma StillOpen.waiting (wait : Waiting b boundary w) :
    Waiting b boundary w' := by
  refine { st.uploading run wait.toUploading with found := ?_, big := ?_, pointer := ?_, ramEnd := ?_ }
  · rw [st.upload]
    exact wait.found
  · rw [st.upload]
    exact wait.big
  · rw [st.pointer]
    exact wait.pointer
  · rw [st.upload]
    exact wait.ramEnd

lemma StillOpen.receiving {p : Bytes} (rcv : Receiving b boundary p w) :
    Receiving b boundary p w' := by
  have count := st.count
  refine { st.uploading run rcv.toUploading with
    ok := ?_, pointer := ?_, inRam := ?_, ramEnd := ?_, stored := ?_, found := ?_, count := ?_, more := ?_ }
  · rw [st.upload]
    exact rcv.ok
  · rw [st.pointer, st.total]
    exact rcv.pointer
  · rw [st.pointer]
    exact rcv.inRam
  · rw [st.upload]
    exact rcv.ramEnd
  · rw [st.ram, st.total]
    exact rcv.stored
  · rw [st.upload]
    exact rcv.found
  · exact count.trans rcv.count
  · rw [st.total]
    exact Nat.lt_of_le_of_lt count rcv.more

end

lemma Hears.steady (hears : Hears b ds w) (st : StillOpen w w') (run : w'.g.crashed = false) : Hears b ds w' := by
  obtain ⟨boundary, given, phase⟩ := hears
  refine ⟨boundary, given, ?_⟩
  cases phase with
  | waiting wait none => exact .waiting (st.waiting run wait) none
  | failing fail =>
    refine .failing { st.uploading run fail.toUploading with failed := ?_, waiting := fun found => ?_ }
    · rw [st.upload]
      exact fail.failed
    · rw [st.upload] at found
      exact st.waiting run (fail.waiting found)
  | receiving rcv file => exact .receiving (st.receiving run rcv) file

lemma send_steady (own : OwnWork w) (up : (httpdSendData e w).hs.state = .uploadRequest) :
    StillOpen w (httpdSendData e w) := by
  rw [sendData_state] at up
  have same : httpdSendData e w = w := by
    rw [httpdSendData, sendLoop_null _ _ _ (own.uploading up).2]
  rw [same]
  exact ⟨rfl, rfl, rfl, rfl, rfl, rfl, Nat.le_refl _⟩

lemma sent_steady (own : OwnWork w) (kept : (httpdSent e w).2 ≠ .freed)
    (up : (httpdSent e w).1.hs.state = .uploadRequest) : StillOpen w (httpdSent e w).1 := by
  have touched {w' : Work} (st : StillOpen (w.touch e.now) w') : StillOpen w w' := { st with }
  unfold httpdSent at kept up ⊢
  dsimp only at kept up ⊢
  split_ifs at kept up ⊢
  · rw [headerSent_uploading up]
    exact ⟨rfl, rfl, rfl, rfl, rfl, rfl, Nat.le_refl _⟩
  · rw [headerSent_uploading up]
    exact ⟨rfl, rfl, rfl, rfl, rfl, rfl, Nat.le_refl _⟩
  · exact absurd rfl kept
  · have same := headerSent_uploading ((sendData_state ..).symm.trans up)
    rw [same] at up ⊢
    exact touched (send_steady (own.touch e.now) up)

lemma pollCb_steady (own : OwnWork w) (kept : (httpdPollCb e w).2 ≠ .freed)
    (up : (httpdPollCb e w).1.hs.state = .uploadRequest) : StillOpen w (httpdPollCb e w).1 := by
  unfold httpdPollCb at kept up ⊢
  split_ifs at kept up ⊢
  · exact absurd rfl kept
  · exact send_steady own up
  · exact ⟨rfl, rfl, rfl, rfl, rfl, rfl, Nat.le_refl _⟩

end

section
variable {b : Board} {e : Env} {s s' : Server} {h a : Addr} {ev : Event} {ds : List Bytes}

lemma Leaves.of_eq (conns : s'.conns = s.conns) (upload : s'.upload = s.upload)
    (boundary : s'.boundaryValue = s.boundaryValue) (pointer : s'.dataPointer = s.dataPointer)
    (mem : s'.mem .ram = s.mem .ram) : Leaves h s s' :=
  fun c live _ => ⟨c, conns ▸ live, upload, boundary, pointer, mem, rfl, rfl, Nat.le_refl _⟩

lemma Own.ownerOf {c : Conn} (own : Own s) (live : s.conns h = some c) (up : c.state = .uploadRequest) :
    s.hsGlobal = some h := by
  have owned := own.conns h c live
  exact owned.owner.mp (owned.uploading up).1

/-- A callback of another connection. -/
lemma Leaves.other {c : Conn} {k : Cause} {w : Work} {f : Fate} (ord : Orderly s) (ne : h ≠ a) (live : s.conns a = some c)
    (eff : Effect b k (s.work a c) (w, f)) (keeps : Keeps (s.work a c) w) : Leaves h s (s.commit (w, f)) := by
  intro c' live' up
  obtain ⟨here, -⟩ | ⟨-, old⟩ := commit_conns live keeps.h h c' live'
  · exact absurd here ne
  have owner := ord.own.ownerOf old up
  have rcv := ord.exclusive.uploading h c' old up
  obtain ⟨g, ram⟩ := eff.bystander (ord.own.conns a c live) (by simp [Server.work, owner])
    (by simp [Server.work, owner, ne]) rcv.done rcv.uploadHs
  exact ⟨c', old, (congrArg Globals.upload g :), (congrArg Globals.boundaryValue g :),
    (congrArg Globals.dataPointer g :), ram, rfl, rfl, Nat.le_refl _⟩

lemma Leaves.onConn {f : Work → Work × Fate} {k : Cause} (ord : Orderly s) (eff : ∀ w, Effect b k w (f w))
    (keeps : ∀ w, Keeps w (f w).1) (own : a = h → ∀ w, OwnWork w → (f w).2 ≠ .freed →
      (f w).1.hs.state = .uploadRequest → StillOpen w (f w).1) : Leaves h s (s.onConn a f) := by
  unfold Server.onConn
  split
  · exact .of_eq rfl rfl rfl rfl rfl
  rename_i c live
  by_cases ne : h = a
  · subst ne
    intro c' live' up
    obtain ⟨-, rfl⟩ | ⟨ne, -⟩ := commit_conns live (keeps _).h h c' live'
    · refine ⟨c, live, ?_⟩
      have st := own rfl (s.work h c) (ord.own.conns h c live) ?_ up
      · exact { st with }
      · intro freed
        have here : (f (s.work h c)).1.h = h := (keeps _).h
        have gone : (s.commit (f (s.work h c))).conns h = none := by
          rw [show f (s.work h c) = ((f (s.work h c)).1, .freed) from Prod.ext rfl freed, commit_conns_freed, here,
            Function.update_self]
        cases gone.symm.trans live'
    · exact absurd rfl ne
  · exact .other ord ne live (eff _) (keeps _)

lemma Leaves.chunkWaitDone (own : Own s) (e : Env) : Leaves h s (chunkWaitDone e s) := by
  refine Server.withOwner_cases (P := Leaves h s) (fun _ => .of_eq rfl rfl rfl rfl rfl)
    (fun _ _ _ => .of_eq rfl rfl rfl rfl rfl) fun a c global live => ?_
  intro c' live' up
  obtain ⟨rfl, eq⟩ | ⟨-, old⟩ := commit_conns live rfl h c' live'
  · have eq : c' = sendLoop s.mem e.tcp (s.loaded c) := eq
    have state : c.state = .uploadRequest := by
      rw [eq, sendLoop_state] at up
      exact up
    -- no backup is left over, so that the count is all that is lost
    obtain ⟨-, size, -⟩ := (own.conns h c live).clear (.inr state)
    rw [sendLoop_empty _ _ _ size] at eq
    subst eq
    refine ⟨c, live, rfl, rfl, rfl, rfl, rfl, rfl, ?_⟩
    exact (show (s.loaded c).upload = 0 from size) ▸ Nat.zero_le _
  · exact ⟨c', old, rfl, rfl, rfl, rfl, rfl, rfl, Nat.le_refl _⟩

lemma LoopEffect.leaves (eff : LoopEffect b s ev s') (ord : Orderly s) : Leaves h s s' := by
  cases eff with
  | backupReturns e r a total call p st c is top live =>
    obtain ⟨free, -⟩ := ord.calm.backup a total call p (top ▸ List.mem_cons_self)
    intro c' live' up
    rw [commit_conns_keep, Function.update_apply] at live'
    split_ifs at live'
    · cases live'
      cases (backupReadDone_state ..).symm.trans up
    · cases free.symm.trans (ord.own.ownerOf live' up)
  | chunkReturns e r call p owner st is top =>
    have chunked := ord.calm.chunk (by simp [top, Frame.isChunkRead])
    intro c' live' up
    obtain ⟨c, live, state, -⟩ := chunkReadDone_conns h c' live'
    exact absurd (state.symm.trans up) (ord.own.notUploading chunked h c live)
  | handsOver e owner st top =>
    have own : Own { s with stack := st } := ord.own.of_eq rfl rfl (.inl rfl) fun _ => rfl
    exact Leaves.chunkWaitDone own e
  | upgraded ok st top =>
    unfold upgradeDone
    cases ok
    · exact .of_eq rfl rfl rfl rfl rfl
    · exact .of_eq rfl rfl rfl rfl rfl
  | reboots | stops =>
    intro c' live'
    cases live'
  | _ => exact .of_eq rfl rfl rfl rfl rfl

/-- Every event but a segment for the connection leaves its upload alone. -/
lemma step_leaves (ord : Orderly s) (other : ∀ e seg, ev ≠ .recv h e seg) : Leaves h s (step b s ev) := by
  have still : Leaves h s s := .of_eq rfl rfl rfl rfl rfl
  unfold step
  split_ifs with crashed net
  · exact still
  · cases ev with
    | accept now block =>
      cases block with
      | none => exact still
      | some a =>
        simp only [netStep, httpdAccept]
        split_ifs
        · exact still
        intro c live up
        obtain ⟨-, new⟩ | ⟨-, old⟩ := update_conns live
        · cases new
          cases up
        · exact ⟨c, old, rfl, rfl, rfl, rfl, rfl, rfl, Nat.le_refl _⟩
    | recv a e seg =>
      refine .onConn ord (fun _ => httpdRecv_effect) (fun _ => .recv) ?_
      rintro rfl
      exact absurd rfl (other e seg)
    | fin a e =>
      refine .onConn (b := b) (k := ⟨false, none⟩) ord (fun _ => httpdFin_effect) (fun _ => .fin) fun _ w _ kept => ?_
      exact absurd rfl kept
    | sent a e =>
      exact .onConn (b := b) (k := ⟨false, none⟩) ord (fun _ => httpdSent_effect) (fun _ => .sent) fun _ w => sent_steady
    | err a e =>
      refine .onConn (b := b) (k := ⟨false, none⟩) ord (fun _ => httpdErr_effect) (fun _ => .err) fun _ w _ kept => ?_
      exact absurd rfl kept
    | pollCb a e =>
      exact .onConn (b := b) (k := ⟨false, none⟩) ord (fun _ => httpdPollCb_effect) (fun _ => .pollCb) fun _ w => pollCb_steady
    | mainPoll | readReturns | returns | stop | start => exact still
  · exact still
  · exact loopStep_effect.leaves ord

end

/-! ## Runs -/

/-- The segments of the request that the connection at `h` is in, after the event. -/
def hear (h : Addr) (s : Server) (ds : List Bytes) : Event → List Bytes
  | .recv a _ seg =>
    if a = h ∧ s.crashed = false ∧ s.netEnabled = true then (s.conns h).elim [] (hearing ds) ++ [seg.data] else ds
  | _ => ds

/-- The server, and what the connection at `h` has received of its request. -/
def listen (b : Board) (h : Addr) (x : Server × List Bytes) (ev : Event) : Server × List Bytes :=
  (step b x.1 ev, hear h x.1 x.2 ev)

structure Listens (b : Board) (h : Addr) (x : Server × List Bytes) : Prop where
  orderly : Orderly x.1
  hears : x.1.crashed = false → ∀ c, x.1.conns h = some c → c.state = .uploadRequest → Hears b x.2 (x.1.work h c)

section
variable {b : Board} {h : Addr} {s : Server} {ds : List Bytes} {e : Env} {seg : Segment} {ev : Event}

lemma step_crashed (crashed : s.crashed = true) : step b s ev = s := by
  simp [step, crashed]

lemma hear_other (other : ∀ e seg, ev ≠ .recv h e seg) : hear h s ds ev = ds := by
  cases ev with
  | recv a e seg =>
    refine if_neg fun both => ?_
    obtain ⟨rfl, -⟩ := both
    exact other e seg rfl
  | _ => rfl

/-- A segment for the connection: it is stored, unless the server does not run. -/
lemma Listens.segment (inv : Listens b h (s, ds)) (e : Env) (seg : Segment) :
    step b s (.recv h e seg) = s ∧ hear h s ds (.recv h e seg) = ds ∨ s.conns h = none ∧ step b s (.recv h e seg) = s ∨
    ∃ c r, s.conns h = some c ∧ step b s (.recv h e seg) = s.commit r ∧ Keeps (s.work h c) r.1 ∧
      Stores b (hear h s ds (.recv h e seg)) (s.work h c) r := by
  by_cases runs : s.crashed = false ∧ s.netEnabled = true
  · cases live : s.conns h with
    | none => exact .inr (.inl ⟨rfl, step_recv_absent live⟩)
    | some c =>
      refine .inr (.inr ⟨c, httpdRecv b e seg.data (s.work h c), rfl, step_recv runs.1 runs.2 live, .recv, ?_⟩)
      rw [hear, if_pos ⟨rfl, runs⟩, live]
      exact recv_stores (w := s.work h c) runs.1 (inv.hears runs.1 c live) seg.length_lt
  · refine .inl ⟨?_, if_neg fun all => runs all.2⟩
    cases crashed : s.crashed with
    | true => exact step_crashed crashed
    | false =>
      have off : ¬ s.netEnabled = true := fun on => runs ⟨crashed, on⟩
      simp [step, crashed, Event.isNet, off]

lemma step_listens (inv : Listens b h (s, ds)) (quiet : Undisturbed s ev) : Listens b h (listen b h (s, ds) ev) := by
  refine ⟨step_orderly inv.orderly quiet, fun run c' live' up => ?_⟩
  by_cases segment : ∃ e seg, ev = .recv h e seg
  · obtain ⟨e, seg, rfl⟩ := segment
    obtain ⟨same, ds_eq⟩ | ⟨gone, same⟩ | ⟨c, r, live, eq, keeps, st⟩ := inv.segment e seg
    all_goals simp only [listen] at run live' ⊢
    · rw [same] at run live' ⊢
      rw [ds_eq]
      exact inv.hears run c' live' up
    · rw [same, gone] at live'
      cases live'
    · rw [eq] at run live' ⊢
      obtain ⟨w, f⟩ := r
      obtain ⟨-, rfl⟩ | ⟨ne, -⟩ := commit_conns live keeps.h h c' live'
      · refine (st.kept ?_ up).steady ⟨rfl, rfl, rfl, rfl, rfl, rfl, Nat.le_refl _⟩ run
        rintro rfl
        rw [commit_conns_freed, show w.h = h from keeps.h, Function.update_self] at live'
        cases live'
      · exact absurd rfl ne
  · have other (e : Env) (seg : Segment) : ev ≠ .recv h e seg := fun eq => segment ⟨e, seg, eq⟩
    have was : s.crashed = false := by
      cases crashed : s.crashed with
      | false => rfl
      | true =>
        simp only [listen, step_crashed crashed] at run
        exact crashed.symm.trans run
    obtain ⟨c, live, st⟩ := step_leaves (b := b) inv.orderly other c' live' up
    have hears := inv.hears was c live (st.state.symm.trans up)
    simp only [listen, hear_other other]
    exact hears.steady st run

lemma listens_reach {x : Server × List Bytes}
    (rch : Reach (listen b h) (fun x ev => Undisturbed x.1 ev) (boot, []) x) : Listens b h x :=
  rch.invariant ⟨.boot, fun _ c live => by cases live⟩ fun _ _ inv quiet => step_listens inv quiet

end

/-! ## The file of a form -/

/-- The search for the file ends at the file. -/
def FormPost.Sought (p : FormPost) (ds : List Bytes) : Prop := ∃ more t, p.filePiece ds = some more ∧ p.Finds more t

/-- The bytes behind the blank line of the file part. -/
def FormPost.payload (p : FormPost) : Bytes := p.file ++ p.closing

/-- How many of them are in the segments. -/
def FormPost.received (p : FormPost) (ds : List Bytes) : Nat := ds.flatten.length - p.frontEnd

/-- The RAM holds the first `n` bytes of a text at the upload address. -/
def RamHolds (b : Board) (s : Server) (n : Nat) (text : Bytes) : Prop :=
  n ≤ text.length ∧ (s.mem .ram).read b.uploadAddr n = text.take n

section
variable {b : Board} {s : Server} {p : FormPost} {ds : List Bytes} {boundary : Bytes}

lemma fileStart_right {x d y : Bytes} {t : UploadType} (cut : x ++ d ++ y = p.text) (early : x.length ≤ p.head.length)
    (all : p.frontEnd ≤ x.length + d.length) (finds : p.Finds (d.drop (p.frontEnd - x.length)) t) :
    fileStart p.delimiter d = some (p.frontEnd - x.length) := by
  obtain ⟨st, k, part, start, ends⟩ := (FormPost.filePart_right_iff cut t).mpr ⟨early, all, finds⟩
  rw [fileStart, part, FormPost.frontEnd, Option.map_some]
  exact congrArg some (by dsimp only; omega)

lemma fileStart_head {d y : Bytes} (cut : [] ++ d ++ y = p.text) (early : d.length ≤ p.head.length) :
    fileStart p.delimiter d = none := by
  cases part : filePart p.delimiter d with
  | none => rw [fileStart, part]; rfl
  | some x =>
    obtain ⟨t, st, k⟩ := x
    have late := FormPost.filePart_late cut part
    have inside := filePart_le part
    rw [List.length_nil] at late
    omega

lemma filePayload_form (cut : ds.flatten <+: p.text) (sought : p.Sought ds) :
    filePayload p.delimiter ds = some (ds.flatten.drop p.frontEnd) := by
  obtain ⟨more, t, piece, finds⟩ := sought
  obtain ⟨y, cut⟩ := cut
  cases ds with
  | nil => cases piece
  | cons d rest =>
    rw [List.flatten_cons] at cut ⊢
    have first : [] ++ d ++ (rest.flatten ++ y) = p.text := by
      rw [← cut, List.nil_append, List.append_assoc]
    rw [FormPost.filePiece] at piece
    rw [filePayload]
    split_ifs at piece with all
    · cases piece
      have start := fileStart_right (x := []) (t := t) first (Nat.zero_le _) (by simpa using all) (by simpa using finds)
      rw [List.length_nil, Nat.sub_zero] at start
      simp only [start]
      rw [List.drop_append_of_le_length all]
    · obtain ⟨d', head, inner⟩ := Option.bind_eq_some_iff.mp piece
      obtain ⟨rest', rfl⟩ : ∃ rest', rest = d' :: rest' := by
        cases rest with
        | nil => cases head
        | cons x rest' => exact ⟨rest', by rw [Option.some.inj head]⟩
      split_ifs at inner with inside
      cases inner
      rw [List.flatten_cons] at cut ⊢
      have second : d ++ d' ++ (rest'.flatten ++ y) = p.text := by
        rw [← cut]
        simp only [List.append_assoc]
      have start := fileStart_right (t := t) second inside.1 inside.2 finds
      simp only [fileStart_head first inside.1, filePayload, start]
      rw [List.drop_append, List.drop_eq_nil_of_le (Nat.le_of_not_le all), List.nil_append,
        List.drop_append_of_le_length (by omega)]

lemma fileReceived_form (cut : ds.flatten <+: p.text) (sought : p.Sought ds)
    (given : requestBoundary ds = some boundary) : boundary = p.delimiter := by
  obtain ⟨d, head, parse⟩ := Option.bind_eq_some_iff.mp given
  cases ds with
  | nil => cases head
  | cons x rest =>
    cases head
    have front : d <+: p.text := (List.prefix_append d rest.flatten).trans cut
    exact ((FormPost.parseBoundary_iff front _ _).mp parse).2.2

lemma holds_form {n : Nat} (cut : ds.flatten <+: p.text) (le : n ≤ p.received ds)
    (stored : (s.mem .ram).read b.uploadAddr n = (ds.flatten.drop p.frontEnd).take n) : RamHolds b s n p.payload := by
  have sub : ds.flatten.drop p.frontEnd <+: p.payload := by
    obtain ⟨y, cut⟩ := cut
    rw [FormPost.payload, ← text_drop, ← cut, List.drop_append]
    exact List.prefix_append _ _
  have len : (ds.flatten.drop p.frontEnd).length = p.received ds := List.length_drop
  refine ⟨le.trans (len ▸ sub.length_le), ?_⟩
  obtain ⟨more, eq⟩ := sub
  rw [stored, ← eq, List.take_append_of_le_length (len ▸ le)]

end

/-- **Upload integrity.** In every undisturbed run, whatever else happens between the segments of a form: while the form
is received the RAM holds the bytes received behind the blank line of its file part, up to the declared size, and when
the upload completes the declared number of them, provided the search for the file ends at the file. No segment stores
anything outside the upload area. -/
theorem upload_integrity (b : Board) (h : Addr) (s : Server) (ds : List Bytes)
    (rch : Reach (listen b h) (fun x ev => Undisturbed x.1 ev) (boot, []) (s, ds)) :
    (∀ (p : FormPost) (c : Conn), s.crashed = false → s.conns h = some c → c.state = .uploadRequest →
      s.upload.dataStartFound = true → s.upload.failed = false → ds.flatten <+: p.text → p.Sought ds →
        RamHolds b s (min (p.received ds) c.uploadTotal) p.payload) ∧
    ∀ (e : Env) (seg : Segment), let s' := step b s (.recv h e seg)
      (∀ a, a < b.uploadAddr ∨ b.ramEnd ≤ a → s'.mem .ram a = s.mem .ram a) ∧
      ∀ (p : FormPost) (done : Completed), s'.hist.completed = s.hist.completed ++ [done] →
        (hear h s ds (.recv h e seg)).flatten <+: p.text → p.Sought (hear h s ds (.recv h e seg)) →
          RamHolds b s' done.size p.payload := by
  have inv := listens_reach rch
  refine ⟨fun p c run live up found going cut sought => ?_, fun e seg => ?_⟩
  · obtain ⟨boundary, given, phase⟩ := inv.hears run c live up
    obtain rfl := fileReceived_form cut sought given
    rw [filePayload_form cut sought] at phase
    cases phase with
    | waiting wait => cases wait.found.symm.trans found
    | failing fail => cases fail.failed.symm.trans going
    | receiving rcv file =>
      cases file
      have len : (ds.flatten.drop p.frontEnd).length = p.received ds := List.length_drop
      have stored : (s.mem .ram).read b.uploadAddr (min (p.received ds) c.uploadTotal) =
          (ds.flatten.drop p.frontEnd).take c.uploadTotal := len ▸ rcv.stored
      refine holds_form cut (Nat.min_le_left _ _) (stored.trans (List.take_eq_take_iff.mpr ?_))
      rw [len]
      omega
  · dsimp only
    obtain ⟨same, -⟩ | ⟨-, same⟩ | ⟨c, r, live, eq, -, st⟩ := inv.segment e seg
    · rw [same]
      exact ⟨fun _ _ => rfl, fun p done one => by simp at one⟩
    · rw [same]
      exact ⟨fun _ _ => rfl, fun p done one => by simp at one⟩
    · rw [eq]
      refine ⟨st.outside, fun p done one cut sought => ?_⟩
      obtain kept | ⟨payload, c', file, one', le, stored⟩ := st.completed
      · have absurd_ : s.hist.completed = s.hist.completed ++ [done] := kept.symm.trans one
        simp at absurd_
      · obtain ⟨boundary, given, file⟩ := Option.bind_eq_some_iff.mp file
        obtain rfl := fileReceived_form cut sought given
        rw [filePayload_form cut sought] at file
        cases file
        have ends : s.hist.completed ++ [c'] = s.hist.completed ++ [done] := one'.symm.trans one
        obtain rfl : c' = done := by simpa using ends
        rw [List.length_drop] at le
        exact holds_form cut le stored

/-- The front of a form, and another connection that is served before the rest of it arrives. -/
def betweenSegments : List Event :=
  [.accept 0 (some 1), .recv 1 { now := 0 } (sampleFront 300 (by decide)), .accept 0 (some 2),
    .recv 2 { now := 0 } ⟨bytes "GET / HTTP/1.1\r\n\r\n", by decide⟩, .mainPoll]

def midway : Server × List Bytes := runAll (listen sampleBoard 1) (boot, []) betweenSegments

theorem upload_integrity_sample :
    let s' := step sampleBoard midway.1 (.recv 1 { now := 0 } (sampleBack 300))
    s'.hist.completed = midway.1.hist.completed ++ [⟨0, 184, .cdt⟩] ∧ RamHolds sampleBoard s' 184 sampleForm.payload := by
  have along : Along (listen sampleBoard 1) (fun x ev => Undisturbed x.1 ev) (boot, []) betweenSegments := by
    decide +kernel
  have integrity (x : Server × List Bytes)
      (rch : Reach (listen sampleBoard 1) (fun x ev => Undisturbed x.1 ev) (boot, []) x) :=
    upload_integrity sampleBoard 1 x.1 x.2 rch
  have heard : hear 1 midway.1 midway.2 (.recv 1 { now := 0 } (sampleBack 300)) =
      segBytes (sampleCut 300 (by decide)) := by decide +kernel
  have complete : (step sampleBoard midway.1 (.recv 1 { now := 0 } (sampleBack 300))).hist.completed =
      midway.1.hist.completed ++ [⟨0, 184, .cdt⟩] := by decide +kernel
  refine ⟨complete, ((integrity midway (along.reach .refl)).2 { now := 0 } (sampleBack 300)).2 sampleForm _ complete ?_ ?_⟩
  · simp only [heard, sampleCut_text, List.prefix_rfl]
  · rw [heard]
    obtain ⟨more, t, piece, finds, -⟩ := sampleCut_found
    exact ⟨more, t, piece, finds⟩

/-- An upload of a MIBIB whose file has the name of another field and a blank line in it. -/
def cdtInside : FormPost :=
  { sampleForm with
    entry := ⟨bytes "name=\"mibib\"", .mibib, some Board.mibibSize⟩
    known := by simp [uploadTypes]
    file := bytes "name=\"cdt\"\r\n\r\n" ++ List.replicate 184 7
    short := by decide +kernel
    oneLength := by decide +kernel
    apart := by decide +kernel }

def cdtSegment : Segment := ⟨cdtInside.text, by decide +kernel⟩

/-- The file is stored from the blank line within it on, and the upload completes. -/
theorem upload_misplaced : let s' := step sampleBoard sampleServer (.recv 1 { now := 0 } cdtSegment)
    s'.hist.completed = sampleServer.hist.completed ++ [⟨0, 184, .cdt⟩] ∧ s'.upload.failed = false ∧
      ¬ RamHolds sampleBoard s' 184 cdtInside.payload := by
  have start : ((step sampleBoard sampleServer (.recv 1 { now := 0 } cdtSegment)).mem .ram).read
      sampleBoard.uploadAddr 184 ≠ cdtInside.payload.take 184 := by decide +kernel
  exact ⟨by decide +kernel, by decide +kernel, fun holds => start holds.2⟩

end ResQBoot.Failsafe
