import ResQBoot.Failsafe.Frame

/-!
# What a callback can do

The inversion lemmas: `Effect` lists what a network callback can do to its connection and the globals, `LoopEffect`
what the main loop can do. The invariants are proved by cases on them. `Booked` relates two states that differ in
the bookkeeping of an upload only.
-/

namespace ResQBoot.Failsafe

/-! ## Bookkeeping of an upload -/

def Globals.unbooked (g : Globals) : Globals :=
  { g with upload := { done := g.upload.done }, target := {}, dataPointer := 0 }

def Conn.unbooked (c : Conn) : Conn :=
  { c with upload := 0, uploadTotal := 0, trail := { c.trail with fileType := none } }

structure Booked (w w' : Work) : Prop where
  g : w'.g.unbooked = w.g.unbooked
  hs : w'.hs.unbooked = w.hs.unbooked
  dev : w'.dev = w.dev
  h : w'.h = w.h
  mem : ∀ r, r ≠ .ram → w'.mem r = w.mem r

namespace Booked

variable {b : Board} {d : Bytes} {w w' w'' : Work}

lemma refl (w : Work) : Booked w w := ⟨rfl, rfl, rfl, rfl, fun _ _ => rfl⟩

lemma trans (k : Booked w w') (k' : Booked w' w'') : Booked w w'' :=
  ⟨k'.g.trans k.g, k'.hs.trans k.hs, k'.dev.trans k.dev, k'.h.trans k.h,
    fun r hr => (k'.mem r hr).trans (k.mem r hr)⟩

section
variable (k : Booked w w')
include k

lemma hsGlobal : w'.g.hsGlobal = w.g.hsGlobal := (congrArg Globals.hsGlobal k.g :)

lemma backup : w'.g.backup = w.g.backup := (congrArg Globals.backup k.g :)

lemma pending : w'.g.uploadPending = w.g.uploadPending := (congrArg Globals.uploadPending k.g :)

lemma uploadHs : w'.g.uploadHs = w.g.uploadHs := (congrArg Globals.uploadHs k.g :)

lemma ready : w'.g.readyForUpgrade = w.g.readyForUpgrade := (congrArg Globals.readyForUpgrade k.g :)

lemma size : w'.g.netBootFileSize = w.g.netBootFileSize := (congrArg Globals.netBootFileSize k.g :)

lemma hist : w'.g.hist = w.g.hist := (congrArg Globals.hist k.g :)

lemma done : w'.g.upload.done = w.g.upload.done := (congrArg (fun g => g.upload.done) k.g :)

lemma state : w'.hs.state = w.hs.state := (congrArg Conn.state k.hs :)

lemma dataptr : w'.hs.dataptr = w.hs.dataptr := (congrArg Conn.dataptr k.hs :)

lemma owns : w'.hs.ownsGlobal = w.hs.ownsGlobal := (congrArg Conn.ownsGlobal k.hs :)

lemma pcb : w'.hs.pcb = w.hs.pcb := (congrArg Conn.pcb k.hs :)

lemma built : w'.hs.trail.built = w.hs.trail.built := (congrArg (fun c => c.trail.built) k.hs :)

end

lemma of_mem (g : w'.g.unbooked = w.g.unbooked) (hs : w'.hs.unbooked = w.hs.unbooked)
    (dev : w'.dev = w.dev) (h : w'.h = w.h) (mem : w'.mem = w.mem) : Booked w w' :=
  ⟨g, hs, dev, h, fun r _ => congrFun mem r⟩

lemma of_ram (g : w'.g.unbooked = w.g.unbooked) (hs : w'.hs.unbooked = w.hs.unbooked)
    (dev : w'.dev = w.dev) (h : w'.h = w.h) {m : Mem} (mem : w'.mem = Function.update w.mem .ram m) :
    Booked w w' :=
  ⟨g, hs, dev, h, fun r hr => by rw [mem, Function.update_of_ne hr]⟩

lemma append (bs : Bytes) : Booked w (w.append bs) := of_ram rfl rfl rfl rfl rfl

lemma initUploadRam : Booked w (httpdInitUploadRam b w) := of_ram rfl rfl rfl rfl rfl

lemma storeFirst (payload : Bytes) : Booked w (storeFirst payload w) := by
  have count : Booked w (w.setCount payload.length) := of_mem rfl rfl rfl rfl rfl
  unfold ResQBoot.Failsafe.storeFirst
  dsimp only
  split_ifs
  · exact count
  · exact count.trans (of_mem rfl rfl rfl rfl rfl)
  · exact count.trans (append _)

lemma handleUploadData : Booked w (httpdHandleUploadData b d w) := by
  obtain eq | eq | eq | ⟨n, eq⟩ := httpdHandleUploadData_cases b d w
  · rw [eq]
    exact refl w
  · rw [eq]
    exact of_mem rfl rfl rfl rfl rfl
  · rw [eq]
    exact of_mem rfl rfl rfl rfl rfl
  · rw [eq]
    exact append _

end Booked

/-! ## The upload branch -/

structure Looked (w : Work) (r : Work × Bool) : Prop where
  booked : Booked w r.1
  found : r.1.g.upload.dataStartFound = w.g.upload.dataStartFound
  typed : r.2 = true → r.1.hs.trail.fileType = some r.1.g.target.upgradeType

section
variable {b : Board} {e : Env} {d : Bytes} {w : Work}

@[simp] lemma storeFirst_target (payload : Bytes) : (storeFirst payload w).g.target = w.g.target := by
  unfold storeFirst
  dsimp only
  split_ifs <;> rfl

@[simp] lemma storeFirst_trail (payload : Bytes) : (storeFirst payload w).hs.trail = w.hs.trail := by
  unfold storeFirst
  dsimp only
  split_ifs <;> rfl

@[simp] lemma storeFirst_found (payload : Bytes) :
    (storeFirst payload w).g.upload.dataStartFound = w.g.upload.dataStartFound := by
  unfold storeFirst
  dsimp only
  split_ifs <;> rfl

lemma startFile_looked {t : UploadType} (overhead : Nat) (payload : Bytes)
    (target : w.g.target.upgradeType = t.type) : Looked w (startFile b t overhead payload w) := by
  unfold startFile
  split_ifs
  · exact ⟨.of_mem rfl rfl rfl rfl rfl, rfl, fun h => by cases h⟩
  have file : Booked w (w.setFile t (w.hs.uploadTotal - overhead)) := .of_mem rfl rfl rfl rfl rfl
  dsimp only
  split_ifs
  · have big : Booked w (w.setFile t (w.hs.uploadTotal - overhead)).tooBig :=
      file.trans (.of_mem rfl rfl rfl rfl rfl)
    refine ⟨big.trans (.storeFirst payload), ?_, fun _ => ?_⟩
    · simp [Work.tooBig, Work.setFile]
    · simp [Work.tooBig, Work.setFile, target]
  · refine ⟨file.trans (.storeFirst payload), ?_, fun _ => ?_⟩
    · simp [Work.setFile]
    · simp [Work.setFile, target]

lemma Looked.of_target {t : Target} {r : Work × Bool} (look : Looked (w.setTarget t) r) :
    Looked w r := by
  have set : Booked w (w.setTarget t) := .of_mem rfl rfl rfl rfl rfl
  exact ⟨set.trans look.booked, look.found, look.typed⟩

lemma findandstore_looked : Looked w (httpdFindandstoreFirstchunk b d w) := by
  have no : Looked w (w, false) := ⟨.refl w, rfl, fun h => by cases h⟩
  have tg (t : Target) : Looked w (w.setTarget t, false) :=
    ⟨.of_mem rfl rfl rfl rfl rfl, rfl, fun h => by cases h⟩
  unfold httpdFindandstoreFirstchunk
  split
  · exact no
  split
  · exact no
  dsimp only
  split
  · exact no
  split
  · exact tg _
  split_ifs
  · exact tg _
  · exact .of_target (startFile_looked _ _ rfl)

end

def Work.Typed (w : Work) : Prop :=
  w.g.upload.dataStartFound = true → w.hs.trail.fileType = some w.g.target.upgradeType

inductive UploadOutcome (e : Env) (ok : Prop) (w : Work) : Work × Fate → Prop where
  | goesOn (typed : ok → w.Typed) : UploadOutcome e ok w (w, .keep)
  | dropped : UploadOutcome e ok w (httpdCloseConn e.now w)
  | answered (typed : ok → w.hs.trail.fileType = some w.g.target.upgradeType) :
    UploadOutcome e ok w (finishUpload e w, .keep)
  | crashed (typed : ok → w.Typed) :
    UploadOutcome e ok w ({ w with g := { w.g with crashed := true } }, .keep)

variable {e : Env} {ok : Prop} {w : Work}

lemma checkUploadComplete_outcome (typed : ok → w.hs.trail.fileType = some w.g.target.upgradeType) :
    UploadOutcome e ok w (httpdCheckUploadComplete e w, .keep) := by
  unfold httpdCheckUploadComplete
  split
  · exact .crashed fun h _ => typed h
  · split_ifs
    · exact .answered typed
    · exact .goesOn fun h _ => typed h

lemma fileStarted_outcome (typed : ok → w.hs.trail.fileType = some w.g.target.upgradeType) :
    UploadOutcome e ok (w.setFound true) (fileStarted e w) := by
  unfold fileStarted
  dsimp only
  split_ifs
  · exact checkUploadComplete_outcome typed
  · exact .dropped

/-! ## The effects -/

/-- The static array that the handler of a route prints its response into. -/
def Route.buffer : Route → Option Region
  | .webterm => some .webterm
  | .upgradeStatus => some .upgradeStatus
  | .partitions => some .partJson
  | .about => some .aboutJson
  | .macInfo => some .macInfo
  | .led => some .led
  | .btnDetect => some .btnDetect
  | .file => some .redirect
  | .envSet => some .envSet
  | .macSet => some .macSet
  | .backup | .upload | .bad => none

/-- What an answer prints goes into the static array, and its reply is either that or a constant text. -/
structure Answer.Sound (buffer : Option Region) (a : Answer) : Prop where
  store : ∀ r t, a.store = some (r, t) → r ≠ .ram
  area : ∀ r t, a.store = some (r, t) → buffer = some r
  reply : ∀ p n, a.reply = some (p, n) →
    (∃ t, p = .text t 0) ∨ ∃ r t, p = .mem r 0 ∧ a.store = some (r, t)

structure Cause where
  lost : Bool
  route : Option Route

inductive Effect (b : Board) (k : Cause) (w : Work) : Work × Fate → Prop where
  /-- Output is handed to TCP. -/
  | sends (e : Env) (now : UInt32) : Effect b k w (httpdSendData e (w.touch now), .keep)
  /-- A request is answered at once. -/
  | answers (e : Env) (now : UInt32) (a : Answer) (new : w.hs.state = .none)
      (sound : a.Sound (k.route.bind Route.buffer)) : Effect b k w ((w.touch now).apply e a, .keep)
  /-- A request that is none, or for which there is no memory. -/
  | aborts (now t : UInt32) (why : w.hs.state = .none ∨ k.lost = true) :
    Effect b k w (httpdCloseConn now (w.touch t))
  /-- An upload without a Content-Length. -/
  | refuses (now t : UInt32) (new : w.hs.state = .none) (idle : w.busy = false)
      (asked : k.route = some .upload) : Effect b k w (httpdCloseConn now (w.touch t).resetUpload)
  /-- An upload without a boundary. -/
  | gives (now t : UInt32) (total : Nat) (new : w.hs.state = .none) (idle : w.busy = false)
      (asked : k.route = some .upload) : Effect b k w (httpdCloseConn now ((w.touch t).resetUpload.takeOver total))
  /-- A new upload. -/
  | uploads (e : Env) (t : UInt32) (total : Nat) (boundary : Bytes) (w₁ : Work) (r : Work × Fate)
      (new : w.hs.state = .none) (idle : w.busy = false)
      (booked : Booked (((w.touch t).resetUpload.takeOver total).setBoundary boundary) w₁)
      (out : UploadOutcome e True w₁ r) (asked : k.route = some .upload) : Effect b k w r
  /-- A segment of an upload. -/
  | continues (e : Env) (t : UInt32) (w₁ : Work) (r : Work × Fate)
      (state : w.hs.state = .uploadRequest) (booked : Booked (w.touch t) w₁)
      (out : UploadOutcome e w.Typed w₁ r) : Effect b k w r
  /-- A backup request, at its first flash read. -/
  | reads (t : UInt32) (total : Nat) (call : FlashCall) (new : w.hs.state = .none)
      (idle : w.busy = false) (asked : k.route = some .backup) (zero : call.offset = 0) (pos : 0 < total) :
    Effect b k w
      ((w.touch t).setBackup { w.g.backup with
          raw := call.raw
          flashType := call.flashType
          totalSize := total
          partName := call.partName },
        .call (.backupRead w.h total call (b.readPhase call)))
  /-- More of a response, possibly the data of a backup behind its header. -/
  | sendsMore (e : Env) (more : (headerSent (w.touch e.now)).hs.upload ≠ 0) :
    Effect b k w (httpdSendData e (headerSent (w.touch e.now)), .keep)
  /-- The main loop is asked for the next chunk. -/
  | asks (now : UInt32) (sent : (headerSent (w.touch now)).hs.upload = 0)
      (owner : (headerSent (w.touch now)).isOwner = true)
      (chunked : (headerSent (w.touch now)).g.backup.chunked = true)
      (more : 0 < (headerSent (w.touch now)).g.backup.totalRemaining)
      (free : (headerSent (w.touch now)).g.backup.chunkBusy = false) :
    Effect b k w ((headerSent (w.touch now)).setBackup
      { (headerSent (w.touch now)).g.backup with chunkBusy := true }, .keep)
  /-- The main loop has not fetched the chunk yet. -/
  | waits (now : UInt32) (sent : (headerSent (w.touch now)).hs.upload = 0)
      (owner : (headerSent (w.touch now)).isOwner = true)
      (busy : (headerSent (w.touch now)).g.backup.chunkBusy = true) :
    Effect b k w (headerSent (w.touch now), .keep)
  /-- A response is out and its connection closed. -/
  | closes (now : UInt32) (sent : (headerSent (w.touch now)).hs.upload = 0)
      (last : (headerSent (w.touch now)).isOwner = true →
        (headerSent (w.touch now)).g.backup.chunkBusy = false ∧
        ((headerSent (w.touch now)).g.backup.chunked = true →
          (headerSent (w.touch now)).g.backup.totalRemaining = 0)) :
    Effect b k w (sentClose now (headerSent (w.touch now)))
  /-- The peer has closed. -/
  | fins (e : Env) : Effect b k w (httpdFin e w)
  /-- The connection has failed or timed out. -/
  | drops (now : UInt32) : Effect b k w (httpdCloseConn now (dropConn w))

section
variable {b : Board} {e : Env} {d : Bytes} {k : Cause} {w : Work}

variable {a : Answer} {dev : Devices} {area : Option Region}

lemma Answer.Sound.of_text (store : a.store = none)
    (reply : ∀ p n, a.reply = some (p, n) → ∃ t, p = .text t 0) : a.Sound area :=
  ⟨fun _ _ h => (by cases store.symm.trans h), fun _ _ h => (by cases store.symm.trans h),
    fun p n h => .inl (reply p n h)⟩

lemma Answer.Sound.const (dev : Devices) (t : Bytes) : (Answer.const dev t).Sound area :=
  .of_text rfl fun _ _ h => ⟨t, (Prod.mk.inj (Option.some.inj h)).1.symm⟩

lemma Answer.Sound.silent (store : a.store = none) (reply : a.reply = none) : a.Sound area :=
  .of_text store fun _ _ h => by cases reply.symm.trans h

lemma sendText_eq_apply (t : Bytes) : httpdSendText e t w = w.apply e (.const w.dev t) := by
  simp [Work.apply, Answer.const, Answer.stored, httpdSendText]

lemma Answer.Sound.of_store {r : Region} {t : Bytes} (store : a.store = some (r, t))
    (ne : r ≠ .ram) (reply : ∀ p n, a.reply = some (p, n) → (∃ t, p = .text t 0) ∨ p = .mem r 0) :
    a.Sound (some r) := by
  refine ⟨fun r' t' h => ?_, fun r' t' h => ?_, fun p n h => ?_⟩
  · obtain ⟨rfl, -⟩ := Prod.mk.inj (Option.some.inj (store.symm.trans h))
    exact ne
  · obtain ⟨rfl, -⟩ := Prod.mk.inj (Option.some.inj (store.symm.trans h))
    rfl
  · obtain text | eq := reply p n h
    · exact .inl text
    · exact .inr ⟨r, t, eq, store⟩

lemma Answer.Sound.printed (dev : Devices) {r : Region} (t : Bytes) (ne : r ≠ .ram) : (Answer.printed dev r t).Sound (some r) :=
  .of_store rfl ne fun _ _ h => .inr (Prod.mk.inj (Option.some.inj h)).1.symm

lemma Answer.Sound.sizedReport (dev : Devices) {r : Region} (cache tooLarge : Bytes)
    (text : Bytes × Bool) (ne : r ≠ .ram) : (sizedReport dev r cache tooLarge text).Sound (some r) := by
  unfold ResQBoot.Failsafe.sizedReport
  dsimp only
  split_ifs
  · exact .of_store rfl ne fun _ _ h => .inl ⟨tooLarge, (Prod.mk.inj (Option.some.inj h)).1.symm⟩
  · exact .of_store rfl ne fun _ _ h => .inr (Prod.mk.inj (Option.some.inj h)).1.symm

lemma Answer.Sound.plainReport (dev : Devices) {r : Region} (text : Bytes) (ne : r ≠ .ram) :
    (plainReport dev r text).Sound (some r) :=
  .of_store rfl ne fun _ _ h => .inr (Prod.mk.inj (Option.some.inj h)).1.symm

lemma httpdHandleLed_sound (dev : Devices) : (httpdHandleLed dev d).Sound (some .led) := by
  unfold httpdHandleLed
  split
  · exact .printed _ _ (by decide)
  · split
    · exact .printed _ _ (by decide)
    · exact .printed _ _ (by decide)

lemma httpdHandleEnvSet_sound (dev : Devices) : (httpdHandleEnvSet b dev d).Sound (some .envSet) := by
  unfold httpdHandleEnvSet
  split <;> exact .printed _ _ (by decide)

lemma httpdHandleMacSet_sound (dev : Devices) : (httpdHandleMacSet b dev d).Sound (some .macSet) := by
  have reply (dev : Devices) (ok : Bool) : (macReply dev ok).Sound (some .macSet) := .printed _ _ (by decide)
  unfold httpdHandleMacSet
  split
  · exact reply ..
  dsimp only
  split
  · exact .silent rfl rfl
  · exact reply ..
  split
  · exact .silent rfl rfl
  · exact reply ..
  · split
    · exact reply ..
    · exact reply ..

lemma httpdHandleWebterm_sound (dev : Devices) (running : Bool) :
    (httpdHandleWebterm dev running d).Sound (some .webterm) := by
  unfold httpdHandleWebterm
  split
  · exact .silent rfl rfl
  · exact .printed _ _ (by decide)

lemma httpdHandleFileRequest_sound (h : httpdHandleFileRequest b dev d = some a) : a.Sound (some .redirect) := by
  unfold httpdHandleFileRequest at h
  split_ifs at h
  · cases h
    exact .of_text rfl fun _ _ h => ⟨_, (Prod.mk.inj (Option.some.inj h)).1.symm⟩
  obtain ⟨path, -, rfl⟩ := Option.map_eq_some_iff.mp h
  split_ifs
  · exact .const _ _
  · split
    · exact .printed _ _ (by decide)
    · exact .const _ _

lemma answer_sound {g : Globals} {r : Route} (h : answer b g dev d r = some a) : a.Sound r.buffer := by
  cases r <;> simp only [answer, reduceCtorEq, Option.some.injEq] at h
  case webterm => exact h ▸ httpdHandleWebterm_sound dev _
  case upgradeStatus => exact h ▸ .printed _ _ (by decide)
  case partitions => exact h ▸ .sizedReport _ _ _ _ (by decide)
  case about => exact h ▸ .sizedReport _ _ _ _ (by decide)
  case macInfo => exact h ▸ .plainReport _ _ (by decide)
  case led => exact h ▸ httpdHandleLed_sound dev
  case btnDetect => exact h ▸ .plainReport _ _ (by decide)
  case file => exact httpdHandleFileRequest_sound h
  case envSet => exact h ▸ httpdHandleEnvSet_sound dev
  case macSet => exact h ▸ httpdHandleMacSet_sound dev

/-! ## The callbacks -/

lemma httpdFin_effect : Effect b k w (httpdFin e w) := .fins e

lemma httpdErr_effect : Effect b k w (httpdErr e w) := .drops e.now

lemma httpdPollCb_effect : Effect b k w (httpdPollCb e w) := by
  unfold httpdPollCb
  split_ifs
  · exact .drops e.now
  · exact .sends e w.hs.lastActivity
  · exact .sends { e with tcp := [] } w.hs.lastActivity

lemma httpdSent_effect : Effect b k w (httpdSent e w) := by
  unfold httpdSent
  dsimp only
  split_ifs with sent ask wait
  · simp only [Bool.and_eq_true, decide_eq_true_eq, Bool.not_eq_true'] at ask
    exact .asks e.now sent ask.1.1.1 ask.1.1.2 ask.1.2 ask.2
  · simp only [Bool.and_eq_true] at wait
    exact .waits e.now sent wait.1 wait.2
  · refine .closes e.now sent fun owner => ?_
    simp only [owner, Bool.true_and, Bool.not_eq_true, Bool.and_eq_false_iff,
      decide_eq_false_iff_not, Nat.not_lt, Nat.le_zero, Bool.not_eq_false'] at ask wait
    refine ⟨wait, fun chunked => ?_⟩
    simpa [chunked, wait] using ask
  · exact .sendsMore e sent

lemma handleUploadData_typed : (httpdHandleUploadData b d w).hs.trail = w.hs.trail ∧
      (httpdHandleUploadData b d w).g.target = w.g.target := by
  obtain eq | eq | eq | ⟨n, eq⟩ := httpdHandleUploadData_cases b d w <;> rw [eq] <;> exact ⟨rfl, rfl⟩

lemma Looked.outcome {ok : Prop} {w₁ : Work} (look : Looked w (w₁, true)) :
    Booked w (w₁.setFound true) ∧ UploadOutcome e ok (w₁.setFound true) (fileStarted e w₁) :=
  ⟨look.booked.trans (.of_mem rfl rfl rfl rfl rfl), fileStarted_outcome fun _ => look.typed rfl⟩

lemma httpdContinueUpload_effect {t : UInt32} (state : w.hs.state = .uploadRequest) :
    Effect b k w (httpdContinueUpload b e d (w.touch t)) := by
  unfold httpdContinueUpload
  split_ifs with found
  · have count : Booked (w.touch t)
        ((w.touch t).setCount (u32 ((w.touch t).hs.upload + d.length))) := .of_mem rfl rfl rfl rfl rfl
    dsimp only
    split_ifs
    · exact .continues e t _ _ state count (checkUploadComplete_outcome fun typed => typed found)
    · refine .continues e t _ _ state (count.trans .handleUploadData) (checkUploadComplete_outcome fun typed => ?_)
      rw [handleUploadData_typed.1, handleUploadData_typed.2]
      exact typed found
  · have look : Looked (w.touch t) (httpdFindandstoreFirstchunk b d (w.touch t)) :=
      findandstore_looked
    split
    · rename_i w₁ eq
      rw [eq] at look
      obtain ⟨booked, out⟩ := look.outcome
      exact .continues e t _ _ state booked out
    · rename_i w₁ eq
      rw [eq] at look
      exact .continues e t _ _ state look.booked .dropped

lemma httpdStartUpload_effect {t : UInt32} (new : w.hs.state = .none) (asked : k.route = some .upload) :
    Effect b k w (httpdStartUpload b e d (w.touch t)) := by
  unfold httpdStartUpload
  split_ifs with busy
  · rw [sendText_eq_apply]
    exact .answers e t _ new (.const _ _)
  have idle : w.busy = false := Bool.eq_false_iff.mpr busy
  dsimp only
  split
  · exact .refuses e.now t new idle asked
  split
  · exact .gives e.now t _ new idle asked
  rename_i total _ _ boundary _
  have init : Booked (((w.touch t).resetUpload.takeOver total).setBoundary boundary)
      (httpdInitUploadRam b (((w.touch t).resetUpload.takeOver total).setBoundary boundary)) :=
    .initUploadRam
  have look : Looked (httpdInitUploadRam b (((w.touch t).resetUpload.takeOver total).setBoundary boundary))
      (httpdFindandstoreFirstchunk b d
        (httpdInitUploadRam b (((w.touch t).resetUpload.takeOver total).setBoundary boundary))) :=
    findandstore_looked
  split
  · rename_i w₁ eq
    rw [eq] at look
    obtain ⟨booked, out⟩ := look.outcome
    exact .uploads e t total boundary _ _ new idle (init.trans booked) out asked
  · rename_i w₁ eq
    rw [eq] at look
    have unfound : Booked w₁ (w₁.setFound false) := .of_mem rfl rfl rfl rfl rfl
    exact .uploads e t total boundary _ _ new idle ((init.trans look.booked).trans unfound)
      (.goesOn fun _ found => by cases found) asked

lemma httpdHandleBackup_effect {t : UInt32} (new : w.hs.state = .none) (asked : k.route = some .backup) :
    Effect b k w (httpdHandleBackup b e d (w.touch t)) := by
  unfold httpdHandleBackup
  split_ifs with busy
  · rw [sendText_eq_apply]
    exact .answers e t _ new (.const _ _)
  have idle : w.busy = false := Bool.eq_false_iff.mpr busy
  split
  · rw [sendText_eq_apply]
    exact .answers e t _ new (.const _ _)
  · rename_i total call req
    obtain ⟨zero, -, pos⟩ := parseBackup_read req
    exact .reads t total call new idle asked zero pos

lemma httpdRequest_effect {t : UInt32} (new : w.hs.state = .none)
    (asked : k.route = some (route d)) : Effect b k w (httpdRequest b e d (w.touch t)) := by
  unfold httpdRequest
  split
  · rename_i upload
    exact httpdStartUpload_effect new (upload ▸ asked)
  · rename_i backup
    exact httpdHandleBackup_effect new (backup ▸ asked)
  · split
    · rename_i a eq
      exact .answers e t a new (asked ▸ answer_sound eq)
    · exact .aborts e.now t (.inl new)

lemma httpdRecv_effect : Effect b ⟨!e.dataOk, some (route d)⟩ w (httpdRecv b e d w) := by
  unfold httpdRecv
  dsimp only
  split_ifs with ok
  · split
    · rename_i new
      exact httpdRequest_effect new rfl
    · rename_i state
      exact httpdContinueUpload_effect state
    · exact .sends { e with tcp := [] } e.now
  · exact .aborts e.now e.now (.inr (by simpa using ok))

lemma Effect.call {r : Work × Fate} {f : Frame} (eff : Effect b k w r)
    (eq : r.2 = .call f) : w.hs.state = .none ∧ w.busy = false ∧ r.1.hs.state = w.hs.state ∧
      r.1.g.hsGlobal = w.g.hsGlobal ∧ r.1.g.uploadPending = w.g.uploadPending ∧
      ∃ total call, f = .backupRead w.h total call (b.readPhase call) := by
  cases eff with
  | reads t total call new idle =>
    exact ⟨new, idle, rfl, rfl, rfl, total, call, (Fate.call.inj eq).symm⟩
  | uploads e t total boundary w₁ r new idle booked out | continues e t w₁ r state booked out =>
    cases out <;> cases eq
  | _ => cases eq

end

inductive NetEffect (b : Board) (s : Server) (ev : Event) : Server → Prop where
  | stays : NetEffect b s ev s
  | accepts (a : Addr) (now : UInt32) (free : s.conns a = none) : NetEffect b s ev
      { s with
        conns := Function.update s.conns a (some { lastActivity := now, pcb := { id := s.nextId } })
        nextId := s.nextId + 1 }
  | calls (h : Addr) (c : Conn) (k : Cause) (w : Work) (f : Fate) (live : s.conns h = some c)
      (eff : Effect b k (s.work h c) (w, f)) (keeps : Keeps (s.work h c) w)
      (why : k = ⟨false, none⟩ ∨ ∃ e seg, ev = .recv h e seg ∧
        k = ⟨!e.dataOk, some (route seg.data)⟩) :
    NetEffect b s ev (s.commit (w, f))

section
variable {b : Board} {s : Server} {ev : Event}

lemma onConn_effect {h : Addr} {f : Work → Work × Fate} (k : Cause)
    (eff : ∀ w, Effect b k w (f w)) (keeps : ∀ w, Keeps w (f w).1)
    (why : k = ⟨false, none⟩ ∨ ∃ e seg, ev = .recv h e seg ∧
      k = ⟨!e.dataOk, some (route seg.data)⟩) : NetEffect b s ev (s.onConn h f) := by
  unfold Server.onConn
  split
  · exact .stays
  · rename_i c live
    exact .calls h c k _ _ live (eff _) (keeps _) why

lemma netStep_effect : NetEffect b s ev (netStep b s ev) := by
  cases ev with
  | accept now block =>
    cases block with
    | none => exact .stays
    | some a =>
      simp only [netStep, httpdAccept]
      split_ifs with used
      · exact .stays
      · exact .accepts a now (by simpa using used)
  | recv h e seg =>
    exact onConn_effect _ (fun _ => httpdRecv_effect) (fun _ => .recv) (.inr ⟨e, seg, rfl, rfl⟩)
  | fin h e =>
    exact onConn_effect _ (fun _ => httpdFin_effect) (fun _ => .fin) (.inl rfl)
  | sent h e =>
    exact onConn_effect _ (fun _ => httpdSent_effect) (fun _ => .sent) (.inl rfl)
  | err h e =>
    exact onConn_effect _ (fun _ => httpdErr_effect) (fun _ => .err) (.inl rfl)
  | pollCb h e =>
    exact onConn_effect _ (fun _ => httpdPollCb_effect) (fun _ => .pollCb) (.inl rfl)
  | mainPoll | readReturns | returns | stop | start => exact .stays

end

/-! ## The numbers of the connections -/

structure Numbered (s : Server) : Prop where
  known : ∀ a c, s.conns a = some c → c.pcb.id < s.nextId
  unique : ∀ a a' c c', s.conns a = some c → s.conns a' = some c' → c.pcb.id = c'.pcb.id → a = a'

section
variable {s s' : Server} (num : Numbered s)
include num

lemma Numbered.of_conns (conns : ∀ a c', s'.conns a = some c' → ∃ c, s.conns a = some c ∧ c'.pcb.id = c.pcb.id)
    (next : s'.nextId = s.nextId) : Numbered s' := by
  constructor
  · intro a c' live
    obtain ⟨c, old, id⟩ := conns a c' live
    rw [id, next]
    exact num.known a c old
  · intro a a' c₁ c₁' live live' same
    obtain ⟨c, old, id⟩ := conns a c₁ live
    obtain ⟨c', old', id'⟩ := conns a' c₁' live'
    exact num.unique a a' c c' old old' (id.symm.trans (same.trans id'))

lemma Numbered.accept (a : Addr) (now : UInt32) : Numbered { s with
    conns := Function.update s.conns a (some { lastActivity := now, pcb := { id := s.nextId } })
    nextId := s.nextId + 1 } := by
  constructor
  · intro x c live
    obtain ⟨-, new⟩ | ⟨-, old⟩ := update_conns live
    · cases new
      exact Nat.lt_succ_self _
    · exact Nat.lt_succ_of_lt (num.known x c old)
  · intro x x' c c' live live' same
    obtain ⟨rfl, new⟩ | ⟨-, old⟩ := update_conns live
    · obtain ⟨rfl, -⟩ | ⟨-, old'⟩ := update_conns live'
      · rfl
      · cases new
        exact absurd same.symm (Nat.ne_of_lt (num.known x' c' old'))
    · obtain ⟨rfl, new'⟩ | ⟨-, old'⟩ := update_conns live'
      · cases new'
        exact absurd same (Nat.ne_of_lt (num.known x c old))
      · exact num.unique x x' c c' old old' same

end

/-! ## The main loop -/

def pollsWithin : List Frame → Bool
  | [] => true
  | .command :: _ => true
  | .upgrading :: _ => true
  | _ => false

inductive StackMove : List Frame → List Frame → Prop where
  | same (st : List Frame) (within : pollsWithin st = true) : StackMove st st
  | polled (f : Frame) (rest : List Frame) (phase : f.phase = some .poll) :
    StackMove (f :: rest) (f.polled :: rest)
  | popped (rest : List Frame) : StackMove (.command :: rest) rest

inductive LoopEffect (b : Board) (s : Server) (ev : Event) : Server → Prop where
  | stays : LoopEffect b s ev s
  /-- The main loop finds nothing to do. -/
  | polls (st : List Frame) (dev : Devices) (move : StackMove s.stack st)
      (why : s.isRunning = false ∨ s.fetching = false) :
    LoopEffect b s ev { s with stack := st, dev := dev }
  /-- The last wait of an upgrade ends. -/
  | waited (f : Frame) (rest : List Frame) (top : s.stack = f :: rest)
      (is : f = .failedWait ∨ f = .doneWait) : LoopEffect b s ev { s with stack := rest }
  /-- An armed upgrade is started. -/
  | readies (st : List Frame) (move : StackMove s.stack st) (polls : ev.isReadReturn = false)
      (ready : s.readyForUpgrade = true) : LoopEffect b s ev
      { s with readyForUpgrade := false, upgradeStatus := 1, stack := .upgradeWait false :: st }
  /-- A terminal command is started. -/
  | commands (st : List Frame) (dev : Devices) (move : StackMove s.stack st)
      (polls : ev.isReadReturn = false) :
    LoopEffect b s ev { s with dev := dev, stack := .command :: st }
  /-- The next chunk of a backup is read. -/
  | fetches (st : List Frame) (dev : Devices) (move : StackMove s.stack st)
      (polls : ev.isReadReturn = false) (due : s.fetching = true) :
    LoopEffect b s ev (backupChunkNext b { s with stack := st, dev := dev })
  /-- The first read of a backup returns to a connection that has been freed. -/
  | dangles (h : Addr) (total : Nat) (call : FlashCall) (p : ReadPhase) (rest : List Frame)
      (top : s.stack = .backupRead h total call p :: rest) (gone : s.conns h = none) :
    LoopEffect b s ev { s with stack := rest, crashed := true }
  /-- The first read of a backup returns. -/
  | backupReturns (e : Env) (r : FlashResult) (h : Addr) (total : Nat) (call : FlashCall)
      (p : ReadPhase) (rest : List Frame) (c : Conn) (is : ev = .readReturns e r)
      (top : s.stack = .backupRead h total call p :: rest) (live : s.conns h = some c) :
    LoopEffect b s ev (Server.commit { s with stack := rest }
      (backupReadDone b e total call r (s.work h c), .keep))
  /-- A further read of a backup returns. -/
  | chunkReturns (e : Env) (r : FlashResult) (call : FlashCall) (p : ReadPhase)
      (owner : Option Nat) (rest : List Frame) (is : ev = .readReturns e r)
      (top : s.stack = .chunkRead call p owner :: rest) (ready : p ≠ .poll) :
    LoopEffect b s ev (chunkReadDone b e.now owner r { s with stack := rest })
  /-- A chunk is handed over. -/
  | handsOver (e : Env) (owner : Option Nat) (rest : List Frame)
      (top : s.stack = .chunkWait owner :: rest) (is : ∃ ok, ev = .returns e ok) :
    LoopEffect b s ev (chunkWaitDone e { s with stack := rest })
  /-- The first wait before an upgrade ends. -/
  | upgradeWaits (rest : List Frame) (top : s.stack = .upgradeWait false :: rest) :
    LoopEffect b s ev { s with upgradeStatus := 2, stack := .upgradeWait true :: rest }
  /-- `do_http_upgrade` is called. -/
  | enters (rest : List Frame) (top : s.stack = .upgradeWait true :: rest) :
    LoopEffect b s ev (enterUpgrade { s with stack := rest })
  /-- `do_http_upgrade` returns. -/
  | upgraded (ok : Bool) (rest : List Frame) (top : s.stack = .upgrading :: rest) :
    LoopEffect b s ev (upgradeDone ok { s with stack := rest })
  /-- The board is reset after an upgrade. -/
  | reboots (rest : List Frame) (top : s.stack = .doneWait :: rest) : LoopEffect b s ev boot
  /-- The server is stopped. -/
  | stops (is : ev = .stop) (prompt : s.atPrompt = true) : LoopEffect b s ev (httpdStop s)
  /-- The server is started. -/
  | starts (is : ev = .start) (prompt : s.atPrompt = true) (off : s.isRunning = false) :
    LoopEffect b s ev { s with isRunning := true }

section
variable {b : Board} {s : Server} {ev : Event}

variable {e : Env} {st : List Frame}

lemma pollTail_effect {dev : Devices} (move : StackMove s.stack st) (polls : ev.isReadReturn = false) :
    LoopEffect b s ev (pollTail b { s with stack := st, dev := dev }) := by
  unfold pollTail
  split_ifs with go
  · exact .fetches st dev move polls go
  · exact .polls st dev move (.inr (Bool.eq_false_iff.mpr go))

lemma failsafeHttpdPoll_effect (move : StackMove s.stack st) :
    LoopEffect b s .mainPoll (failsafeHttpdPoll b { s with stack := st }) := by
  unfold failsafeHttpdPoll
  split_ifs with off ready pending
  · exact .polls st s.dev move (.inl (by simpa using off))
  · exact .readies st move rfl ready
  · exact .commands st _ move rfl
  · exact pollTail_effect move rfl

lemma mainPoll_effect : LoopEffect b s .mainPoll (loopStep b s .mainPoll) := by
  have poll (within : pollsWithin s.stack = true) :
      LoopEffect b s .mainPoll (failsafeHttpdPoll b s) := failsafeHttpdPoll_effect (.same _ within)
  simp only [loopStep, Server.pollCalled]
  split
  · rename_i s₁ eq
    split at eq
    · rename_i top
      exact Option.some.inj eq ▸ poll (by rw [top]; rfl)
    · rename_i top
      exact Option.some.inj eq ▸ poll (by rw [top]; rfl)
    · rename_i top
      exact Option.some.inj eq ▸ poll (by rw [top]; rfl)
    · rename_i f rest _ _ top
      split_ifs at eq with phase
      cases eq
      have move : StackMove s.stack (f.polled :: rest) := top ▸ .polled f rest phase
      exact failsafeHttpdPoll_effect move
  · exact .stays

lemma readReturns_effect {r : FlashResult} : LoopEffect b s (.readReturns e r) (loopStep b s (.readReturns e r)) := by
  simp only [loopStep]
  split
  · rename_i f rest top
    split_ifs with read
    · obtain ⟨read, phase⟩ := Bool.and_eq_true_iff.mp read
      cases f with
      | backupRead h total call p =>
        simp only [readReturns]
        split
        · rename_i gone
          exact .dangles h total call p rest top gone
        · rename_i c live
          exact .backupReturns e r h total call p rest c rfl top live
      | chunkRead call p owner => exact .chunkReturns e r call p owner rest rfl top (by simpa [Frame.phase] using phase)
      | chunkWait | command | upgradeWait | upgrading | failedWait | doneWait => simp [Frame.isRead] at read
    · exact .stays
  · exact .stays

lemma returns_effect {ok : Bool} : LoopEffect b s (.returns e ok) (loopStep b s (.returns e ok)) := by
  simp only [loopStep]
  split
  · rename_i f rest top
    cases f with
    | backupRead | chunkRead => exact .stays
    | chunkWait owner => exact .handsOver e owner rest top ⟨ok, rfl⟩
    | command =>
      simp only [Frame.isRead, Bool.false_eq_true, if_false, resumeFrame]
      have move : StackMove s.stack rest := top ▸ .popped rest
      split_ifs with run
      · exact pollTail_effect move rfl
      · exact .polls rest _ move (.inl (by simpa using run))
    | upgradeWait second =>
      cases second with
      | false => exact .upgradeWaits rest top
      | true => exact .enters rest top
    | upgrading => exact .upgraded ok rest top
    | failedWait =>
      exact .waited _ rest top (.inl rfl)
    | doneWait =>
      simp only [Frame.isRead, Bool.false_eq_true, if_false, resumeFrame]
      split_ifs
      · exact .reboots rest top
      · exact .waited _ rest top (.inr rfl)
  · exact .stays

lemma loopStep_effect : LoopEffect b s ev (loopStep b s ev) := by
  cases ev with
  | mainPoll => exact mainPoll_effect
  | readReturns e r => exact readReturns_effect
  | returns e ok => exact returns_effect
  | stop =>
    simp only [loopStep]
    split_ifs with go
    · exact .stops rfl (by simpa using (Bool.and_eq_true_iff.mp go).1)
    · exact .stays
  | start =>
    simp only [loopStep]
    split_ifs with go
    · simp only [Bool.and_eq_true, Bool.not_eq_true'] at go
      exact .starts rfl go.1 go.2
    · exact .stays
  | accept | recv | fin | sent | err | pollCb => exact .stays

end

end ResQBoot.Failsafe
