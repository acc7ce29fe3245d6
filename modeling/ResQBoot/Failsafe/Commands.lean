import ResQBoot.Lib.Machine
import ResQBoot.Lib.Text
import ResQBoot.Failsafe.Effects

/-!
# Terminal commands

`POST /webterm/cmd` queues the first line of its body, and the main loop hands it to `run_command`. `Console` is the
server beside the requests it has answered with 200, and `InOrder` what the terminal promises of them.
-/

namespace ResQBoot.Failsafe

def isCommand (data : Bytes) : Bool := hasAt data 0 (bytes "POST /webterm/cmd")

def firstLine (data : Bytes) : Bytes := (httpBody data).takeWhile fun c => c ≠ 13 ∧ c ≠ 10

def takes (c : Conn) (e : Env) (data : Bytes) : Bool := e.dataOk && c.state = .none && isCommand data

def acceptedBy (s : Server) : Event → List Bytes
  | .recv h e seg =>
    match s.conns h with
    | some c =>
      if !s.crashed && s.netEnabled && takes c e seg.data then [seg.data] else []
    | none => []
  | .accept .. => []
  | .fin .. => []
  | .sent .. => []
  | .err .. => []
  | .pollCb .. => []
  | .mainPoll => []
  | .readReturns .. => []
  | .returns .. => []
  | .stop => []
  | .start => []

def resets (s : Server) : Event → Bool
  | .returns .. =>
    match s.stack with
    | .doneWait :: _ => !s.crashed && s.target.autoReboot
    | _ => false
  | _ => false

structure Console where
  server : Server
  accepted : List Bytes

def consoleStep (b : Board) (s : Console) (ev : Event) : Console where
  server := step b s.server ev
  accepted := if resets s.server ev then [] else s.accepted ++ acceptedBy s.server ev

def Webterm.jobs (t : Webterm) : List Bytes × Option Bytes :=
  (t.executed, if t.hasPendingCmd then some (cstr t.pendingCmd) else none)

def Webterm.order (t : Webterm) : List Bytes := t.jobs.1 ++ t.jobs.2.toList

def InOrder (s : Console) : Prop := s.server.dev.term.order = s.accepted.map firstLine

structure Served (b : Board) (s : Console) : Prop where
  order : InOrder s
  next : ∀ s', s.server.pollCalled = some s' → s.server.crashed = false → s.server.isRunning = true →
    s.server.readyForUpgrade = false →
    (step b s.server .mainPoll).dev.term.executed = s.accepted.map firstLine

def Console.start (dev : Devices) : Console where
  server := { boot with dev := { dev with term := { dev.term with executed := [], hasPendingCmd := false } } }
  accepted := []

structure Storable (data : Bytes) : Prop where
  body : 0 < (httpBody data).length ∧ (httpBody data).length ≤ webtermMaxCmdLen
  head : 0 ∉ data.take (data.length - (httpBody data).length)
  line : (firstLine data).length ≤ webtermMaxCmdLen - 1
  plain : 0 ∉ firstLine data

def Fits (s : Console) (ev : Event) : Prop :=
  ∀ data ∈ acceptedBy s.server ev, s.server.dev.term.hasPendingCmd = false ∧ Storable data

/-! ## The line that is stored -/

lemma webtermParsePostBody_iff (data : Bytes) : webtermParsePostBody data = some (firstLine data) ↔ Storable data := by
  cases found : find (bytes "\r\n\r\n") data with
  | none =>
    have empty : httpBody data = [] := by simp only [httpBody, found]
    have lost : strstr data 0 (bytes "\r\n\r\n") = none := by
      refine Option.eq_none_iff_forall_ne_some.mpr fun p at_ => ?_
      cases found.symm.trans (strstr_zero_iff.mp at_).1
    have unstored : ¬ Storable data := fun st => absurd st.body.1 (by simp [empty])
    simp [webtermParsePostBody, lost, unstored]
  | some p =>
    have inside : p + 4 ≤ data.length := find_le found
    have body : httpBody data = data.drop (p + 4) := by simp only [httpBody, found]
    have header : data.length - (httpBody data).length = p + 4 := by
      rw [body, List.length_drop]
      omega
    by_cases plain : 0 ∈ data.take (p + 4)
    · have lost : strstr data 0 (bytes "\r\n\r\n") = none := by
        refine Option.eq_none_iff_forall_ne_some.mpr fun p' at_ => ?_
        obtain ⟨found', plain'⟩ := strstr_zero_iff.mp at_
        cases found.symm.trans found'
        exact plain' plain
      have unstored : ¬ Storable data := fun st => (header ▸ st.head) plain
      simp [webtermParsePostBody, lost, unstored]
    · have at_ : strstr data 0 (bytes "\r\n\r\n") = some p := strstr_zero_iff.mpr ⟨found, plain⟩
      simp only [webtermParsePostBody, at_, ← body]
      split
      · rename_i refused
        have unstored : ¬ Storable data := fun st => by
          have := st.body
          omega
        simp [unstored]
      · rename_i taken
        rw [Option.some.injEq, firstLine, copied_line_iff]
        constructor
        · rintro ⟨fits, clean⟩
          exact ⟨by omega, header.symm ▸ plain, fits, clean⟩
        · intro st
          exact ⟨st.line, st.plain⟩

lemma stored_line {data cmd : Bytes} (parsed : webtermParsePostBody data = some cmd) :
    cstr (cmd.take (webtermMaxCmdLen - 1)) = cmd := by
  rw [webtermParsePostBody] at parsed
  split at parsed
  · cases parsed
  rename_i p at_
  simp only at parsed
  split at parsed
  · cases parsed
  cases parsed
  generalize data.drop (p + 4) = body
  have short : (cstr (body.take (webtermMaxCmdLen - 1))).length ≤ webtermMaxCmdLen - 1 :=
    Nat.le_trans (List.takeWhile_prefix _).length_le (List.length_take_le _ _)
  have sub : (cstr (body.take (webtermMaxCmdLen - 1))).takeWhile (fun c => c ≠ 13 ∧ c ≠ 10) <+:
      cstr (body.take (webtermMaxCmdLen - 1)) := List.takeWhile_prefix _
  rw [List.take_of_length_le (Nat.le_trans sub.length_le short)]
  exact cstr_eq_self fun mem => zero_not_mem_cstr _ (sub.subset mem)

/-! ## What moves the jobs -/

section Jobs

variable (t : Webterm)

@[simp] lemma flushLine_jobs : t.flushLine.jobs = t.jobs := rfl

@[simp] lemma flushPending_jobs : t.flushPending.jobs = t.jobs := by
  unfold Webterm.flushPending
  split
  · rfl
  · exact flushLine_jobs t

@[simp] lemma addChar_jobs (c : UInt8) : (t.addChar c).jobs = t.jobs := by
  unfold Webterm.addChar
  split
  · rfl
  split
  · split
    · rfl
    · exact flushPending_jobs _
  · simp only
    split
    · exact flushLine_jobs { t with prevCharWasCr := false }
    · rfl

@[simp] lemma captureOutput_jobs (str : Bytes) : (t.captureOutput str).jobs = t.jobs := by
  rw [Webterm.captureOutput]
  generalize cstr str = text
  induction text generalizing t with
  | nil => rfl
  | cons c text ih => exact (ih _).trans (addChar_jobs t c)

@[simp] lemma reset_jobs : t.reset.jobs = t.jobs := by
  unfold Webterm.reset
  split <;> rfl

lemma executeCommand_jobs (cmd : Bytes) :
    (t.executeCommand true cmd).jobs = (t.jobs.1, some (cstr (cmd.take (webtermMaxCmdLen - 1)))) := by
  have same := captureOutput_jobs { t with abortRequested := false } (bytes "> " ++ cmd ++ [10])
  rw [Webterm.executeCommand, if_pos rfl]
  exact congrArg (·, some (cstr (cmd.take (webtermMaxCmdLen - 1)))) (congrArg Prod.fst same)

lemma isCommand_parts (data : Bytes) : isCommand data =
    (hasAt data 0 (bytes "POST ") && (hasAt data 5 (bytes "/webterm/") && hasAt data 14 (bytes "cmd"))) := by
  have text : bytes "POST /webterm/cmd" = bytes "POST " ++ (bytes "/webterm/" ++ bytes "cmd") := by
    decide
  rw [isCommand, text, hasAt_cat, hasAt_cat]
  rfl

lemma post_of_get {data : Bytes} (get : hasAt data 0 (bytes "GET ") = true) : hasAt data 0 (bytes "POST ") = false := by
  have getText : bytes "GET " = 71 :: [69, 84, 32] := by decide
  have postText : bytes "POST " = 80 :: [79, 83, 84, 32] := by decide
  rw [hasAt, getText] at get
  rw [hasAt, postText]
  cases data with
  | nil => rfl
  | cons x data =>
    have first : 71 = x := by
      rw [List.drop_zero, List.isPrefixOf, Bool.and_eq_true, beq_iff_eq] at get
      exact get.1
    rw [← first]
    rfl

lemma webtermAnswer_jobs (data : Bytes) : (webtermAnswer t true data).1.jobs =
      if isCommand data then
        match webtermParsePostBody data with
        | some cmd => (t.jobs.1, some cmd)
        | none => t.jobs
      else t.jobs := by
  rw [isCommand_parts, webtermAnswer]
  cases get : hasAt data 0 (bytes "GET ") with
  | true =>
    simp only [post_of_get get, Bool.or_false, Bool.not_true, Bool.false_and, Bool.false_eq_true, if_false]
    split_ifs <;> simp
  | false =>
    cases hasAt data 0 (bytes "POST ") with
    | false => rfl
    | true =>
      simp only [Bool.or_true, Bool.not_true, Bool.not_false, Bool.true_and, Bool.false_eq_true, if_false,
        if_true, Nat.reduceAdd]
      cases hasAt data 5 (bytes "/webterm/") with
      | false => rfl
      | true =>
        simp only [Bool.not_true, Bool.true_and, Bool.false_eq_true, if_false]
        split_ifs
        · cases parsed : webtermParsePostBody data with
          | none => rfl
          | some cmd =>
            rw [executeCommand_jobs, stored_line parsed]
        · rfl
        · exact reset_jobs t
        · rfl

end Jobs

/-! ## The devices -/

section Devices

variable {b : Board} {e : Env} {d : Bytes} {w : Work}

lemma UploadOutcome.dev {ok : Prop} {r : Work × Fate} (out : UploadOutcome e ok w r) : r.1.dev = w.dev := by
  cases out <;> rfl

lemma checkUploadComplete_dev : (httpdCheckUploadComplete e w).dev = w.dev := by
  unfold httpdCheckUploadComplete
  split
  · rfl
  · split <;> rfl

lemma Looked.dev {w₁ : Work} (look : Looked w (w₁, true)) : (fileStarted e w₁).1.dev = w.dev := by
  have out : UploadOutcome e True (w₁.setFound true) (fileStarted e w₁) := look.outcome.2
  exact out.dev.trans look.booked.dev

lemma httpdContinueUpload_dev : (httpdContinueUpload b e d w).1.dev = w.dev := by
  unfold httpdContinueUpload
  split_ifs with found
  · have count : Booked w (w.setCount (u32 (w.hs.upload + d.length))) := .of_mem rfl rfl rfl rfl rfl
    dsimp only
    split_ifs
    · exact checkUploadComplete_dev.trans count.dev
    · exact checkUploadComplete_dev.trans (count.trans .handleUploadData).dev
  · have look : Looked w (httpdFindandstoreFirstchunk b d w) := findandstore_looked
    split
    · rename_i w₁ eq
      rw [eq] at look
      exact look.dev
    · rename_i w₁ eq
      rw [eq] at look
      exact look.booked.dev

lemma httpdStartUpload_dev : (httpdStartUpload b e d w).1.dev = w.dev := by
  unfold httpdStartUpload
  split_ifs
  · rfl
  dsimp only
  split
  · rfl
  split
  · rfl
  rename_i total _ _ boundary _
  have look : Looked (httpdInitUploadRam b ((w.resetUpload.takeOver total).setBoundary boundary))
      (httpdFindandstoreFirstchunk b d (httpdInitUploadRam b ((w.resetUpload.takeOver total).setBoundary boundary))) :=
    findandstore_looked
  split
  · rename_i w₁ eq
    rw [eq] at look
    exact look.dev
  · rename_i w₁ eq
    rw [eq] at look
    exact look.booked.dev

lemma httpdHandleBackup_dev : (httpdHandleBackup b e d w).1.dev = w.dev := by
  unfold httpdHandleBackup
  split_ifs
  · rfl
  · split <;> rfl

@[simp] lemma apply_dev (a : Answer) : (w.apply e a).dev = a.dev := by
  unfold Work.apply
  dsimp only
  split <;> rfl

lemma sizedReport_dev (dev : Devices) (r : Region) (cache tooLarge : Bytes) (text : Bytes × Bool) :
    (sizedReport dev r cache tooLarge text).dev.term = dev.term := by
  unfold sizedReport
  dsimp only
  split <;> rfl

variable {dev dev' : Devices} {s : Server} {f : Work → Work × Fate}

lemma envApply_term {name value : Bytes} (ok : envApply b dev name value = .ok dev') : dev'.term = dev.term := by
  unfold envApply at ok
  split_ifs at ok
  all_goals exact EnvVerdict.ok.inj ok ▸ rfl

lemma envVerdict_term (ok : envVerdict b dev d = .ok dev') : dev'.term = dev.term := by
  rw [envVerdict] at ok
  cases fields : envFields d with
  | none =>
    rw [fields] at ok
    cases ok
  | some f =>
    rw [fields] at ok
    exact envApply_term ok

lemma answer_term {g : Globals} {r : Route} {a : Answer} (h : answer b g dev d r = some a)
    (other : r ≠ .webterm) : a.dev.term = dev.term := by
  cases r <;> simp only [answer, reduceCtorEq, Option.some.injEq] at h
  case webterm => exact absurd rfl other
  case upgradeStatus => exact h ▸ rfl
  case partitions =>
    rw [← h]
    exact sizedReport_dev ..
  case about =>
    rw [← h]
    exact sizedReport_dev ..
  case macInfo => exact h ▸ rfl
  case led =>
    rw [← h, httpdHandleLed]
    split
    · rfl
    split
    · rfl
    · dsimp only
      split
      · split <;> rfl
      · rfl
  case btnDetect => exact h ▸ rfl
  case file =>
    unfold httpdHandleFileRequest at h
    split_ifs at h
    · exact Option.some.inj h ▸ rfl
    · obtain ⟨path, -, rfl⟩ := Option.map_eq_some_iff.mp h
      split_ifs
      · rfl
      · split <;> rfl
  case envSet =>
    rw [← h, httpdHandleEnvSet]
    split
    · rename_i ok
      exact envVerdict_term ok
    · rfl
    · rfl
  case macSet =>
    rw [← h, httpdHandleMacSet]
    split
    · rfl
    dsimp only
    split
    · rfl
    · rfl
    · split
      · rfl
      · rfl
      · split <;> rfl

lemma route_command (command : isCommand d = true) : route d = .webterm := by
  rw [isCommand, hasAt, List.drop_zero, List.isPrefixOf_iff_prefix] at command
  obtain ⟨rest, rfl⟩ := command
  simp (disch := decide) only [route, hasAt_append, List.getElem?_append_left]
  rfl

lemma webtermAnswer_command (t : Webterm) (running : Bool) (command : isCommand d = true) :
    (webtermAnswer t running d).2 = some (webtermVerdict true) := by
  rw [isCommand_parts, Bool.and_eq_true, Bool.and_eq_true] at command
  obtain ⟨post, webterm, cmd⟩ := command
  have get : hasAt d 0 (bytes "GET ") = false :=
    Bool.eq_false_iff.mpr fun get => by cases post.symm.trans (post_of_get get)
  simp [webtermAnswer, get, post, webterm, cmd]

lemma httpdHandleWebterm_term (dev : Devices) (running : Bool) :
    (httpdHandleWebterm dev running d).dev.term = (webtermAnswer dev.term running d).1 := by
  rw [httpdHandleWebterm]
  cases webtermAnswer dev.term running d with
  | mk term text => cases text <;> rfl

lemma httpdRequest_jobs (running : w.g.isRunning = true) : (httpdRequest b e d w).1.dev.term.jobs =
      if isCommand d then
        match webtermParsePostBody d with
        | some cmd => (w.dev.term.jobs.1, some cmd)
        | none => w.dev.term.jobs
      else w.dev.term.jobs := by
  by_cases terminal : route d = .webterm
  · have term : (httpdRequest b e d w).1.dev.term = (webtermAnswer w.dev.term true d).1 := by
      simp only [httpdRequest, terminal, answer, apply_dev, running, httpdHandleWebterm_term]
    rw [term, webtermAnswer_jobs]
  have plain : isCommand d = false := Bool.eq_false_iff.mpr fun command => terminal (route_command command)
  have same : (httpdRequest b e d w).1.dev.term = w.dev.term := by
    unfold httpdRequest
    split
    · rw [httpdStartUpload_dev]
    · rw [httpdHandleBackup_dev]
    · split
      · rename_i a answered
        rw [apply_dev, answer_term answered terminal]
      · rfl
  rw [plain, same]
  rfl

lemma httpdRecv_jobs (running : w.g.isRunning = true) : (httpdRecv b e d w).1.dev.term.jobs =
      if takes w.hs e d then
        match webtermParsePostBody d with
        | some cmd => (w.dev.term.jobs.1, some cmd)
        | none => w.dev.term.jobs
      else w.dev.term.jobs := by
  unfold httpdRecv takes
  dsimp only
  cases e.dataOk with
  | false => rfl
  | true =>
    have touched : (w.touch e.now).hs.state = w.hs.state := rfl
    rw [if_pos rfl, touched, Bool.true_and]
    cases w.hs.state with
    | uploadRequest => rw [httpdContinueUpload_dev]; rfl
    | fileRequest => rfl
    | none => exact httpdRequest_jobs running

lemma httpdSent_dev : (httpdSent e w).1.dev = w.dev := by
  unfold httpdSent
  dsimp only
  split_ifs
  · exact (Unsent.headerSent _).dev
  · exact (Unsent.headerSent _).dev
  · exact (Unsent.armUpgrade _).dev.trans (Unsent.headerSent _).dev
  · exact (Unsent.headerSent _).dev

lemma httpdPollCb_dev : (httpdPollCb e w).1.dev = w.dev := by
  unfold httpdPollCb
  split_ifs <;> rfl

lemma onConn_dev {h : Addr} (keep : ∀ w, (f w).1.dev = w.dev) : (s.onConn h f).dev = s.dev := by
  unfold Server.onConn
  split
  · rfl
  · exact keep _

lemma withOwner_dev {idle : Server} (keep : ∀ w, (f w).1.dev = w.dev)
    (same : idle.dev = s.dev) : (s.withOwner f idle).dev = s.dev :=
  Server.withOwner_cases (P := fun s' => s'.dev = s.dev) (fun _ => same) (fun _ _ _ => rfl)
    fun _ _ _ _ => keep _

end Devices

/-! ## Steps -/

section Steps

variable {b : Board} {s : Server}

variable {e : Env} {ev : Event} {f : Frame} {t : Webterm}

lemma order_of_jobs {t' : Webterm} (same : t'.jobs = t.jobs) : t'.order = t.order := by
  rw [Webterm.order, same, Webterm.order]

lemma startPendingCommand_order (pending : t.hasPendingCmd = true) :
    t.startPendingCommand.order = t.order ∧ t.startPendingCommand.executed = t.order := by
  simp [Webterm.order, Webterm.jobs, Webterm.startPendingCommand, pending]

lemma pollTail_dev : (pollTail b s).dev = s.dev := by
  unfold pollTail
  split <;> rfl

lemma failsafeHttpdPoll_order : (failsafeHttpdPoll b s).dev.term.order = s.dev.term.order := by
  unfold failsafeHttpdPoll
  split_ifs with off ready pending
  · rfl
  · rfl
  · exact (startPendingCommand_order pending).1
  · rw [pollTail_dev]

lemma failsafeHttpdPoll_executed (running : s.isRunning = true) (unarmed : s.readyForUpgrade = false) :
    (failsafeHttpdPoll b s).dev.term.executed = s.dev.term.order := by
  unfold failsafeHttpdPoll
  rw [if_neg (by simp [running]), if_neg (by simp [unarmed])]
  split_ifs with pending
  · exact (startPendingCommand_order pending).2
  · rw [pollTail_dev]
    simp [Webterm.order, Webterm.jobs, pending]

lemma resumeFrame_order {ok : Bool} (stays : f ≠ .doneWait ∨ s.target.autoReboot = false) :
    (resumeFrame b e ok s f).dev.term.order = s.dev.term.order := by
  cases f with
  | chunkWait owner =>
    have same : (chunkWaitDone e s).dev = s.dev := withOwner_dev (fun _ => rfl) rfl
    rw [resumeFrame, same]
  | command =>
    rw [resumeFrame]
    dsimp only
    split
    · rw [pollTail_dev]
      exact order_of_jobs (flushPending_jobs _)
    · exact order_of_jobs (flushPending_jobs _)
  | upgradeWait second => cases second <;> rfl
  | upgrading => cases ok <;> rfl
  | doneWait =>
    obtain other | stays := stays
    · exact absurd rfl other
    · rw [resumeFrame, stays]
      rfl
  | backupRead h total call p | chunkRead call p owner | failedWait => rfl

lemma readReturns_dev {r : FlashResult} : (readReturns b e r s f).dev = s.dev := by
  cases f with
  | backupRead h total call p =>
    rw [readReturns]
    split
    · rfl
    · rename_i c live
      rw [commit_dev, backupReadDone]
      dsimp only
      split <;> rfl
  | chunkRead call p owner =>
    rw [readReturns, chunkReadDone]
    dsimp only
    split
    · exact withOwner_dev (fun _ => rfl) rfl
    · rfl
  | chunkWait owner | command | upgradeWait second | upgrading | failedWait | doneWait => rfl

lemma pollCalled_same {s' : Server} (called : s.pollCalled = some s') : ∃ st, s' = { s with stack := st } := by
  unfold Server.pollCalled at called
  split at called
  · exact ⟨s.stack, (Option.some.inj called).symm⟩
  · exact ⟨s.stack, (Option.some.inj called).symm⟩
  · exact ⟨s.stack, (Option.some.inj called).symm⟩
  · split_ifs at called
    exact ⟨_, (Option.some.inj called).symm⟩

lemma loopStep_order (run : s.crashed = false) (stays : resets s ev = false) :
    (loopStep b s ev).dev.term.order = s.dev.term.order := by
  cases ev with
  | mainPoll =>
    simp only [loopStep]
    split
    · rename_i s' called
      obtain ⟨st, rfl⟩ := pollCalled_same called
      exact failsafeHttpdPoll_order
    · rfl
  | readReturns e r =>
    simp only [loopStep]
    split
    · split_ifs
      · rw [readReturns_dev]
      · rfl
    · rfl
  | returns e ok =>
    simp only [loopStep]
    split
    · rename_i f rest top
      split_ifs
      · rfl
      refine resumeFrame_order ?_
      by_cases last : f = .doneWait
      · refine .inr ?_
        simpa [resets, top, last, run] using stays
      · exact .inl last
    · rfl
  | stop | start =>
    simp only [loopStep]
    split_ifs <;> rfl
  | accept | recv | fin | sent | err | pollCb => rfl

inductive JobStep (b : Board) (s : Server) (ev : Event) : Prop where
  | resets (none : acceptedBy s ev = []) (is : resets s ev = true) (eq : step b s ev = boot)
  | keeps (none : acceptedBy s ev = []) (stays : resets s ev = false)
      (same : (step b s ev).dev.term.order = s.dev.term.order)
  | answers (data : Bytes) (one : acceptedBy s ev = [data]) (stays : resets s ev = false)
      (jobs : (step b s ev).dev.term.jobs =
        match webtermParsePostBody data with
        | some cmd => (s.dev.term.jobs.1, some cmd)
        | none => s.dev.term.jobs)

lemma recv_jobStep (h : Addr) (e : Env) (seg : Segment) (run : s.crashed = false)
    (net : s.netEnabled = true) : JobStep b s (.recv h e seg) := by
  have running : s.isRunning = true := by
    unfold Server.netEnabled at net
    exact (Bool.and_eq_true_iff.mp net).1
  have eq : step b s (.recv h e seg) = netStep b s (.recv h e seg) := step_net run net rfl
  cases live : s.conns h with
  | none =>
    refine .keeps (by simp only [acceptedBy, live]) rfl ?_
    rw [eq, netStep, Server.onConn, live]
  | some c =>
    have jobs := httpdRecv_jobs (b := b) (e := e) (d := seg.data) (w := s.work h c) running
    cases taken : takes c e seg.data with
    | false =>
      rw [show takes (s.work h c).hs e seg.data = false from taken] at jobs
      refine .keeps (by simp [acceptedBy, live, taken]) rfl ?_
      rw [eq, netStep, Server.onConn_some live]
      exact order_of_jobs jobs
    | true =>
      rw [show takes (s.work h c).hs e seg.data = true from taken] at jobs
      refine .answers seg.data (by simp [acceptedBy, live, taken, run, net]) rfl ?_
      rw [eq, netStep, Server.onConn_some live]
      exact jobs

lemma acceptedBy_stopped (stopped : s.crashed = true ∨ s.netEnabled = false) : acceptedBy s ev = [] := by
  cases ev with
  | recv h e seg =>
    have off : (!s.crashed && s.netEnabled) = false := by
      obtain crashed | idle := stopped
      · simp [crashed]
      · simp [idle]
    simp only [acceptedBy, off]
    split <;> rfl
  | _ => rfl

lemma step_jobStep (b : Board) (s : Server) (ev : Event) : JobStep b s ev := by
  cases run : s.crashed with
  | true =>
    have calm : resets s ev = false := by
      cases ev with
      | returns e ok =>
        simp only [resets, run]
        split <;> rfl
      | _ => rfl
    refine .keeps (acceptedBy_stopped (.inl run)) calm ?_
    rw [step, run, if_pos rfl]
  | false =>
    have loop (off : ev.isNet = false) (none : acceptedBy s ev = []) : JobStep b s ev := by
      have eq : step b s ev = loopStep b s ev := by
        simp only [step, run, off, Bool.false_eq_true, if_false]
      cases stays : resets s ev with
      | false =>
        refine .keeps none stays ?_
        rw [eq, loopStep_order run stays]
      | true =>
        refine .resets none stays ?_
        rw [eq]
        cases ev with
        | returns e ok =>
          simp only [resets] at stays
          split at stays
          · rename_i rest top
            have auto : s.target.autoReboot = true := by simpa [run] using stays
            simp only [loopStep, top, Frame.isRead, Bool.false_eq_true, if_false, resumeFrame, auto, if_true]
          · cases stays
        | _ => cases stays
    have net (calm : resets s ev = false) (none : acceptedBy s ev = [])
        (same : (netStep b s ev).dev = s.dev) (is : ev.isNet = true) : JobStep b s ev := by
      refine .keeps none calm ?_
      cases on : s.netEnabled with
      | true => rw [step_net run on is, same]
      | false => simp only [step, run, is, on, Bool.false_eq_true, if_false, if_true]
    cases ev with
    | recv h e seg =>
      cases on : s.netEnabled with
      | true => exact recv_jobStep h e seg run on
      | false =>
        refine .keeps (acceptedBy_stopped (.inr on)) rfl ?_
        simp only [step, run, Event.isNet, on, Bool.false_eq_true, if_false, if_true]
    | accept now block =>
      refine net rfl rfl ?_ rfl
      simp only [netStep, httpdAccept]
      split
      · rfl
      · split <;> rfl
    | fin h e => exact net rfl rfl (onConn_dev fun w => (Unsent.armUpgrade w).dev) rfl
    | sent h e => exact net rfl rfl (onConn_dev fun _ => httpdSent_dev) rfl
    | err h e => exact net rfl rfl (onConn_dev fun _ => rfl) rfl
    | pollCb h e => exact net rfl rfl (onConn_dev fun _ => httpdPollCb_dev) rfl
    | mainPoll | readReturns e r | returns e ok | stop | start => exact loop rfl rfl

end Steps

variable {data : Bytes}

lemma apply_verdict {w : Work} {e : Env} (command : isCommand data = true) (running : Bool) :
    (w.apply e (httpdHandleWebterm w.dev running data)).h = w.h ∧
      (w.apply e (httpdHandleWebterm w.dev running data)).hs.trail.built = webtermVerdict true := by
  have verdict := webtermAnswer_command w.dev.term running command
  rw [httpdHandleWebterm]
  cases answered : webtermAnswer w.dev.term running data with
  | mk term text =>
    rw [answered] at verdict
    obtain rfl : text = some (webtermVerdict true) := verdict
    refine ⟨rfl, ?_⟩
    simp only [Answer.printed, Work.apply, httpdSendStatic, sendData_trail, Answer.stored, Ptr.deref,
      Function.update_self]
    exact Mem.read_write_take _ _ (by simp)

lemma acceptedBy_answered {b : Board} {s : Server} {ev : Event} (taken : data ∈ acceptedBy s ev) :
    ∃ h e seg c, ev = .recv h e seg ∧ data = seg.data ∧ (step b s ev).conns h = some c ∧
      c.trail.built = webtermVerdict true := by
  cases ev with
  | recv h e seg =>
    rw [acceptedBy] at taken
    split at taken
    · rename_i c live
      split_ifs at taken with go
      · simp only [takes, Bool.and_eq_true, Bool.not_eq_true', decide_eq_true_eq] at go
        obtain ⟨⟨run, net⟩, ⟨ok, new⟩, command⟩ := go
        have recv : httpdRecv b e seg.data (s.work h c) =
            (((s.work h c).touch e.now).apply e (httpdHandleWebterm s.dev s.isRunning seg.data), .keep) := by
          rw [recv_new ok new]
          simp only [httpdRequest, route_command command, answer]
          rfl
        have eq : step b s (.recv h e seg) = netStep b s (.recv h e seg) := step_net run net rfl
        rw [netStep, Server.onConn_some live, recv] at eq
        obtain ⟨here, built⟩ := apply_verdict (w := (s.work h c).touch e.now) (e := e) command s.isRunning
        refine ⟨h, e, seg, _, rfl, List.mem_singleton.mp taken, ?_, built⟩
        rw [eq, commit_conns_keep, Function.update_apply]
        exact if_pos here.symm
      · cases taken
    · cases taken
  | _ => cases taken

/-! ## Runs -/

lemma consoleStep_inOrder (b : Board) (s : Console) (ev : Event) (ordered : InOrder s) :
    InOrder (consoleStep b s ev) ↔ Fits s ev := by
  have idle (none : acceptedBy s.server ev = []) : Fits s ev := by
    rw [Fits, none]
    rintro _ ⟨⟩
  cases step_jobStep b s.server ev with
  | resets none is eq =>
    refine iff_of_true ?_ (idle none)
    simp only [InOrder, consoleStep, is, eq, if_true]
    rfl
  | keeps none stays same =>
    refine iff_of_true ?_ (idle none)
    simp only [InOrder, consoleStep, stays, none, same, Bool.false_eq_true, if_false, List.append_nil]
    exact ordered
  | answers data one stays jobs =>
    have fits : Fits s ev ↔ s.server.dev.term.hasPendingCmd = false ∧ Storable data := by
      rw [Fits, one, List.forall_mem_singleton]
    rw [fits, ← webtermParsePostBody_iff]
    rw [InOrder] at ordered
    simp only [InOrder, consoleStep, stays, one, Bool.false_eq_true, if_false, List.map_append, List.map_cons,
      List.map_nil, ← ordered, Webterm.order, jobs]
    cases parsed : webtermParsePostBody data with
    | none =>
      -- answered and not queued
      simp
    | some cmd =>
      cases pending : s.server.dev.term.hasPendingCmd with
      | false => simp [Webterm.jobs, pending]
      | true =>
        -- the line of the request before is overwritten
        simp [Webterm.jobs, pending]

lemma InOrder.served {s : Console} (b : Board) (ordered : InOrder s) : Served b s where
  order := ordered
  next s' called run running unarmed := by
    have eq : step b s.server .mainPoll = failsafeHttpdPoll b s' := by
      simp only [step, run, Event.isNet, loopStep, called, Bool.false_eq_true, if_false]
    obtain ⟨st, rfl⟩ := pollCalled_same called
    rw [eq]
    exact (failsafeHttpdPoll_executed (s := { s.server with stack := st }) running unarmed).trans ordered

/-- Over every interleaving of segments, polls of the main loop and everything else that happens to the
server, the terminal keeps its promise exactly as long as every command it answers finds the slot free,
and has a body of at most 4096 bytes with a first line of at most 4095 and no NUL up to its end. -/
theorem commands_served_iff (b : Board) (dev : Devices) (evs : List Event) :
    (∀ init, init <+: evs → Served b (runAll (consoleStep b) (.start dev) init)) ↔
      Along (consoleStep b) Fits (.start dev) evs := by
  have start : InOrder (.start dev) := rfl
  have run := along_iff_prefixes (I := fun _ => True) (fun _ _ _ _ => trivial)
    (fun s ev _ ordered _ => consoleStep_inOrder b s ev ordered) evs (.start dev) trivial start
    (along_true _ _ _)
  rw [← run]
  exact ⟨fun served init sub => (served init sub).order, fun ordered init sub => (ordered init sub).served b⟩

def postLine (line : Bytes) : Bytes := bytes "POST /webterm/cmd HTTP/1.1\r\n\r\n" ++ line

def twoCommands : List Event :=
  [.accept 0 (some 1), .accept 0 (some 2), .recv 1 { now := 0 } ⟨postLine (bytes "a"), by decide⟩,
    .recv 2 { now := 0 } ⟨postLine (bytes "b"), by decide⟩, .mainPoll]

/-- Both are answered with 200, and the first is never started. -/
theorem command_overwritten :
    (runAll (consoleStep sampleBoard) (.start {}) twoCommands).accepted.map firstLine = [bytes "a", bytes "b"] ∧
      (runAll (consoleStep sampleBoard) (.start {}) twoCommands).server.dev.term.order = [bytes "b"] := by
  decide

end ResQBoot.Failsafe
