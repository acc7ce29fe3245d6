import ResQBoot.Failsafe.Arming

/-!
# Every request is answered or dropped

What becomes of a connection in `STATE_NONE` when `httpd_recv` has dealt with a segment. The exception is the web
terminal, whose handler returns without a response unless the path is one it knows (`webtermKnown`).
-/

namespace ResQBoot.Failsafe

def webtermCommon (data : Bytes) (path : Nat) : Bool :=
  hasAt data path (bytes "cmd") || hasAt data path (bytes "abort") || hasAt data path (bytes "reset")

def webtermKnown (data : Bytes) : Bool :=
  if hasAt data 0 (bytes "GET ") then
    hasAt data 4 (bytes "/webterm/") && (webtermCommon data 13 || hasAt data 13 (bytes "status") ||
      hasAt data 13 (bytes "data"))
  else hasAt data 0 (bytes "POST ") && hasAt data 5 (bytes "/webterm/") && webtermCommon data 14

lemma webtermAnswer_isSome (t : Webterm) (running : Bool) (data : Bytes) :
    (webtermAnswer t running data).2.isSome = webtermKnown data := by
  unfold webtermAnswer webtermKnown webtermCommon
  cases get : hasAt data 0 (bytes "GET ") with
  | true =>
    simp only [Bool.true_or, Bool.not_true, Bool.false_eq_true, if_false, if_true]
    cases hasAt data 4 (bytes "/webterm/") with
    | false => rfl
    | true =>
      simp only [Bool.not_true, Bool.false_eq_true, if_false, Bool.true_and]
      split_ifs <;> simp_all
  | false =>
    simp only [Bool.false_or, Bool.not_false, Bool.false_eq_true, if_false, if_true]
    cases hasAt data 0 (bytes "POST ") with
    | false => rfl
    | true =>
      simp only [Bool.not_true, Bool.false_eq_true, if_false, Bool.true_and]
      cases hasAt data 5 (bytes "/webterm/") with
      | false => rfl
      | true =>
        simp only [Bool.not_true, Bool.false_eq_true, if_false, Bool.true_and]
        split_ifs <;> simp_all

def understood (data : Bytes) : Bool := route data ≠ .webterm || webtermKnown data

section
variable {b : Board} {e : Env} {d : Bytes} {w : Work} {g : Globals} {dev : Devices} {r : Route} {a : Answer}

lemma sizedReport_reply (r : Region) (c t : Bytes) (text : Bytes × Bool) :
    (sizedReport dev r c t text).reply.isSome = true := by
  unfold sizedReport
  dsimp only
  split <;> rfl

lemma httpdHandleLed_reply : (httpdHandleLed dev d).reply.isSome = true := by
  unfold httpdHandleLed
  split
  · rfl
  · split <;> rfl

lemma httpdHandleEnvSet_reply : (httpdHandleEnvSet b dev d).reply.isSome = true := by
  unfold httpdHandleEnvSet
  split <;> rfl

lemma httpdHandleMacSet_reply (returns : (httpdHandleMacSet b dev d).crash = false) :
    (httpdHandleMacSet b dev d).reply.isSome = true := by
  unfold httpdHandleMacSet at returns ⊢
  split at returns
  · rfl
  dsimp only at returns ⊢
  split at returns
  · cases returns
  · rfl
  · split at returns
    · cases returns
    · rfl
    · split <;> rfl

lemma httpdHandleWebterm_reply (running : Bool) : (httpdHandleWebterm dev running d).reply.isSome = webtermKnown d := by
  rw [← webtermAnswer_isSome dev.term running d, httpdHandleWebterm]
  cases webtermAnswer dev.term running d with
  | mk term text => cases text <;> rfl

lemma httpdHandleFileRequest_reply (h : httpdHandleFileRequest b dev d = some a) : a.reply.isSome = true := by
  unfold httpdHandleFileRequest at h
  split_ifs at h
  · exact Option.some.inj h ▸ rfl
  · obtain ⟨path, -, rfl⟩ := Option.map_eq_some_iff.mp h
    split_ifs
    · rfl
    · split <;> rfl

lemma answer_reply (h : answer b g dev d r = some a) (returns : a.crash = false) :
    a.reply.isSome = (r ≠ .webterm || webtermKnown d) := by
  cases r <;> simp only [answer, reduceCtorEq, Option.some.injEq] at h
  case webterm => exact h ▸ (httpdHandleWebterm_reply _).trans (by simp)
  case partitions => exact h ▸ sizedReport_reply ..
  case about => exact h ▸ sizedReport_reply ..
  case led => exact h ▸ httpdHandleLed_reply
  case file => exact httpdHandleFileRequest_reply h
  case envSet => exact h ▸ httpdHandleEnvSet_reply
  case macSet =>
    subst h
    exact httpdHandleMacSet_reply returns
  all_goals exact h ▸ rfl

def Work.Dealt (r : Work × Fate) : Prop := r.2 = .keep → r.1.hs.state ≠ .none

lemma apply_dealt (new : w.hs.state = .none) : Work.Dealt (w.apply e a, .keep) ↔ a.reply.isSome = true := by
  unfold Work.apply Work.Dealt
  cases a.reply with
  | none => simp [new]
  | some x => simp

lemma UploadOutcome.dealt {ok : Prop} {r : Work × Fate} (out : UploadOutcome e ok w r)
    (up : w.hs.state = .uploadRequest) : Work.Dealt r := by
  cases out with
  | goesOn => exact fun _ => by simp [up]
  | dropped => rintro ⟨⟩
  | answered =>
    refine fun _ => ?_
    have state : (finishUpload e w).hs.state = .fileRequest := by
      unfold finishUpload
      exact sendStatic_state ..
    simp [state]
  | crashed => exact fun _ => by simp [up]

lemma httpdStartUpload_dealt : Work.Dealt (httpdStartUpload b e d w) := by
  unfold httpdStartUpload
  split_ifs
  · exact fun _ => by simp [httpdSendText]
  dsimp only
  split
  · rintro ⟨⟩
  split
  · rintro ⟨⟩
  rename_i total _ _ boundary _
  have look : Looked _ (httpdFindandstoreFirstchunk b d
      (httpdInitUploadRam b ((w.resetUpload.takeOver total).setBoundary boundary))) :=
    findandstore_looked
  have state := look.booked.state
  split
  · rename_i w₁ eq
    rw [eq] at look state
    have out : UploadOutcome e True (w₁.setFound true) (fileStarted e w₁) := look.outcome.2
    exact out.dealt (state.trans rfl)
  · rename_i w₁ eq
    rw [eq] at state
    exact fun _ none => by cases state.symm.trans none

lemma httpdHandleBackup_dealt : Work.Dealt (httpdHandleBackup b e d w) := by
  unfold httpdHandleBackup
  split_ifs
  · exact fun _ => by simp [httpdSendText]
  · split
    · exact fun _ => by simp [httpdSendText]
    · rintro ⟨⟩

lemma apply_crashed (e : Env) (a : Answer) (w : Work) : (w.apply e a).g.crashed = (w.g.crashed || a.crash) := by
  unfold Work.apply
  dsimp only
  split <;> rfl

lemma httpdRequest_dealt (new : w.hs.state = .none) (returns : (httpdRequest b e d w).1.g.crashed = false) :
    Work.Dealt (httpdRequest b e d w) ↔ understood d = true := by
  unfold httpdRequest at returns ⊢
  split at returns
  · rename_i upload
    exact iff_of_true httpdStartUpload_dealt (by simp [understood, upload])
  · rename_i backup
    exact iff_of_true httpdHandleBackup_dealt (by simp [understood, backup])
  split at returns
  · rename_i a eq
    have crash : a.crash = false := (Bool.or_eq_false_iff.mp ((apply_crashed e a w).symm.trans returns)).2
    rw [apply_dealt new, answer_reply eq crash]
    rfl
  · rename_i eq
    refine iff_of_true (fun keep => by cases keep) ?_
    have other : route d ≠ .webterm := fun web => by simp [web, answer] at eq
    simp [understood, other]

lemma httpdRecv_dealt (new : w.hs.state = .none) (returns : (httpdRecv b e d w).1.g.crashed = false) :
    Work.Dealt (httpdRecv b e d w) ↔ (e.dataOk = true → understood d = true) := by
  have new' : (w.touch e.now).hs.state = .none := new
  unfold httpdRecv at returns ⊢
  by_cases ok : e.dataOk = true
  · simp only [ok, if_true, new', true_imp_iff] at returns ⊢
    exact httpdRequest_dealt new' returns
  · refine iff_of_true (fun keep => ?_) fun yes => absurd yes ok
    simp [ok, httpdCloseConn] at keep

end

def Dealt (s : Server) (h : Addr) (s' : Server) : Prop :=
  s'.conns h = none ∨ (∃ c, s'.conns h = some c ∧ c.state ≠ .none) ∨
    ∃ total call p, s'.stack = .backupRead h total call p :: s.stack

lemma commit_dealt {b : Board} {k : Cause} {s : Server} {h : Addr} {c : Conn} {r : Work × Fate}
    (eff : Effect b k (s.work h c) r) (here : r.1.h = h) : Dealt s h (s.commit r) ↔ Work.Dealt r := by
  obtain ⟨w, f⟩ := r
  obtain rfl : w.h = h := here
  unfold Dealt Work.Dealt
  cases f with
  | keep | freed => simp [Server.commit]
  | call f =>
    obtain ⟨-, -, -, -, -, total, call, eq⟩ := eff.call rfl
    have eq : f = .backupRead w.h total call (b.readPhase call) := eq
    simp [eq]

/-- A segment of a connection in `STATE_NONE` leaves it there exactly when it is a request the terminal
is asked for and does not know; and when the flash read of a backup returns to its connection, the
connection has its response. -/
theorem request_dealt_iff (b : Board) (s : Server) (h : Addr) (c : Conn) (e : Env) (seg : Segment)
    (run : s.crashed = false) (net : s.netEnabled = true) (live : s.conns h = some c)
    (new : c.state = .none) (returns : (step b s (.recv h e seg)).crashed = false) :
    (Dealt s h (step b s (.recv h e seg)) ↔ (e.dataOk = true → understood seg.data = true)) ∧
      ∀ (s₁ : Server) (total : Nat) (call : FlashCall) (p : ReadPhase) (rest : List Frame)
        (c₁ : Conn) (e₁ : Env) (r : FlashResult), s₁.crashed = false →
        s₁.stack = .backupRead h total call p :: rest → p ≠ .poll → s₁.conns h = some c₁ →
        ∃ c₂, (step b s₁ (.readReturns e₁ r)).conns h = some c₂ ∧ c₂.state = .fileRequest := by
  constructor
  · rw [step_net run net rfl, netStep, s.onConn_some live] at returns ⊢
    rw [commit_dealt httpdRecv_effect Keeps.recv.h]
    exact httpdRecv_dealt new returns
  intro s₁ total call p rest c₁ e₁ r run₁ top ready live₁
  have kept : (backupReadDone b e₁ total call r (s₁.work h c₁)).h = h :=
    (Keeps.backupReadDone total call r).h
  refine ⟨(backupReadDone b e₁ total call r (s₁.work h c₁)).hs, ?_, backupReadDone_state ..⟩
  have returned : step b s₁ (.readReturns e₁ r) = Server.commit { s₁ with stack := rest }
      (backupReadDone b e₁ total call r (s₁.work h c₁), .keep) := by
    simp [step, run₁, Event.isNet, loopStep, top, Frame.isRead, Frame.phase, ready, readReturns, live₁,
      Server.work]
  rw [returned, commit_conns_keep, kept, Function.update_self]

/-- A fresh connection asks for a file. -/
theorem request_dealt_index : ∃ c, sampleServer.conns 1 = some c ∧
    (Dealt sampleServer 1 (step sampleBoard sampleServer (.recv 1 { now := 0 }
      ⟨bytes "GET / HTTP/1.1\r\n\r\n", by decide⟩)) ↔
        (true = true → understood (bytes "GET / HTTP/1.1\r\n\r\n") = true)) := by
  refine ⟨_, rfl, (request_dealt_iff sampleBoard sampleServer 1 _ { now := 0 } _ ?_ ?_ rfl ?_ ?_).1⟩
  all_goals decide

/-- A request whose method is followed by a tab, and one for a page the terminal does not have: neither
is answered, and both connections are still in `STATE_NONE`. -/
theorem webterm_ignored :
    ¬ Dealt sampleServer 1 (step sampleBoard sampleServer (.recv 1 { now := 0 }
      ⟨bytes "GET\t/webterm/status HTTP/1.1\r\n\r\n", by decide⟩)) ∧
    ¬ Dealt sampleServer 1 (step sampleBoard sampleServer (.recv 1 { now := 0 }
      ⟨bytes "GET /webterm.html HTTP/1.1\r\n\r\n", by decide⟩)) := by
  have waits (s : Server) (state : (s.conns 1).map (·.state) = some .none) (stack : s.stack = []) :
      ¬ Dealt sampleServer 1 s := by
    obtain ⟨c, live, new⟩ := Option.map_eq_some_iff.mp state
    simp [Dealt, live, new, stack]
  exact ⟨waits _ (by decide) (by decide), waits _ (by decide) (by decide)⟩

end ResQBoot.Failsafe
