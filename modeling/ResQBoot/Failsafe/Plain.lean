import ResQBoot.Failsafe.Arming

/-!
# A server without uploads

As long as nobody asks for an upload, nothing is armed (`Plain`). A connection that does not own the globals and asks
for neither an upload nor a backup leaves the backup, the owner and the RAM alone (`Aside`).
-/

namespace ResQBoot.Failsafe

def Server.asks (s : Server) : Event → Option Route
  | .recv h _ seg => ((s.conns h).filter fun c => c.state = .none).map fun _ => route seg.data
  | _ => none

def Frame.ofUpgrade : Frame → Bool
  | .upgradeWait _ => true
  | .upgrading => true
  | .failedWait => true
  | .doneWait => true
  | _ => false

structure Plain (s : Server) : Prop where
  state : ∀ a c, s.conns a = some c → c.state ≠ .uploadRequest
  done : s.upload.done = false
  ready : s.readyForUpgrade = false
  frames : s.stack.any Frame.ofUpgrade = false
  known : ∀ a c, s.conns a = some c → c.pcb.id < s.nextId
  unique : ∀ a a' c c', s.conns a = some c → s.conns a' = some c' → c.pcb.id = c'.pcb.id → a = a'

section
variable {b : Board} {s s' : Server} {ev : Event} {k : Cause} {w : Work} {r : Work × Fate}

@[simp] lemma headerSent_kept (w : Work) : (headerSent w).g.upload = w.g.upload ∧
    (headerSent w).g.readyForUpgrade = w.g.readyForUpgrade := by
  unfold headerSent
  split <;> exact ⟨rfl, rfl⟩

lemma headerSent_state (w : Work) : (headerSent w).hs.state = .fileRequest ∨ (headerSent w).hs.state = w.hs.state := by
  unfold headerSent
  split
  · exact .inl rfl
  · exact .inr rfl

lemma armUpgrade_idle (done : w.g.upload.done = false) : armUpgrade w = w := by
  simp [armUpgrade, done]

lemma apply_state (e : Env) (a : Answer) (w : Work) :
    (w.apply e a).hs.state = .fileRequest ∨ (w.apply e a).hs.state = w.hs.state := by
  unfold Work.apply
  dsimp only
  split
  · exact .inl (sendStatic_state ..)
  · exact .inr rfl

lemma apply_kept (e : Env) (a : Answer) (w : Work) : (w.apply e a).g.upload = w.g.upload ∧
    (w.apply e a).g.readyForUpgrade = w.g.readyForUpgrade := by
  unfold Work.apply
  dsimp only
  split <;> exact ⟨rfl, rfl⟩

lemma Effect.plain (eff : Effect b k w r) (state : w.hs.state ≠ .uploadRequest)
    (done : w.g.upload.done = false) (no : w.hs.state = .none → k.route ≠ some .upload) :
    r.1.hs.state ≠ .uploadRequest ∧ r.1.g.upload.done = false ∧ r.1.g.readyForUpgrade = w.g.readyForUpgrade := by
  have header (now : UInt32) : (headerSent (w.touch now)).hs.state ≠ .uploadRequest := by
    obtain eq | eq := headerSent_state (w.touch now)
    · simp [eq]
    · exact eq ▸ state
  cases eff with
  | sends e now => exact ⟨by simpa [Work.touch] using state, done, rfl⟩
  | answers e now a new sound =>
    refine ⟨?_, (congrArg Upload.done (apply_kept ..).1).trans done, (apply_kept ..).2⟩
    obtain eq | eq := apply_state e a (w.touch now)
    · simp [eq]
    · exact eq ▸ state
  | aborts now t why => exact ⟨by rintro ⟨⟩, by simpa [httpdCloseConn] using done, by simp [httpdCloseConn]⟩
  | refuses now t new idle asked | gives now t total new idle asked
  | uploads e t total boundary w₁ r new idle booked out asked => exact absurd asked (no new)
  | continues e t w₁ r up => exact absurd up state
  | reads t total call new idle => exact ⟨state, done, rfl⟩
  | sendsMore e more => exact ⟨by simpa using header e.now, by simpa [httpdSendData] using done,
      by simp [httpdSendData]⟩
  | asks now => exact ⟨header now, by simpa [Work.setBackup] using done, by simp [Work.setBackup]⟩
  | waits now => exact ⟨header now, by simpa using done, by simp⟩
  | closes now =>
    have arm := armUpgrade_idle (w := headerSent (w.touch now)) (by simpa using done)
    refine ⟨by rintro ⟨⟩, ?_, ?_⟩
    · simpa [sentClose, httpdCloseConn, arm, Work.logClosed] using done
    · simp [sentClose, httpdCloseConn, arm, Work.logClosed]
  | fins e =>
    have arm := armUpgrade_idle done
    exact ⟨by rintro ⟨⟩, by simpa [httpdFin, httpdCloseConn, arm] using done, by simp [httpdFin, httpdCloseConn, arm]⟩
  | drops now =>
    refine ⟨by rintro ⟨⟩, ?_, ?_⟩
    · simp only [httpdCloseConn, stateReset_kept, dropConn]
      split_ifs
      · rfl
      · exact done
    · simp only [httpdCloseConn, stateReset_kept, dropConn]
      split_ifs <;> rfl

structure Later (s s' : Server) : Prop where
  conns : ∀ a c', s'.conns a = some c' → ∃ c, s.conns a = some c ∧ c'.pcb.id = c.pcb.id ∧
    (c'.state = c.state ∨ c'.state ≠ .uploadRequest)
  next : s'.nextId = s.nextId
  closed : s'.hist.closed = s.hist.closed

lemma Later.of_eq (conns : s'.conns = s.conns) (next : s'.nextId = s.nextId)
    (closed : s'.hist.closed = s.hist.closed) : Later s s' :=
  ⟨fun _ c live => ⟨c, conns ▸ live, rfl, .inl rfl⟩, next, closed⟩

lemma Plain.numbered (pl : Plain s) : Numbered s := ⟨pl.known, pl.unique⟩

lemma Plain.of_conns (pl : Plain s)
    (conns : ∀ a c', s'.conns a = some c' → ∃ c, s.conns a = some c ∧ c'.pcb.id = c.pcb.id ∧
      (c'.state = c.state ∨ c'.state ≠ .uploadRequest))
    (done : s'.upload.done = false) (ready : s'.readyForUpgrade = false) (next : s'.nextId = s.nextId)
    (frames : s'.stack.any Frame.ofUpgrade = false) : Plain s' := by
  have num : Numbered s' := pl.numbered.of_conns (fun a c' live => ?_) next
  · refine ⟨fun a c' live => ?_, done, ready, frames, num.known, num.unique⟩
    obtain ⟨c, old, -, state | state⟩ := conns a c' live
    · exact state ▸ pl.state a c old
    · exact state
  · obtain ⟨c, old, id, -⟩ := conns a c' live
    exact ⟨c, old, id⟩

/-- Whether a connection whose response is out is closed. -/
def Work.Closing (w : Work) : Prop :=
  w.hs.upload = 0 ∧ (w.isOwner = true → w.g.backup.chunkBusy = false ∧
    (w.g.backup.chunked = true → w.g.backup.totalRemaining = 0))

/-- The connections that are logged as closed have sent their response. -/
lemma Effect.closed (eff : Effect b k w r) : r.1.g.hist.closed = w.g.hist.closed ∨ r.2 = .freed ∧
    (∃ now, (headerSent (w.touch now)).Closing) ∧ r.1.g.hist.closed = w.g.hist.closed ++ [(w.hs.pcb, w.hs.trail)] := by
  have out {e : Env} {ok : Prop} {w₁ : Work} {r : Work × Fate} (out : UploadOutcome e ok w₁ r)
      (hist : w₁.g.hist = w.g.hist) : r.1.g.hist.closed = w.g.hist.closed := by
    cases out with
    | goesOn => exact congrArg History.closed hist
    | dropped => simp [httpdCloseConn, hist]
    | answered =>
      rw [← hist]
      simp only [finishUpload, httpdSendText, httpdSendStatic, httpdSendData, stateReset_kept, httpdUploadComplete]
      split_ifs <;> rfl
    | crashed => exact congrArg History.closed hist
  cases eff with
  | sends => exact .inl rfl
  | answers e now a =>
    unfold Work.apply
    dsimp only
    split <;> exact .inl rfl
  | aborts => exact .inl (by simp [httpdCloseConn])
  | refuses now t => exact .inl (by simp [httpdCloseConn, Work.resetUpload, httpdResetUploadState])
  | gives now t total =>
    exact .inl (by simp [httpdCloseConn, Work.takeOver, Work.resetUpload, httpdResetUploadState])
  | uploads e t total boundary w₁ r new idle booked o | continues e t w₁ r up booked o =>
    exact .inl (out o booked.hist)
  | reads => exact .inl rfl
  | sendsMore e => exact .inl (Unsent.headerSent (w.touch e.now)).closed
  | asks now | waits now => exact .inl (Unsent.headerSent (w.touch now)).closed
  | closes now sent last =>
    have header := Unsent.headerSent (w.touch now)
    have arm := Unsent.armUpgrade (headerSent (w.touch now))
    refine .inr ⟨rfl, ⟨now, sent, last⟩, ?_⟩
    simp only [sentClose, httpdCloseConn, stateReset_kept, Work.logClosed, arm.closed, arm.pcb, arm.trail, header.closed,
      header.pcb, header.trail]
    rfl
  | fins e => exact .inl (by simp [httpdFin, httpdCloseConn, (Unsent.armUpgrade w).closed])
  | drops now => exact .inl (by simp [httpdCloseConn, dropConn_kept])

lemma commit_conns {h : Addr} {c : Conn} {w : Work} {f : Fate} (live : s.conns h = some c)
    (here : w.h = h) (a : Addr) (c' : Conn) (live' : (s.commit (w, f)).conns a = some c') :
    (a = h ∧ c' = w.hs) ∨ (a ≠ h ∧ s.conns a = some c') := by
  subst here
  simp only [Server.commit, Function.update_apply] at live'
  split_ifs at live' with eq freed
  · exact .inl ⟨eq, (Option.some.inj live').symm⟩
  · exact .inr ⟨eq, live'⟩

lemma asks_of_cause {h : Addr} {c : Conn} {req : Route} (live : s.conns h = some c)
    (new : c.state = .none) (why : k = ⟨false, none⟩ ∨ ∃ e seg, ev = .recv h e seg ∧
      k = ⟨!e.dataOk, some (route seg.data)⟩) (asked : k.route = some req) : s.asks ev = some req := by
  obtain rfl | ⟨e, seg, rfl, rfl⟩ := why
  · cases asked
  · cases asked
    simp [Server.asks, live, new, Option.filter]

lemma NetEffect.plain (eff : NetEffect b s ev s') (pl : Plain s) (no : s.asks ev ≠ some .upload) :
    Plain s' := by
  cases eff with
  | stays => exact pl
  | accepts a now free =>
    have num := pl.numbered.accept a now
    refine ⟨fun x c live => ?_, pl.done, pl.ready, pl.frames, num.known, num.unique⟩
    obtain ⟨-, new⟩ | ⟨-, old⟩ := update_conns live
    · cases new
      rintro ⟨⟩
    · exact pl.state x c old
  | calls h c k w f live eff keeps why =>
    have asked (new : c.state = .none) (asked : k.route = some .upload) : False :=
      no (asks_of_cause live new why asked)
    obtain ⟨state, done, ready⟩ := eff.plain (pl.state h c live) pl.done asked
    refine pl.of_conns (fun a c' live' => ?_) done (ready.trans pl.ready) rfl ?_
    · obtain ⟨rfl, rfl⟩ | ⟨-, old⟩ := commit_conns live keeps.h a c' live'
      · exact ⟨c, live, keeps.id, .inr state⟩
      · exact ⟨c', old, rfl, .inl rfl⟩
    cases f with
    | keep | freed => exact pl.frames
    | call f =>
      obtain ⟨-, -, -, -, -, total, call, rfl⟩ := eff.call rfl
      exact pl.frames

lemma StackMove.ofUpgrade {st st' : List Frame} (move : StackMove st st')
    (frames : st.any Frame.ofUpgrade = false) : st'.any Frame.ofUpgrade = false := by
  cases move with
  | same => exact frames
  | polled f rest phase => cases f <;> exact frames
  | popped rest => exact frames

lemma chunkReadDone_later (b : Board) (now : UInt32) (owner : Option Nat) (r : FlashResult)
    (s : Server) : Later s (chunkReadDone b now owner r s) := by
  refine ⟨fun a c' live => ?_, ?_, ?_⟩
  · obtain ⟨c, old, state, pcb⟩ := chunkReadDone_conns a c' live
    exact ⟨c, old, by rw [pcb], .inl state⟩
  · unfold chunkReadDone
    dsimp only
    split_ifs
    · exact Server.withOwner_cases (P := fun s' => s'.nextId = s.nextId) (fun _ => rfl)
        (fun _ _ _ => rfl) fun _ _ _ _ => rfl
    · rfl
  · unfold chunkReadDone
    dsimp only
    split_ifs
    · exact Server.withOwner_cases (P := fun s' => s'.hist.closed = s.hist.closed) (fun _ => rfl)
        (fun _ _ _ => rfl) fun a c _ _ => congrArg History.closed (@stateReset_kept now _).2.2.1
    · rfl

lemma chunkWaitDone_later (e : Env) (s : Server) : Later s (chunkWaitDone e s) := by
  refine Server.withOwner_cases (fun _ => .of_eq rfl rfl rfl) (fun _ _ _ => .of_eq rfl rfl rfl)
    fun a c owner live => ⟨fun a' c' live' => ?_, rfl, rfl⟩
  obtain ⟨rfl, rfl⟩ | ⟨-, old⟩ := commit_conns live rfl a' c' live'
  · exact ⟨c, live, sendLoop_id .., .inl (sendLoop_state ..)⟩
  · exact ⟨c', old, rfl, .inl rfl⟩

lemma backupReadDone_hist (b : Board) (e : Env) (total : Nat) (call : FlashCall) (r : FlashResult)
    (w : Work) : (backupReadDone b e total call r w).g.hist = w.g.hist := by
  unfold backupReadDone
  dsimp only
  split <;> rfl

lemma frames_cons {st rest : List Frame} {f : Frame} (frames : st.any Frame.ofUpgrade = false) (top : st = f :: rest) :
    f.ofUpgrade = false ∧ rest.any Frame.ofUpgrade = false :=
  Bool.or_eq_false_iff.mp (List.any_cons.symm.trans (top ▸ frames))

lemma LoopEffect.later (eff : LoopEffect b s ev s') (frames : s.stack.any Frame.ofUpgrade = false) :
    Later s s' := by
  cases eff with
  | backupReturns e r h total call p st c is top live =>
    have keeps : Keeps (s.work h c) (backupReadDone b e total call r (s.work h c)) :=
      .backupReadDone total call r
    refine ⟨fun a c' live' => ?_, rfl, congrArg History.closed (backupReadDone_hist ..)⟩
    have live₀ : ({ s with stack := st } : Server).conns h = some c := live
    obtain ⟨rfl, rfl⟩ | ⟨-, old⟩ := commit_conns live₀ keeps.h a c' live'
    · exact ⟨c, live, keeps.id, .inr (by simp [backupReadDone_state])⟩
    · exact ⟨c', old, rfl, .inl rfl⟩
  | chunkReturns e r call p owner st is top =>
    have later := chunkReadDone_later b e.now owner r { s with stack := st }
    exact ⟨later.conns, later.next, later.closed⟩
  | handsOver e owner st top =>
    have later := chunkWaitDone_later e { s with stack := st }
    exact ⟨later.conns, later.next, later.closed⟩
  | enters st top | upgraded ok st top | reboots st top => cases (frames_cons frames top).1
  | stops => exact ⟨fun _ _ live => (by cases live), rfl, rfl⟩
  | _ => exact .of_eq rfl rfl rfl

lemma LoopEffect.plain (eff : LoopEffect b s ev s') (pl : Plain s) : Plain s' := by
  have later := eff.later pl.frames
  have rest {f : Frame} {rest : List Frame} (top : s.stack = f :: rest) := frames_cons pl.frames top
  suffices new : s'.upload.done = false ∧ s'.readyForUpgrade = false ∧ s'.stack.any Frame.ofUpgrade = false from
    pl.of_conns later.conns new.1 new.2.1 later.next new.2.2
  cases eff with
  | stays => exact ⟨pl.done, pl.ready, pl.frames⟩
  | polls st dev move => exact ⟨pl.done, pl.ready, move.ofUpgrade pl.frames⟩
  | waited f st top => exact ⟨pl.done, pl.ready, (rest top).2⟩
  | readies st move ne ready => cases pl.ready.symm.trans ready
  | commands st dev move | fetches st dev move => exact ⟨pl.done, pl.ready, move.ofUpgrade pl.frames⟩
  | dangles h total call p st top => exact ⟨pl.done, pl.ready, (rest top).2⟩
  | backupReturns e r h total call p st c is top live =>
    have arming := backupReadDone_arming b e total call r (s.work h c) []
    exact ⟨(congrArg Arming.done arming :).trans pl.done, (congrArg Arming.ready arming :).trans pl.ready, (rest top).2⟩
  | chunkReturns e r call p owner st is top =>
    have arming := chunkReadDone_arming b e.now owner r { s with stack := st } []
    refine ⟨(congrArg Arming.done arming :).trans pl.done, (congrArg Arming.ready arming :).trans pl.ready, ?_⟩
    obtain stack | stack := chunkReadDone_stack b e.now owner r { s with stack := st }
    · exact stack ▸ (rest top).2
    · exact stack ▸ (rest top).2
  | handsOver e owner st top =>
    exact Server.withOwner_cases (P := fun s' => s'.upload.done = false ∧ s'.readyForUpgrade = false ∧
      s'.stack.any Frame.ofUpgrade = false) (fun _ => ⟨pl.done, pl.ready, (rest top).2⟩)
      (fun _ _ _ => ⟨pl.done, pl.ready, (rest top).2⟩) fun _ _ _ _ => ⟨pl.done, pl.ready, (rest top).2⟩
  | upgradeWaits st top | enters st top | upgraded ok st top | reboots st top => cases (rest top).1
  | stops => exact ⟨rfl, rfl, pl.frames⟩
  | starts => exact ⟨pl.done, pl.ready, pl.frames⟩

lemma step_plain (pl : Plain s) (no : s.asks ev ≠ some .upload) : Plain (step b s ev) := by
  unfold step
  split_ifs
  · exact pl
  · exact netStep_effect.plain pl no
  · exact pl
  · exact loopStep_effect.plain pl

end

/-! ## Connections that do not own the globals -/

structure Aside (w : Work) (r : Work × Fate) : Prop where
  backup : r.1.g.backup = w.g.backup
  hsGlobal : r.1.g.hsGlobal = w.g.hsGlobal
  ram : r.1.mem .ram = w.mem .ram
  owns : r.1.hs.ownsGlobal = false
  body : r.1.hs.trail.body = w.hs.trail.body
  fate : ∀ f, r.2 ≠ .call f

section
variable {b : Board} {k : Cause} {w : Work} {r : Work × Fate}

lemma stateReset_other (now : UInt32) (other : w.hs.ownsGlobal = false) : (httpdStateReset now w).g = w.g := by
  simp [httpdStateReset, other]

lemma Aside.closeConn {now : UInt32} {w' : Work} (other : w'.hs.ownsGlobal = false)
    (backup : w'.g.backup = w.g.backup) (hsGlobal : w'.g.hsGlobal = w.g.hsGlobal)
    (ram : w'.mem .ram = w.mem .ram) (body : w'.hs.trail.body = w.hs.trail.body) : Aside w (httpdCloseConn now w') := by
  have same := stateReset_other now other
  exact ⟨(congrArg Globals.backup same :).trans backup, (congrArg Globals.hsGlobal same :).trans hsGlobal, ram, rfl, body,
    by rintro _ ⟨⟩⟩

def BeginsBackup (b : Board) (w : Work) (r : Work × Fate) : Prop :=
  ∃ t total call, call.offset = 0 ∧ 0 < total ∧
    r = ((w.touch t).setBackup { w.g.backup with
        raw := call.raw
        flashType := call.flashType
        totalSize := total
        partName := call.partName },
      .call (.backupRead w.h total call (b.readPhase call)))

lemma Effect.aside (eff : Effect b k w r) (other : w.hs.ownsGlobal = false)
    (apart : w.g.hsGlobal ≠ some w.h) (state : w.hs.state ≠ .uploadRequest)
    (done : w.g.upload.done = false) (no : w.hs.state = .none → k.route ≠ some .upload) :
    Aside w r ∨ w.hs.state = .none ∧ k.route = some .backup ∧ BeginsBackup b w r := by
  have guest (now : UInt32) : (w.touch now).isOwner = false := by
    simp [Work.isOwner, Work.touch, other]
  have idle (now : UInt32) : headerSent (w.touch now) = w.touch now := headerSent_other (guest now)
  have follower (now : UInt32) : (headerSent (w.touch now)).isOwner = false := by
    rw [idle]
    exact guest now
  cases eff with
  | sends e now =>
    exact .inl ⟨rfl, rfl, rfl, by simpa [Work.touch] using other, by simp [Work.touch], by rintro _ ⟨⟩⟩
  | answers e now a new sound =>
    have ram : a.stored w.mem .ram = w.mem .ram :=
      Answer.stored_other (fun t eq => sound.store .ram t eq rfl) w.mem
    unfold Work.apply
    dsimp only
    split
    · exact .inl ⟨rfl, rfl, ram, by simpa [Work.touch] using other,
        by simp [httpdSendStatic, Work.touch], by rintro _ ⟨⟩⟩
    · exact .inl ⟨rfl, rfl, ram, other, rfl, by rintro _ ⟨⟩⟩
  | aborts now t why => exact .inl (.closeConn other rfl rfl rfl rfl)
  | refuses now t new idle asked | gives now t total new idle asked
  | uploads e t total boundary w₁ r new idle booked out asked => exact absurd asked (no new)
  | continues e t w₁ r up => exact absurd up state
  | reads t total call new idle asked zero pos => exact .inr ⟨new, asked, t, total, call, zero, pos, rfl⟩
  | sendsMore e more =>
    rw [idle]
    exact .inl ⟨rfl, rfl, rfl, by simpa [Work.touch] using other, by simp [Work.touch], by rintro _ ⟨⟩⟩
  | asks now sent owner | waits now sent owner => cases (follower now).symm.trans owner
  | closes now =>
    rw [idle, sentClose, armUpgrade_idle (w := w.touch now) done]
    exact .inl (.closeConn other rfl rfl rfl rfl)
  | fins e =>
    rw [httpdFin, armUpgrade_idle done]
    exact .inl (.closeConn other rfl rfl rfl rfl)
  | drops now =>
    obtain ⟨-, backup, -, owner⟩ := dropConn_kept (w := w)
    rw [if_neg apart] at owner
    exact .inl (.closeConn other backup owner rfl rfl)

end

end ResQBoot.Failsafe
