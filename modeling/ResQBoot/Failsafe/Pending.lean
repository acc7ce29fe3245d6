import ResQBoot.Failsafe.Lifecycle

/-!
# The pending image

Between the end of an upload and the call of `do_http_upgrade` the image is frozen (`Frozen`), and it is not forgotten
(`Settling`): it is armed, being flashed, or some event of its connection will arm or discard it.
-/

namespace ResQBoot.Failsafe

variable {r : Work × Fate} {w : Work} {k : Cause}

/-! ## Frozen -/

structure Frozen (b : Board) (s s' : Server) : Prop where
  size : s'.netBootFileSize = s.netBootFileSize
  target : s'.target = s.target
  image : (s'.mem .ram).read b.uploadAddr s.netBootFileSize =
    (s.mem .ram).read b.uploadAddr s.netBootFileSize

lemma Frozen.trans {b : Board} {s s' s'' : Server} (f : Frozen b s s') (f' : Frozen b s' s'') : Frozen b s s'' where
  size := f'.size.trans f.size
  target := f'.target.trans f.target
  image := (f.size ▸ f'.image).trans f.image

def Waits (b : Board) (s : Server) (ev : Event) : Prop :=
  (step b s ev).hist.entered = s.hist.entered ∧ (step b s ev).hist.discarded = s.hist.discarded ∧
    s.hist.completed <+: (step b s ev).hist.completed

instance (b : Board) (s : Server) (ev : Event) : Decidable (Waits b s ev) :=
  inferInstanceAs (Decidable (_ ∧ _))

section
variable {b : Board} {s s' : Server} {ev : Event} {a a' : Arming} {h : Addr}

lemma Turn.pends (turn : Turn h a a') (was : a.pending = false) (now : a'.pending = true) : a'.waiting = true := by
  cases turn with
  | completes => rfl
  | discards => cases now
  | _ => cases was.symm.trans now

lemma LoopTurn.pends (turn : LoopTurn a a') (now : a'.pending = true) : a.pending = true := by
  cases turn with
  | ends | reboots => cases now
  | _ => exact now

lemma Turn.frozen (turn : Turn h a a') (single : a.Single) (fresh : a.phase.fresh)
    (discarded : a'.discarded = a.discarded) :
    a'.phase.fresh ∧ a'.size = a.size ∧ a'.target = a.target := by
  have pending : a.pending = true := by
    refine single.pending fun idle => ?_
    simp [idle, Phase.fresh] at fresh
  cases turn with
  | stays => exact ⟨fresh, rfl, rfl⟩
  | receives failed target idle | completes c target idle type | fails size target idle =>
    cases idle.symm.trans pending
  | arms done whose =>
    refine ⟨?_, rfl, rfl⟩
    cases failed : a.failed with
    | true =>
      have same : Arming.phase { a with
          done := false, failed := false, uploadHs := none, ready := a.ready || !true } = a.phase := by
        simp [Arming.phase, Arming.waiting, failed]
      rw [same]
      exact fresh
    | false => exact .inr (.inl (Arming.phase_armed rfl (by simp)))
  | discards whose => simp at discarded

lemma LoopTurn.frozen (turn : LoopTurn a a') (single : a.Single) (fresh : a.phase.fresh)
    (entered : a'.entered = a.entered) (completed : a.completed <+: a'.completed) :
    a'.phase.fresh ∧ a'.size = a.size ∧ a'.target = a.target := by
  cases turn with
  | stays => exact ⟨fresh, rfl, rfl⟩
  | starts ready =>
    obtain ⟨waiting, frames⟩ := single.alone.2.1 ready
    exact ⟨.inr (.inr (Arming.phase_starting waiting rfl rfl)), rfl, rfl⟩
  | waits rest top =>
    obtain ⟨waiting, ready, rfl⟩ := single.alone.2.2 _ _ top
    exact ⟨.inr (.inr (Arming.phase_starting waiting ready rfl)), rfl, rfl⟩
  | enters rest top => simp at entered
  | ends rest top =>
    obtain ⟨waiting, ready, rfl⟩ := single.alone.2.2 _ _ top
    simp [Arming.phase_flashing waiting ready top, Phase.fresh] at fresh
  | reboots =>
    obtain ⟨c, last, -⟩ := single.recorded fresh
    have nil : a.completed = [] := List.prefix_nil.mp completed
    simp [nil] at last

lemma Effect.ram (eff : Effect b k w r)
    (up : w.hs.state = .uploadRequest → InProgress w) (pending : w.g.uploadPending = true) :
    r.1.mem .ram = w.mem .ram := by
  have busy {p : Prop} (idle : w.busy = false) : p :=
    by cases (Bool.or_eq_false_iff.mp idle).1.symm.trans pending
  cases eff with
  | sends => rfl
  | answers e now a new sound =>
    rw [apply_mem]
    exact Answer.stored_other (fun t eq => sound.store .ram t eq rfl) w.mem
  | aborts => rfl
  | refuses now t new idle | gives now t total new idle | uploads e t total boundary w₁ r new idle booked out =>
    exact busy idle
  | continues e t w₁ r state => cases (up state).pending.symm.trans pending
  | reads t total call new idle => exact busy idle
  | sendsMore e more => exact congrFun (Unsent.headerSent (w.touch e.now)).mem .ram
  | asks now | waits now => exact congrFun (Unsent.headerSent (w.touch now)).mem .ram
  | closes now => exact congrFun ((Unsent.armUpgrade _).mem.trans (Unsent.headerSent (w.touch now)).mem) .ram
  | fins e => exact congrFun (Unsent.armUpgrade w).mem .ram
  | drops => rfl

/-- A turn of the main loop leaves a pending image alone, and the connections as long as it is pending. -/
lemma LoopEffect.image (eff : LoopEffect b s ev s') (ord : Orderly s) (was : s.uploadPending = true) :
    s' = boot ∨ s'.mem .ram = s.mem .ram ∧ (s'.uploadPending = true → s'.conns = s.conns) := by
  have free := ord.exclusive.free was
  cases eff with
  | backupReturns e r h total call p st c is top live =>
    have idle := ord.exclusive.reading (by simp [top, Frame.isBackupRead])
    cases idle.symm.trans was
  | chunkReturns e r call p owner st is top =>
    obtain ⟨a, c, owned, -⟩ := ord.own.chunked (ord.calm.chunk (by simp [top, Frame.isChunkRead]))
    cases owned.symm.trans free
  | handsOver e owner st top =>
    refine .inr (Server.withOwner_cases (P := fun s' => s'.mem .ram = s.mem .ram ∧ (_ → s'.conns = s.conns))
      (fun _ => ⟨rfl, fun _ => rfl⟩) (fun _ _ _ => ⟨rfl, fun _ => rfl⟩) fun a c owned _ => ?_)
    cases owned.symm.trans free
  | upgraded ok st top => cases ok <;> exact .inr ⟨rfl, fun _ => rfl⟩
  | reboots => exact .inl rfl
  | stops => exact .inr ⟨rfl, by rintro ⟨⟩⟩
  | _ => exact .inr ⟨rfl, fun _ => rfl⟩

lemma step_ram (b : Board) (ev : Event) (ord : Orderly s) (pending : s.uploadPending = true) :
    (step b s ev).mem .ram = s.mem .ram ∨ step b s ev = boot := by
  have net (s' : Server) (eff : NetEffect b s ev s') : s'.mem .ram = s.mem .ram := by
    cases eff with
    | stays | accepts => rfl
    | calls h c k w f live eff keeps why =>
      exact eff.ram (ord.exclusive.uploading h c live) pending
  unfold step
  split_ifs
  · exact .inl rfl
  · exact .inl (net _ netStep_effect)
  · exact .inl rfl
  · exact (loopStep_effect.image ord pending).symm.imp_left And.left

lemma step_frozen (ord : Orderly s) (single : s.arming.Single) (fresh : s.arming.phase.fresh)
    (srv : Serving s ev) (waits : Waits b s ev) :
    (step b s ev).arming.phase.fresh ∧ Frozen b s (step b s ev) := by
  have ne : ev ≠ .stop := by
    rintro rfl
    cases srv.2
  have pending : s.uploadPending = true := by
    refine single.pending fun idle => ?_
    simp [idle, Phase.fresh] at fresh
  have kept : (step b s ev).arming.phase.fresh ∧ (step b s ev).arming.size = s.arming.size ∧
      (step b s ev).arming.target = s.arming.target := by
    obtain ⟨h, turn⟩ | turn := (step_exclusive ord.own ord.calm ord.exclusive srv.1).2 ne
    · exact turn.frozen single fresh waits.2.1
    · exact turn.frozen single fresh waits.1 waits.2.2
  refine ⟨kept.1, kept.2.1, kept.2.2, ?_⟩
  obtain same | reset := step_ram b ev ord pending
  · rw [same]
  obtain ⟨c, last, -⟩ := single.recorded fresh
  have kept := waits.2.2
  rw [reset] at kept
  have nil : s.hist.completed = [] := List.prefix_nil.mp kept
  simp [Server.arming, Globals.arming, nil] at last

end

/-- **A pending image is frozen.** From the moment an upload completes until `do_http_upgrade` is called
or the upload is discarded, the uploaded bytes, their size and the target stay as they are, whatever
happens on the connections, provided that nothing happens inside a flash read. -/
theorem image_frozen (b : Board) (s₀ s : Server) (ev : Event) (rch : Reach (step b) Serving boot s₀)
    (srv : Serving s₀ ev) (was : s₀.uploadPending = false) (completes : (step b s₀ ev).uploadPending = true)
    (run : Reach (step b) (fun s ev => Serving s ev ∧ Waits b s ev) (step b s₀ ev) s) :
    Frozen b (step b s₀ ev) s := by
  obtain ⟨⟨ord₀, single₀⟩, -⟩ := life_reach rch
  obtain ⟨⟨ord₁, single₁⟩, -⟩ := life_reach (rch.tail srv)
  have ne : ev ≠ .stop := by
    rintro rfl
    cases srv.2
  have fresh₁ : (step b s₀ ev).arming.phase.fresh := by
    obtain ⟨h, turn⟩ | turn := (step_exclusive ord₀.own ord₀.calm ord₀.exclusive srv.1).2 ne
    · exact .inl (Arming.phase_answered (turn.pends was completes))
    · cases was.symm.trans (turn.pends completes)
  -- the invariant of the run: the image is still fresh, and as it was
  have inv : (Orderly s ∧ s.arming.Single ∧ s.arming.phase.fresh) ∧ Frozen b (step b s₀ ev) s := by
    refine run.invariant (I := fun s => (Orderly s ∧ s.arming.Single ∧ s.arming.phase.fresh) ∧
      Frozen b (step b s₀ ev) s) ⟨⟨ord₁, single₁, fresh₁⟩, rfl, rfl, rfl⟩ ?_
    rintro s ev ⟨⟨ord, single, fresh⟩, frozen⟩ ⟨srv, waits⟩
    obtain ⟨fresh', same⟩ := step_frozen ord single fresh srv waits
    refine ⟨⟨step_orderly ord srv.1, (step_life ord single srv).1, fresh'⟩, ?_⟩
    exact frozen.trans same
  exact inv.2

def uploading : List Event :=
  [.accept 0 (some 1), .recv 1 { now := 0 } sampleFirst, .accept 0 (some 2)]

def meanwhile : List Event :=
  [.recv 2 { now := 0 } sampleBackup, .mainPoll, .fin 2 { now := 0 }, .fin 1 { now := 0 }, .mainPoll]

theorem image_frozen_meanwhile :
    Along (step sampleBoard) (fun s ev => Serving s ev ∧ Waits sampleBoard s ev)
      (step sampleBoard (runAll (step sampleBoard) boot uploading)
        (.recv 1 { now := 0 } sampleSecond)) meanwhile ∧
    Frozen sampleBoard
      (step sampleBoard (runAll (step sampleBoard) boot uploading)
        (.recv 1 { now := 0 } sampleSecond))
      (runAll (step sampleBoard)
        (step sampleBoard (runAll (step sampleBoard) boot uploading)
          (.recv 1 { now := 0 } sampleSecond)) meanwhile) := by
  have before : Along (step sampleBoard) Serving boot uploading := by decide +kernel
  have after : Along (step sampleBoard) (fun s ev => Serving s ev ∧ Waits sampleBoard s ev)
      (step sampleBoard (runAll (step sampleBoard) boot uploading)
        (.recv 1 { now := 0 } sampleSecond)) meanwhile := by decide +kernel
  exact ⟨after, image_frozen sampleBoard (runAll (step sampleBoard) boot uploading) _
    (.recv 1 { now := 0 } sampleSecond) (before.reach .refl) (by decide +kernel) (by decide +kernel)
    (by decide +kernel) (after.reach .refl)⟩

def overtaking : List Event :=
  [.accept 0 (some 1), .recv 1 { now := 0 } sampleBackup, .mainPoll, .accept 0 (some 2),
    .recv 2 { now := 0 } sampleFirst]

/-- An upload completes inside the flash read of a backup, and the read overwrites the image. -/
theorem image_overwritten :
    (runAll (step sampleBoard) boot overtaking).uploadPending = false ∧
    (step sampleBoard (runAll (step sampleBoard) boot overtaking)
      (.recv 2 { now := 0 } sampleSecond)).uploadPending = true ∧
    Waits sampleBoard
      (step sampleBoard (runAll (step sampleBoard) boot overtaking)
        (.recv 2 { now := 0 } sampleSecond))
      (.readReturns { now := 0 } ⟨[9], some 1, []⟩) ∧
    ¬ Frozen sampleBoard
      (step sampleBoard (runAll (step sampleBoard) boot overtaking)
        (.recv 2 { now := 0 } sampleSecond))
      (step sampleBoard
        (step sampleBoard (runAll (step sampleBoard) boot overtaking)
          (.recv 2 { now := 0 } sampleSecond))
        (.readReturns { now := 0 } ⟨[9], some 1, []⟩)) := by
  refine ⟨by decide +kernel, by decide +kernel, by decide +kernel, fun frozen => ?_⟩
  exact absurd frozen.image (by decide +kernel)

/-! ## Not forgotten -/

def Server.hears (s : Server) : Event → Bool
  | .recv h e _ => e.dataOk || s.uploadHs ≠ some h
  | _ => true

def Attentive (s : Server) (ev : Event) : Prop := Undisturbed s ev ∧ s.hears ev = true

instance (s : Server) (ev : Event) : Decidable (Attentive s ev) :=
  inferInstanceAs (Decidable (_ ∧ _))

structure Answering (s : Server) (a : Addr) (c : Conn) : Prop where
  live : s.conns a = some c
  state : c.state = .fileRequest
  owns : c.ownsGlobal = false

def Settling (s : Server) : Prop :=
  s.uploadPending = true → s.arming.ready = true ∨ s.arming.frames ≠ [] ∨
    (s.arming.waiting = true ∧ ∃ a c, s.uploadHs = some a ∧ Answering s a c)

section
variable {b : Board} {s s' : Server} {ev : Event} {a a' : Arming} {h : Addr}

lemma Turn.pending (turn : Turn h a a') (pending : a'.pending = true) :
    a' = a ∨ (a.pending = false ∧ a'.waiting = true ∧ a'.uploadHs = some h) ∨
      (a.pending = true ∧ (a.ready = true ∨ a.waiting = true → a'.ready = true) ∧ a'.frames = a.frames) := by
  cases turn with
  | stays => exact .inl rfl
  | receives failed target idle => cases idle.symm.trans pending
  | completes c target idle type => exact .inr (.inl ⟨idle, rfl, rfl⟩)
  | fails size target idle => cases idle.symm.trans pending
  | arms done whose =>
    refine .inr (.inr ⟨pending, fun signs => ?_, rfl⟩)
    simp only [Arming.waiting, Bool.and_eq_true, Bool.or_eq_true] at signs ⊢
    exact signs.imp_right And.right
  | discards whose => cases pending

lemma Effect.answering (eff : Effect b k w r)
    (heard : k.lost = false) (state : w.hs.state = .fileRequest) (owns : w.hs.ownsGlobal = false)
    (done : w.g.upload.done = true) (whose : w.g.uploadHs = some w.h) :
    (r.2 = .keep ∧ r.1.hs.state = .fileRequest ∧ r.1.hs.ownsGlobal = false) ∨ r.1.g.uploadHs = none := by
  have reset (t : UInt32) (w : Work) : (httpdStateReset t w).g.uploadHs = w.g.uploadHs := by
    unfold httpdStateReset
    split <;> rfl
  have header (t : UInt32) : headerSent (w.touch t) = w.touch t :=
    headerSent_other (by simp [Work.isOwner, Work.touch, owns])
  have arm (w' : Work) (g : w'.g = w.g) (h : w'.h = w.h) : (armUpgrade w').g.uploadHs = none := by
    simp [armUpgrade, g, h, done, whose]
  cases eff with
  | sends e t => exact .inl ⟨rfl, (sendData_state ..).trans state, (sendData_owns ..).trans owns⟩
  | answers e t a new => cases state.symm.trans new
  | aborts now t why => cases state.symm.trans (why.resolve_right (by simp [heard]))
  | refuses t t' new | gives t t' total new | uploads e t total boundary w₁ r new => cases state.symm.trans new
  | continues e t w₁ r up => cases state.symm.trans up
  | reads t total call new => cases state.symm.trans new
  | sendsMore e more =>
    rw [header]
    exact .inl ⟨rfl, (sendData_state ..).trans state, (sendData_owns ..).trans owns⟩
  | asks t | waits t =>
    rw [header]
    exact .inl ⟨rfl, state, owns⟩
  | closes t =>
    rw [header]
    exact .inr ((reset t _).trans (arm (w.touch t) rfl rfl))
  | fins e => exact .inr ((reset e.now _).trans (arm w rfl rfl))
  | drops t =>
    refine .inr ((reset t _).trans ?_)
    simp [dropConn, whose, httpdDiscardPendingUpload]

lemma NetEffect.settling (eff : NetEffect b s ev s') (ord : Orderly s) (set : Settling s)
    (hears : s.hears ev = true) : Settling s' := by
  cases eff with
  | stays => exact set
  | accepts a now gone =>
    intro pending
    refine (set pending).imp_right (Or.imp_right ?_)
    rintro ⟨waiting, x, c, whose, ans⟩
    refine ⟨waiting, x, c, whose, ?_, ans.state, ans.owns⟩
    have ne : x ≠ a := by
      rintro rfl
      cases gone.symm.trans ans.live
    exact (Function.update_of_ne ne ..).trans ans.live
  | calls h c k w f live eff keeps why =>
    have here : w.h = h := keeps.h
    have conns : (s.commit (w, f)).conns = Function.update s.conns h (if f = .freed then none else some w.hs) := by
      rw [← here]
      rfl
    have turn := eff.commit_turn (ord.exclusive.uploading h c live)
    intro pending
    obtain same | ⟨idle, waiting, whose⟩ | ⟨was, ready, frames⟩ := turn.pending pending
    · -- the image is left alone: so is the connection that decides about it, or it goes on
      have was : s.uploadPending = true := (congrArg Arming.pending same :).symm.trans pending
      rw [same]
      refine (set was).imp_right (Or.imp_right ?_)
      rintro ⟨waiting, x, d, whose, ans⟩
      have whose' : w.g.uploadHs = some x := (congrArg Arming.uploadHs same :).trans whose
      by_cases eq : x = h
      · subst eq
        cases live.symm.trans ans.live
        have heard : k.lost = false := by
          refine Bool.eq_false_iff.mpr fun lost => ?_
          obtain rfl | ⟨e, seg, rfl, rfl⟩ := why
          · cases lost
          have lacks : e.dataOk = false := by simpa using lost
          simp [Server.hears, lacks, whose] at hears
        have done : s.upload.done = true := (Bool.and_eq_true_iff.mp waiting).1
        obtain ⟨rfl, state, owns⟩ | none := eff.answering heard ans.state ans.owns done whose
        · exact ⟨waiting, x, w.hs, whose', by rw [conns]; simp, state, owns⟩
        · cases none.symm.trans whose'
      · refine ⟨waiting, x, d, whose', ?_, ans.state, ans.owns⟩
        rw [conns, Function.update_of_ne eq]
        exact ans.live
    · obtain ⟨was, -⟩ | ⟨rfl, state, owns, -⟩ :=
        eff.pending (ord.own.conns h c live) (ord.exclusive.uploading h c live) pending
      · cases idle.symm.trans was
      exact .inr (.inr ⟨waiting, h, w.hs, whose, by rw [conns]; simp, state, owns⟩)
    · obtain set | set | ⟨set, -⟩ := set was
      · exact .inl (ready (.inl set))
      · exact .inr (.inl (frames ▸ set))
      · exact .inl (ready (.inr set))

lemma LoopTurn.pending (turn : LoopTurn a a') (pending : a'.pending = true) : a' = a ∨ a'.frames ≠ [] := by
  cases turn with
  | stays => exact .inl rfl
  | ends | reboots => cases pending
  | _ => exact .inr (List.cons_ne_nil _ _)

lemma LoopEffect.settling (eff : LoopEffect b s ev s') (ord : Orderly s) (set : Settling s)
    (turn : LoopTurn s.arming s'.arming) : Settling s' := by
  intro pending
  obtain same | frames := turn.pending pending
  · have was : s.uploadPending = true := (congrArg Arming.pending same :).symm.trans pending
    obtain rfl | ⟨-, conns⟩ := eff.image ord was
    · cases pending
    rw [same]
    refine (set was).imp_right (Or.imp_right ?_)
    rintro ⟨waiting, x, c, whose, ans⟩
    refine ⟨waiting, x, c, (congrArg Arming.uploadHs same :).trans whose, ?_, ans.state, ans.owns⟩
    rw [conns pending]
    exact ans.live
  · exact .inr (.inl frames)

lemma step_settling (ord : Orderly s) (set : Settling s) (att : Attentive s ev) : Settling (step b s ev) := by
  unfold step
  split_ifs
  · exact set
  · exact netStep_effect.settling ord set att.2
  · exact set
  by_cases stop : ev = .stop
  · subst stop
    simp only [loopStep]
    split
    · rintro ⟨⟩
    · exact set
  · have eff : LoopEffect b s ev (loopStep b s ev) := loopStep_effect
    exact eff.settling ord set ((eff.exclusive ord.own ord.calm ord.exclusive).2 stop)

lemma settling_reach (rch : Reach (step b) Attentive boot s) : Orderly s ∧ Settling s :=
  rch.invariant (I := fun s => Orderly s ∧ Settling s) ⟨.boot, fun pending => by cases pending⟩
    fun _ _ inv att => ⟨step_orderly inv.1 att.1, step_settling inv.1 inv.2 att⟩

structure Decides (b : Board) (s : Server) (a : Addr) (c : Conn) : Prop where
  fin : ∀ e, (step b s (.fin a e)).readyForUpgrade = true
  sent : ∀ e, c.upload = 0 → (step b s (.sent a e)).readyForUpgrade = true
  err : ∀ e, (step b s (.err a e)).uploadPending = false
  timeout : ∀ e, 300000 ≤ e.now - c.lastActivity → (step b s (.pollCb a e)).uploadPending = false

lemma Answering.decides {a : Addr} {c : Conn} (ans : Answering s a c) (waiting : s.arming.waiting = true)
    (whose : s.uploadHs = some a) (run : s.crashed = false) (net : s.netEnabled = true) : Decides b s a c := by
  simp only [Arming.waiting, Server.arming, Globals.arming, Bool.and_eq_true, Bool.not_eq_true'] at waiting
  have reset (t : UInt32) (w : Work) : (httpdStateReset t w).g.readyForUpgrade = w.g.readyForUpgrade :=
    stateReset_kept.2.1
  have arm (t : UInt32) : (armUpgrade ((s.work a c).touch t)).g.readyForUpgrade = true := by
    simp [armUpgrade, Server.work, Work.touch, waiting, whose]
  have drop : (dropConn (s.work a c)).g.uploadPending = false := by
    simp [dropConn, Server.work, whose, httpdDiscardPendingUpload]
  have other (t : UInt32) : ((s.work a c).touch t).isOwner = false := by
    simp [Work.isOwner, Work.touch, Server.work, ans.owns]
  have header (t : UInt32) : headerSent ((s.work a c).touch t) = (s.work a c).touch t :=
    headerSent_other (other t)
  have calls (ev : Event) (is : ev.isNet = true) : step b s ev = netStep b s ev :=
    step_net run net is
  refine ⟨fun e => ?_, fun e sent => ?_, fun e => ?_, fun e old => ?_⟩
  · rw [calls _ rfl, netStep, Server.onConn_some ans.live]
    exact (reset e.now _).trans (arm c.lastActivity)
  · have out : ((s.work a c).touch e.now).hs.upload = 0 := sent
    have close : httpdSent e (s.work a c) = sentClose e.now ((s.work a c).touch e.now) := by
      simp only [httpdSent, header, if_pos out, other, Bool.false_and, Bool.false_eq_true, if_false]
    rw [calls _ rfl, netStep, Server.onConn_some ans.live, close]
    exact (reset e.now _).trans (arm e.now)
  · rw [calls _ rfl, netStep, Server.onConn_some ans.live]
    exact (@stateReset_kept e.now _).2.2.2.2.2.trans drop
  · have close : httpdPollCb e (s.work a c) = httpdCloseConn e.now (dropConn (s.work a c)) :=
      if_pos old
    rw [calls _ rfl, netStep, Server.onConn_some ans.live, close]
    exact (@stateReset_kept e.now _).2.2.2.2.2.trans drop

end

/-- **No stuck busy state.** In every attentive run a pending image is armed or being flashed, or its
upload is done and its connection alive; and then, whenever the network runs, the end of that connection
and the last of its answer arm the upgrade, and its failure and its timeout discard the image. -/
theorem pending_settles (b : Board) (s : Server) (rch : Reach (step b) Attentive boot s)
    (pending : s.uploadPending = true) :
    s.readyForUpgrade = true ∨ (∃ f ∈ s.stack, f.isUpgrade = true) ∨
      (s.upload.done = true ∧ ∃ a c, s.uploadHs = some a ∧ s.conns a = some c ∧
        (s.crashed = false → s.netEnabled = true → Decides b s a c)) := by
  obtain ⟨-, set⟩ := settling_reach rch
  obtain ready | frames | ⟨waiting, a, c, whose, ans⟩ := set pending
  · exact .inl ready
  · obtain ⟨f, mem⟩ := List.exists_mem_of_ne_nil _ frames
    exact .inr (.inl ⟨f, List.mem_filter.mp mem⟩)
  · have done : s.upload.done = true := (Bool.and_eq_true_iff.mp waiting).1
    exact .inr (.inr ⟨done, a, c, whose, ans.live, ans.decides waiting whose⟩)

def uploaded : List Event :=
  [.accept 0 (some 1), .recv 1 { now := 0 } sampleFirst, .recv 1 { now := 0 } sampleSecond]

theorem pending_settles_uploaded :
    (runAll (step sampleBoard) boot uploaded).uploadPending = true ∧
    ((runAll (step sampleBoard) boot uploaded).readyForUpgrade = true ∨
      (∃ f ∈ (runAll (step sampleBoard) boot uploaded).stack, f.isUpgrade = true) ∨
      ((runAll (step sampleBoard) boot uploaded).upload.done = true ∧
        ∃ a c, (runAll (step sampleBoard) boot uploaded).uploadHs = some a ∧
          (runAll (step sampleBoard) boot uploaded).conns a = some c ∧
          ((runAll (step sampleBoard) boot uploaded).crashed = false →
            (runAll (step sampleBoard) boot uploaded).netEnabled = true →
            Decides sampleBoard (runAll (step sampleBoard) boot uploaded) a c))) := by
  have run : Along (step sampleBoard) Attentive boot uploaded := by decide +kernel
  have pending : (runAll (step sampleBoard) boot uploaded).uploadPending = true := by
    decide +kernel
  exact ⟨pending, pending_settles sampleBoard _ (run.reach .refl) pending⟩

def forgotten : List Event :=
  uploaded ++ [.recv 1 { now := 0, dataOk := false } sampleSecond]

/-- A segment is lost for want of memory: the image stays pending, neither armed nor being flashed, and
its connection is gone. -/
theorem image_forgotten :
    (runAll (step sampleBoard) boot forgotten).uploadPending = true ∧
    (runAll (step sampleBoard) boot forgotten).readyForUpgrade = false ∧
    (runAll (step sampleBoard) boot forgotten).stack = [] ∧
    (runAll (step sampleBoard) boot forgotten).uploadHs = some 1 ∧
    (runAll (step sampleBoard) boot forgotten).conns 1 = none := by
  decide +kernel

end ResQBoot.Failsafe
