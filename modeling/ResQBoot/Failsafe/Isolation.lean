import ResQBoot.Failsafe.Handover
import ResQBoot.Failsafe.Stream

/-!
# Responses of different connections

`Told` is the invariant of one connection: what TCP has accepted, what its pointer is at, and what the server keeps
for it behind that make up the response that was built for it. Callbacks keep it for their own connection, and for
every other one as long as its bytes stay as they are.
-/

namespace ResQBoot.Failsafe

/-! ## The invariant of one connection -/

def Work.behind (waits : Bool) (w : Work) : Bytes :=
  if w.isOwner && (w.g.backup.sendingHeader || waits) then
    (w.mem .ram).read w.g.backup.dataAddr w.g.backup.dataSize
  else []

structure Told (b : Board) (waits : Bool) (w : Work) : Prop where
  early : w.hs.state ≠ .fileRequest → w.hs.pcb.out = [] ∧ w.hs.trail.built = []
  whole : w.hs.pcb.out ++ w.hs.dataptr.deref w.mem w.hs.upload ++ w.behind waits = w.hs.trail.built
  ram : ∀ a, w.hs.dataptr = .mem .ram a → w.isOwner = true
  busy : w.isOwner = true → w.g.backup.chunkBusy = true →
    w.hs.upload = 0 ∧ w.g.backup.sendingHeader = false
  addr : w.isOwner = true → w.g.backup.sendingHeader = true → w.g.backup.dataAddr = b.uploadAddr
  plain : w.isOwner = true → w.hs.state = .uploadRequest →
    w.g.backup.sendingHeader = false ∧ w.g.backup.chunkBusy = false
  waits : waits = true → w.isOwner = true ∧ w.g.backup.chunkBusy = true ∧ w.g.backup.dataAddr = b.uploadAddr

def Settled (g : Globals) : Prop :=
  g.hsGlobal = none → g.backup.sendingHeader = false ∧ g.backup.chunkBusy = false

section
variable {b : Board} {waits : Bool} {w w' : Work} {e : Env} {now : UInt32}

lemma behind_guest (guest : w.isOwner = false) : w.behind waits = [] := by
  simp [Work.behind, guest]

lemma behind_idle (header : w.g.backup.sendingHeader = false) : w.behind false = [] := by
  simp [Work.behind, header]

lemma deref_zero (p : Ptr) (m : Region → Mem) : p.deref m 0 = [] := by
  cases p <;> simp [Ptr.deref]

lemma Told.of_eq (told : Told b waits w) (hs : w'.hs = w.hs) (owner : w'.isOwner = w.isOwner)
    (backup : w.isOwner = true → w'.g.backup = w.g.backup)
    (ram : w.isOwner = true → w'.mem .ram = w.mem .ram)
    (static : ∀ r a, w.hs.dataptr = .mem r a → r ≠ .ram →
      (w'.mem r).read a w.hs.upload = (w.mem r).read a w.hs.upload) : Told b waits w' := by
  have behind : w'.behind waits = w.behind waits := by
    cases own : w.isOwner with
    | false => rw [behind_guest own, behind_guest (owner.trans own)]
    | true => rw [Work.behind, Work.behind, owner, backup own, ram own]
  have deref : w.hs.dataptr.deref w'.mem w.hs.upload = w.hs.dataptr.deref w.mem w.hs.upload := by
    cases at' : w.hs.dataptr with
    | null | text t off => rfl
    | mem r a =>
      by_cases area : r = .ram
      · subst area
        rw [Ptr.deref, Ptr.deref, ram (told.ram a at')]
      · exact static r a at' area
  refine ⟨?_, ?_, ?_, ?_, ?_, ?_, ?_⟩
  · rw [hs]
    exact told.early
  · rw [hs, behind, deref]
    exact told.whole
  · rw [hs, owner]
    exact told.ram
  · intro own
    rw [owner] at own
    rw [hs, backup own]
    exact told.busy own
  · intro own
    rw [owner] at own
    rw [backup own]
    exact told.addr own
  · intro own
    rw [owner] at own
    rw [hs, backup own]
    exact told.plain own
  · intro waiting
    obtain ⟨own, rest⟩ := told.waits waiting
    rw [owner, backup own]
    exact ⟨own, rest⟩

lemma Told.touch (told : Told b waits w) (now : UInt32) : Told b waits (w.touch now) :=
  ⟨told.early, told.whole, told.ram, told.busy, told.addr, told.plain, told.waits⟩

lemma Told.of_guest (guest : w.isOwner = false) (early : w.hs.state ≠ .fileRequest →
      w.hs.pcb.out = [] ∧ w.hs.trail.built = [])
    (whole : w.hs.pcb.out ++ w.hs.dataptr.deref w.mem w.hs.upload = w.hs.trail.built)
    (ram : ∀ a, w.hs.dataptr ≠ .mem .ram a) : Told b false w := by
  have not {p : Prop} (own : w.isOwner = true) : p := by cases guest.symm.trans own
  refine ⟨early, ?_, fun a at' => absurd at' (ram a), not, not, not, fun h => by cases h⟩
  rw [behind_guest guest, List.append_nil]
  exact whole

lemma sendLoop_ram (m : Region → Mem) (t : List TcpAnswer) (c : Conn) {a : Nat}
    (at' : (sendLoop m t c).dataptr = .mem .ram a) : ∃ a', c.dataptr = .mem .ram a' := by
  refine sendLoop_induction m (P := fun d => ∀ a, d.dataptr = .mem .ram a → ∃ a', c.dataptr = .mem .ram a')
    (fun d n _ _ ih a at' => ?_) t c (fun a at' => ⟨a, at'⟩) a at'
  cases eq : d.dataptr with
  | null | text t off => simp [Conn.accept, eq, Ptr.add] at at'
  | mem r a' =>
    simp only [Conn.accept, eq, Ptr.add, Ptr.mem.injEq] at at'
    obtain ⟨rfl, -⟩ := at'
    exact ih a' eq

lemma sendData_isOwner : (httpdSendData e w).isOwner = w.isOwner := by
  simp only [Work.isOwner, sendData_owns]
  rfl

lemma OwnWork.null (own : OwnWork w) (state : w.hs.state ≠ .fileRequest) : w.hs.dataptr = .null := by
  cases eq : w.hs.state with
  | none => exact (own.fresh eq).2
  | uploadRequest => exact (own.uploading eq).2
  | fileRequest => exact absurd eq state

lemma Told.send (told : Told b waits w) (null : w.hs.state ≠ .fileRequest → w.hs.dataptr = .null) :
    Told b waits (httpdSendData e w) := by
  have behind : (httpdSendData e w).behind waits = w.behind waits := by
    rw [Work.behind, Work.behind, sendData_isOwner]
    rfl
  refine ⟨fun state => ?_, ?_, fun a at' => ?_, ?_, ?_, ?_, ?_⟩
  · rw [sendData_state] at state
    rw [httpdSendData, sendLoop_null _ _ _ (null state)]
    exact told.early state
  · rw [behind, sendData_trail, ← told.whole]
    exact congrArg (· ++ w.behind waits) (sendLoop_stream w.mem e.tcp w.hs)
  · obtain ⟨a', eq⟩ := sendLoop_ram w.mem e.tcp w.hs at'
    rw [sendData_isOwner]
    exact told.ram a' eq
  · rw [sendData_isOwner]
    intro own busy
    obtain ⟨out, header⟩ := told.busy own busy
    rw [httpdSendData, sendLoop_empty _ _ _ out]
    exact ⟨out, header⟩
  · rw [sendData_isOwner]
    exact told.addr
  · rw [sendData_isOwner, sendData_state]
    exact told.plain
  · rw [sendData_isOwner]
    exact told.waits

lemma Told.static (guest : w.hs.ownsGlobal = false) (out : w.hs.pcb.out = []) (p : Ptr) (n : Nat)
    (ram : ∀ a, p ≠ .mem .ram a) : Told b false (httpdSendStatic e p n w) := by
  refine Told.send (.of_guest ?_ ?_ ?_ ram) fun state => absurd rfl state
  · simp [Work.isOwner, guest]
  · exact fun state => absurd rfl state
  · simp [out]

/-! ## The callbacks -/

structure Tells (b : Board) (waits : Bool) (r : Work × Fate) : Prop where
  kept : r.2 ≠ .freed → Told b waits r.1
  settled : Settled r.1.g

lemma Told.keep (told : Told b waits w) (settled : Settled w.g) : Tells b waits (w, .keep) :=
  ⟨fun _ => told, settled⟩

lemma Tells.close (settled : w.hs.ownsGlobal = true ∨ Settled w.g) : Tells b waits (httpdCloseConn now w) := by
  refine ⟨fun h => absurd rfl h, ?_⟩
  rw [Settled, httpdCloseConn, stateReset_owned.1, stateReset_owned.2.2]
  split_ifs with owns
  · exact fun _ => ⟨rfl, rfl⟩
  · exact settled.resolve_left owns

lemma Told.header (told : Told b waits w) : Told b waits (headerSent w) ∧
    ((headerSent w).hs.upload = 0 → (headerSent w).isOwner = true → (headerSent w).g.backup.sendingHeader = false) := by
  unfold headerSent
  split_ifs with go
  · simp only [Bool.and_eq_true, decide_eq_true_eq] at go
    obtain ⟨⟨owner, header⟩, out⟩ := go
    have at' : ramPtr w.g.backup.dataAddr = .mem .ram w.g.backup.dataAddr := by
      rw [told.addr owner header, b.ramPtr_uploadAddr]
    have free : w.g.backup.chunkBusy = false := by
      by_contra busy
      cases (told.busy owner (by simpa using busy)).2.symm.trans header
    have quiet : waits = false := by
      by_contra waiting
      cases (told.waits (by simpa using waiting)).2.1.symm.trans free
    subst quiet
    have whole := told.whole
    rw [out, deref_zero, List.append_nil, Work.behind, owner, header] at whole
    refine ⟨⟨fun state => absurd rfl state, ?_, fun _ _ => owner, fun _ busy => ?_, fun _ h => (by cases h),
      fun _ h => (by cases h), fun h => by cases h⟩, fun _ _ => rfl⟩
    · rw [behind_idle rfl, List.append_nil, at']
      exact whole
    · cases free.symm.trans busy
  · refine ⟨told, fun out owner => ?_⟩
    simpa [owner, out] using go

variable {k : Cause} {r : Work × Fate}

lemma UploadOutcome.tells {ok : Prop} (out : UploadOutcome e ok w' r) (own : Owner w')
    (none : w'.hs.pcb.out = [] ∧ w'.hs.trail.built = [])
    (still : w'.g.backup.sendingHeader = false ∧ w'.g.backup.chunkBusy = false) : Tells b false r := by
  have told : Told b false w' := by
    refine ⟨fun _ => none, ?_, fun a at' => ?_, fun _ busy => ?_, fun _ header => ?_, fun _ _ => still,
      fun h => by cases h⟩
    · rw [behind_idle still.1, none.1, none.2, own.null]
      rfl
    · cases own.null.symm.trans at'
    · cases still.2.symm.trans busy
    · cases still.1.symm.trans header
  have settled : Settled w'.g := fun free => by cases own.hsGlobal.symm.trans free
  cases out with
  | goesOn => exact told.keep settled
  | dropped => exact .close (.inl own.owns)
  | answered =>
    refine Told.keep (Told.static (w := httpdStateReset e.now (httpdUploadComplete w')) rfl none.1 (.text _ 0) _
      (by rintro a ⟨⟩)) fun _ => ?_
    simp [finishUpload, httpdSendText, httpdSendStatic, httpdSendData, stateReset_owned, own.owns]
  | crashed => exact Told.keep (told.of_eq rfl rfl (fun _ => rfl) (fun _ => rfl) (fun _ _ _ _ => rfl)) settled

lemma OwnWork.guest (own : OwnWork w) (new : w.hs.state = .none) : w.isOwner = false := by
  simp [Work.isOwner, (own.fresh new).1]

lemma Told.fresh (guest : w.hs.ownsGlobal = false) (null : w.hs.dataptr = .null)
    (none : w.hs.pcb.out = [] ∧ w.hs.trail.built = []) : Told b false w := by
  refine .of_guest (by simp [Work.isOwner, guest]) (fun _ => none) ?_ fun a at' => ?_
  · rw [none.1, none.2, null]
    rfl
  · cases null.symm.trans at'

lemma Told.apply {a : Answer} {area : Option Region} (own : OwnWork w) (new : w.hs.state = .none) (sound : a.Sound area)
    (none : w.hs.pcb.out = [] ∧ w.hs.trail.built = []) : Told b false (w.apply e a) := by
  obtain ⟨guest, null⟩ := own.fresh new
  unfold Work.apply
  dsimp only
  split
  · rename_i p n reply
    apply Told.static
    · exact guest
    · exact none.1
    rintro addr rfl
    obtain ⟨t, text⟩ | ⟨r, t, at', store⟩ := sound.reply _ _ reply
    · cases text
    · obtain ⟨rfl, -⟩ := Ptr.mem.inj at'
      exact sound.store _ _ store rfl
  · exact .fresh guest null none

lemma Settled.of_eq {g g' : Globals} (settled : Settled g) (hsGlobal : g'.hsGlobal = g.hsGlobal)
    (backup : g'.backup.sendingHeader = g.backup.sendingHeader ∧ g'.backup.chunkBusy = g.backup.chunkBusy) :
    Settled g' := by
  rw [Settled, hsGlobal, backup.1, backup.2]
  exact settled

lemma Settled.header (settled : Settled w.g) (own : OwnWork w) : Settled (headerSent w).g := by
  intro free
  obtain ⟨-, hsGlobal, -, -, backup⟩ := own.header
  rw [hsGlobal] at free
  rw [backup (by rw [free]; simp)]
  exact settled free

lemma Told.out (told : Told b waits w) (sent : w.hs.upload = 0)
    (idle : w.isOwner = true → w.g.backup.sendingHeader = false ∧ w.g.backup.chunkBusy = false) :
    w.hs.pcb.out = w.hs.trail.built := by
  have behind : w.behind waits = [] := by
    cases owner : w.isOwner with
    | false => exact behind_guest owner
    | true =>
      obtain ⟨header, free⟩ := idle owner
      cases waiting : waits with
      | false => exact behind_idle header
      | true => cases (told.waits waiting).2.1.symm.trans free
  have whole := told.whole
  rw [sent, deref_zero, behind, List.append_nil, List.append_nil] at whole
  exact whole

lemma Effect.tells (eff : Effect b k w r) (own : OwnWork w) (told : Told b waits w)
    (settled : Settled w.g) : Tells b waits r := by
  have quiet (new : w.hs.state = .none) : waits = false := by
    by_contra waiting
    cases (own.guest new).symm.trans (told.waits (by simpa using waiting)).1
  have header (now : UInt32) := (told.touch now).header
  have owned (now : UInt32) := (own.touch now).header
  have settle (now : UInt32) : Settled (headerSent (w.touch now)).g := Settled.header settled (own.touch now)
  cases eff with
  | sends e now => exact ((told.touch now).send (own.touch now).null).keep settled
  | answers e now a new sound =>
    obtain rfl := quiet new
    have none := told.early (by rw [new]; decide)
    refine (Told.apply (own.touch now) new sound none).keep (settled.of_eq ?_ ?_)
    all_goals
      unfold Work.apply
      dsimp only
      split <;> trivial
  | aborts now t | refuses now t => exact .close (.inr settled)
  | gives now t total => exact .close (.inl rfl)
  | uploads e t total boundary w₁ r new idle booked out =>
    obtain rfl := quiet new
    have free := own.idle new idle
    have taken : Owner (((w.touch t).resetUpload.takeOver total).setBoundary boundary) :=
      ⟨rfl, rfl, (own.fresh new).2, rfl, own.clear (.inl free)⟩
    have none := told.early (by rw [new]; decide)
    refine out.tells (taken.booked booked) ⟨?_, booked.built.trans none.2⟩ ?_
    · rw [booked.pcb]
      exact none.1
    · rw [booked.backup]
      exact settled free
  | continues e t w₁ r state booked out =>
    have owner := (own.touch t).toOwner state
    have isOwner : w.isOwner = true := by
      simp only [Work.isOwner, Bool.and_eq_true, decide_eq_true_eq]
      exact ⟨owner.owns, owner.hsGlobal⟩
    have still := told.plain isOwner state
    have none := told.early (by rw [state]; decide)
    obtain rfl : waits = false := by
      by_contra waiting
      cases (told.waits (by simpa using waiting)).2.1.symm.trans still.2
    refine out.tells (owner.booked booked) ⟨?_, booked.built.trans none.2⟩ ?_
    · rw [booked.pcb]
      exact none.1
    · rw [booked.backup]
      exact still
  | reads t total call new idle =>
    obtain rfl := quiet new
    obtain ⟨guest, null⟩ := own.fresh new
    exact ⟨fun _ => .fresh guest null (told.early (by rw [new]; decide)), settled⟩
  | sendsMore e more =>
    exact ((header e.now).1.send (owned e.now).1.null).keep (settle e.now)
  | asks now sent owner chunked more free =>
    obtain ⟨told, last⟩ := header now
    have idle : waits = false := by
      by_contra waiting
      cases (told.waits (by simpa using waiting)).2.1.symm.trans free
    subst idle
    refine Told.keep ⟨told.early, told.whole, told.ram, fun _ _ => ⟨sent, last sent owner⟩, told.addr,
      fun _ up => ?_, fun h => by cases h⟩ ?_
    -- a connection that uploads has no backup
    · cases ((owned now).1.clear (.inr up)).2.2.symm.trans chunked
    · intro none
      simp only [Work.isOwner, Bool.and_eq_true, decide_eq_true_eq] at owner
      cases owner.2.symm.trans none
  | waits now sent => exact (header now).1.keep (settle now)
  | closes now =>
    obtain ⟨hsGlobal, backup, -, -⟩ := armUpgrade_own (w := headerSent (w.touch now))
    refine .close (.inr ((settle now).of_eq hsGlobal ?_))
    exact ⟨congrArg Backup.sendingHeader backup, congrArg Backup.chunkBusy backup⟩
  | fins e =>
    obtain ⟨hsGlobal, backup, -, -⟩ := armUpgrade_own (w := w)
    refine .close (.inr (settled.of_eq hsGlobal ?_))
    exact ⟨congrArg Backup.sendingHeader backup, congrArg Backup.chunkBusy backup⟩
  | drops now =>
    obtain ⟨-, backup, -, hsGlobal⟩ := dropConn_kept (w := w)
    refine .close ?_
    by_cases owner : w.g.hsGlobal = some w.h
    · exact .inl (own.owner.mpr owner)
    · rw [if_neg owner] at hsGlobal
      exact .inr (settled.of_eq hsGlobal ⟨congrArg Backup.sendingHeader backup, congrArg Backup.chunkBusy backup⟩)

lemma Told.closing (told : Told b waits w) {now : UInt32} (closing : (headerSent (w.touch now)).Closing) :
    w.hs.pcb.out = w.hs.trail.built := by
  obtain ⟨told, idle⟩ := (told.touch now).header
  have header := Unsent.headerSent (w.touch now)
  have out := told.out closing.1 fun owner => ⟨idle closing.1 owner, (closing.2 owner).1⟩
  rwa [header.pcb, header.trail] at out

lemma UploadOutcome.mem {ok : Prop} (out : UploadOutcome e ok w' r) : r.1.mem = w'.mem := by
  cases out with
  | goesOn | dropped | answered | crashed => rfl

/-- A callback writes to the RAM for the owner of the globals only, and to the static array of its route. -/
lemma Effect.memory (eff : Effect b k w r) (own : OwnWork w) (area : Region) :
    r.1.mem area = w.mem area ∨ area = .ram ∧ (w.g.hsGlobal = none ∨ w.g.hsGlobal = some w.h) ∨
      area ≠ .ram ∧ w.hs.state = .none ∧ k.route.bind Route.buffer = some area := by
  have upload {w₀ w₁ : Work} (booked : Booked w₀ w₁) (same : w₀.mem = w.mem)
      (owner : w.g.hsGlobal = none ∨ w.g.hsGlobal = some w.h) :
      w₁.mem area = w.mem area ∨ area = .ram ∧ (w.g.hsGlobal = none ∨ w.g.hsGlobal = some w.h) := by
    by_cases ram : area = .ram
    · exact .inr ⟨ram, owner⟩
    · exact .inl ((booked.mem area ram).trans (congrFun same area))
  cases eff with
  | answers e now a new sound =>
    rw [apply_mem]
    by_cases other : ∀ t, a.store ≠ some (area, t)
    · exact .inl (Answer.stored_other other w.mem)
    · obtain ⟨t, eq⟩ := not_forall_not.mp other
      exact .inr (.inr ⟨sound.store area t eq, new, sound.area area t eq⟩)
  | uploads e t total boundary w₁ r new idle booked out =>
    rw [out.mem, ← or_assoc]
    exact .inl (upload booked rfl (.inl (own.idle new idle)))
  | continues e t w₁ r state booked out =>
    rw [out.mem, ← or_assoc]
    exact .inl (upload booked rfl (.inr ((own.touch t).toOwner state).hsGlobal))
  | sendsMore e => exact .inl (congrFun (Unsent.headerSent (w.touch e.now)).mem _)
  | asks now | waits now => exact .inl (congrFun (Unsent.headerSent (w.touch now)).mem _)
  | closes now => exact .inl (congrFun ((Unsent.armUpgrade _).mem.trans (Unsent.headerSent (w.touch now)).mem) _)
  | fins e => exact .inl (congrFun (Unsent.armUpgrade w).mem _)
  | drops now =>
    refine .inl (congrFun ?_ area)
    simp only [httpdCloseConn, dropConn]
    split_ifs <;> rfl
  | _ => exact .inl rfl

lemma Told.other {s : Server} {a h : Addr} {c d : Conn} (told : Told b waits (s.work a c))
    (ne : a ≠ h) (res : OwnResult (s.work h d) r)
    (ram : r.1.mem .ram = s.mem .ram ∨ s.hsGlobal = none ∨ s.hsGlobal = some h)
    (static : ∀ r' a', c.dataptr = .mem r' a' → r' ≠ .ram →
      (r.1.mem r').read a' c.upload = (s.mem r').read a' c.upload) :
    Told b waits { r.1 with h := a, hs := c } := by
  have global (owner : (s.work a c).isOwner = true) : s.hsGlobal = some a := by
    simp only [Work.isOwner, Bool.and_eq_true, decide_eq_true_eq] at owner
    exact owner.2
  refine told.of_eq rfl ?_ (fun owner => res.others ?_ ?_) (fun owner => ?_) static
  · exact congrArg (c.ownsGlobal && ·) (decide_eq_decide.mpr (res.shift.other ne))
  · rw [show (s.work h d).g.hsGlobal = _ from global owner]
    simp
  · rw [show (s.work h d).g.hsGlobal = _ from global owner]
    exact fun eq => ne (Option.some.inj eq)
  · obtain same | none | other := ram
    · exact same
    · cases (global owner).symm.trans none
    · exact absurd (Option.some.inj ((global owner).symm.trans other)) ne

end

/-! ## The server -/

def Server.waitsFor (s : Server) (c : Conn) : Bool :=
  s.stack.any fun f => f = .chunkWait (some c.pcb.id)

structure Framed (s : Server) : Prop where
  known : ∀ a c, s.conns a = some c → c.pcb.id < s.nextId
  unique : ∀ a a' c c', s.conns a = some c → s.conns a' = some c' → c.pcb.id = c'.pcb.id → a = a'
  waits : ∀ k, .chunkWait (some k) ∈ s.stack → k < s.nextId
  reads : ∀ call p o, .chunkRead call p o ∈ s.stack → s.backup.chunkBusy = true ∧ o = s.owner.map (·.pcb.id)
  top : ∀ a c, s.conns a = some c → s.waitsFor c = true →
    ∃ rest, s.stack = .chunkWait (some c.pcb.id) :: rest ∧ .chunkWait (some c.pcb.id) ∉ rest

structure Telling (b : Board) (s : Server) : Prop where
  told : ∀ a c, s.conns a = some c → Told b (s.waitsFor c) (s.work a c)
  settled : Settled s.toGlobals
  framed : Framed s
  closed : ∀ x ∈ s.hist.closed, x.1.out = x.2.built

structure Fewer (st st' : List Frame) : Prop where
  waits : ∀ k, .chunkWait (some k) ∈ st' → .chunkWait (some k) ∈ st
  reads : ∀ call p o, .chunkRead call p o ∈ st' → ∃ p', .chunkRead call p' o ∈ st

def Restacks (s s' : Server) : Prop :=
  s'.stack = s.stack ∨ (∀ a c, s.conns a = some c → s.waitsFor c = false) ∧ Fewer s.stack s'.stack

section
variable {b : Board} {s s' : Server} {ev : Event} {st st' : List Frame}

lemma Fewer.refl (st : List Frame) : Fewer st st := ⟨fun _ h => h, fun _ p _ h => ⟨p, h⟩⟩

variable {a : Addr} {c : Conn} {f : Frame}

lemma Fewer.pop (top : st = f :: st') : Fewer st st' := by
  subst top
  exact ⟨fun _ mem => List.mem_cons_of_mem _ mem, fun _ p _ mem => ⟨p, List.mem_cons_of_mem _ mem⟩⟩

lemma Fewer.push (few : Fewer st st') (wait : ∀ o, f ≠ .chunkWait o) (read : f.isChunkRead = false) :
    Fewer st (f :: st') := by
  refine ⟨fun k mem => few.waits k ?_, fun call p o mem => few.reads call p o ?_⟩
  · exact (List.mem_cons.mp mem).resolve_left fun eq => wait _ eq.symm
  · refine (List.mem_cons.mp mem).resolve_left ?_
    rintro rfl
    cases read

lemma Fewer.move (move : StackMove st st') : Fewer st st' := by
  cases move with
  | same => exact .refl st
  | polled f rest phase =>
    cases f with
    | backupRead h t c p => exact .push (.pop rfl) (by rintro o ⟨⟩) rfl
    | chunkRead c p o =>
      refine ⟨fun k mem => ?_, fun call p' o' mem => ?_⟩
      · exact List.mem_cons_of_mem _ ((List.mem_cons.mp mem).resolve_left (by rintro ⟨⟩))
      · obtain here | mem := List.mem_cons.mp mem
        · obtain ⟨rfl, -, rfl⟩ := Frame.chunkRead.inj here
          exact ⟨p, List.mem_cons_self⟩
        · exact ⟨p', List.mem_cons_of_mem _ mem⟩
    | _ => cases phase
  | popped rest => exact .pop rfl

lemma StackMove.noWait (move : StackMove st st') (o : Option Nat) (rest : List Frame) : st ≠ .chunkWait o :: rest := by
  rintro rfl
  cases move with
  | same _ within => cases within
  | polled _ _ phase => cases phase

lemma waitsFor_iff : s.waitsFor c = true ↔ .chunkWait (some c.pcb.id) ∈ s.stack := by
  simp [Server.waitsFor]

lemma waitsFor_false (not : .chunkWait (some c.pcb.id) ∉ s.stack) : s.waitsFor c = false :=
  Bool.eq_false_iff.mpr fun waiting => not (waitsFor_iff.mp waiting)

lemma Restacks.waitsFor (re : Restacks s s') {c' : Conn} (live : s.conns a = some c)
    (id : c'.pcb.id = c.pcb.id) : s'.waitsFor c' = s.waitsFor c := by
  obtain same | ⟨quiet, few⟩ := re
  · rw [Server.waitsFor, Server.waitsFor, same, id]
  rw [quiet a c live]
  by_contra waiting
  have mem := few.waits _ (waitsFor_iff.mp (by simpa using waiting))
  rw [id] at mem
  cases (quiet a c live).symm.trans (waitsFor_iff.mpr mem)

lemma Framed.numbered (fr : Framed s) : Numbered s := ⟨fr.known, fr.unique⟩

lemma Framed.of_fewer (fr : Framed s) (few : Fewer s.stack s'.stack)
    (conns : ∀ a c', s'.conns a = some c' → ∃ c, s.conns a = some c ∧ c'.pcb.id = c.pcb.id)
    (next : s'.nextId = s.nextId) (reads : ∀ call p o, .chunkRead call p o ∈ s.stack →
      s'.backup.chunkBusy = true ∧ o = s'.owner.map (·.pcb.id))
    (top : ∀ a c', s'.conns a = some c' → s'.waitsFor c' = true →
      ∃ rest, s'.stack = .chunkWait (some c'.pcb.id) :: rest ∧ .chunkWait (some c'.pcb.id) ∉ rest) : Framed s' := by
  have num := fr.numbered.of_conns conns next
  refine ⟨num.known, num.unique, fun k mem => ?_, fun call p o mem => ?_, top⟩
  · rw [next]
    exact fr.waits k (few.waits k mem)
  · obtain ⟨p', mem⟩ := few.reads call p o mem
    exact reads call p' o mem

lemma Framed.of_conns (fr : Framed s) (re : Restacks s s')
    (conns : ∀ a c', s'.conns a = some c' → ∃ c, s.conns a = some c ∧ c'.pcb.id = c.pcb.id)
    (next : s'.nextId = s.nextId) (reads : ∀ call p o, .chunkRead call p o ∈ s.stack →
      s'.backup.chunkBusy = true ∧ o = s'.owner.map (·.pcb.id)) : Framed s' := by
  have few : Fewer s.stack s'.stack := by
    obtain same | ⟨-, few⟩ := re
    · exact same ▸ .refl _
    · exact few
  refine fr.of_fewer few conns next reads fun a c' live waiting => ?_
  obtain ⟨c, old, id⟩ := conns a c' live
  rw [re.waitsFor old id] at waiting
  obtain same | ⟨quiet, -⟩ := re
  · rw [same, id]
    exact fr.top a c old waiting
  · cases (quiet a c old).symm.trans waiting

lemma Framed.quiet (fr : Framed s) (noWait : ∀ o rest, s.stack ≠ .chunkWait o :: rest)
    (live : s.conns a = some c) : s.waitsFor c = false := by
  by_contra waiting
  obtain ⟨rest, eq, -⟩ := fr.top a c live (by simpa using waiting)
  exact noWait _ _ eq

lemma Framed.idle (fr : Framed s) (noWait : ∀ o rest, s.stack ≠ .chunkWait o :: rest) (few : Fewer s.stack st)
    (live : s.conns a = some c) : .chunkWait (some c.pcb.id) ∉ st := by
  intro mem
  cases (fr.quiet noWait live).symm.trans (waitsFor_iff.mpr (few.waits _ mem))

lemma Telling.restack (t : Telling b s) (noWait : ∀ o rest, s.stack ≠ .chunkWait o :: rest)
    (few : Fewer s.stack s'.stack) (conns : s'.conns = s.conns) (mem : s'.mem = s.mem)
    (hsGlobal : s'.hsGlobal = s.hsGlobal) (backup : s'.backup = s.backup) (next : s'.nextId = s.nextId)
    (closed : s'.hist.closed = s.hist.closed) : Telling b s' := by
  have re : Restacks s s' := .inr ⟨fun a c live => t.framed.quiet noWait live, few⟩
  refine ⟨fun a c live => ?_, ?_, ?_, ?_⟩
  · rw [conns] at live
    rw [re.waitsFor live rfl]
    refine (t.told a c live).of_eq rfl ?_ (fun _ => backup) (fun _ => congrFun mem _) fun r a _ _ => ?_
    · exact congrArg (fun g => c.ownsGlobal && decide (g = some a)) hsGlobal
    · simp only [Server.work, mem]
  · exact t.settled.of_eq hsGlobal ⟨congrArg Backup.sendingHeader backup, congrArg Backup.chunkBusy backup⟩
  · refine t.framed.of_conns re (fun a c live => ⟨c, conns ▸ live, rfl⟩) next fun call p o mem => ?_
    rw [backup, Server.owner, hsGlobal, conns]
    exact t.framed.reads call p o mem
  · rw [closed]
    exact t.closed

end

/-! ## Steps of the server -/

/-- The static array that the handler of the event builds its response in. -/
def Server.prints (s : Server) : Event → Option Region
  | .readReturns _ _ => if s.stack.head?.any Frame.isBackupRead then some .partJson else none
  | ev => (s.asks ev).bind Route.buffer

/-- No live connection has bytes still to be sent in the array. -/
def Server.Drained (s : Server) (area : Region) : Prop :=
  ∀ a c at', s.conns a = some c → c.dataptr = .mem area at' → c.upload = 0

section
variable {b : Board} {s s' : Server} {ev : Event}

variable {waits : Bool} {c : Conn} {w : Work}

lemma Telling.commit (t : Telling b s) {h : Addr} {f : Fate} (live : s.conns h = some c)
    (res : OwnResult (s.work h c) (w, f)) (tells : Tells b (s.waitsFor c) (w, f))
    (log : w.g.hist.closed = s.hist.closed ∨ w.g.hist.closed = s.hist.closed ++ [(c.pcb, c.trail)] ∧
      c.pcb.out = c.trail.built)
    (ram : w.mem .ram = s.mem .ram ∨ s.hsGlobal = none ∨ s.hsGlobal = some h) (keeps : Keeps (s.work h c) w)
    (re : Restacks s (s.commit (w, f))) (noRead : s.stack.any Frame.isChunkRead = false)
    (static : ∀ area, area ≠ .ram → w.mem area = s.mem area ∨ s.Drained area) : Telling b (s.commit (w, f)) := by
  obtain rfl : w.h = h := keeps.h
  refine ⟨fun a c' live' => ?_, tells.settled, ?_, fun x mem => ?_⟩
  · obtain ⟨rfl, rfl⟩ | ⟨ne, old⟩ := commit_conns live rfl a c' live'
    · rw [re.waitsFor live keeps.id]
      refine tells.kept ?_
      rintro rfl
      rw [commit_conns_freed, Function.update_self] at live'
      cases live'
    · rw [re.waitsFor old rfl]
      refine (t.told a c' old).other ne res ram fun area a' at' ne => ?_
      obtain same | drained := static area ne
      · exact congrArg (fun m : Mem => m.read a' c'.upload) same
      · rw [drained a c' a' old at']
        rfl
  · refine t.framed.of_conns re (fun a c' live' => ?_) rfl fun call p o mem => ?_
    · obtain ⟨rfl, rfl⟩ | ⟨-, old⟩ := commit_conns live rfl a c' live'
      · exact ⟨c, live, keeps.id⟩
      · exact ⟨c', old, rfl⟩
    · exact absurd rfl (List.any_eq_false.mp noRead _ mem)
  · obtain same | ⟨more, eq⟩ := log
    · exact t.closed x (same ▸ mem)
    · obtain mem | here := List.mem_append.mp (more ▸ mem)
      · exact t.closed x mem
      · obtain rfl := List.mem_singleton.mp here
        exact eq

lemma NetEffect.telling (eff : NetEffect b s ev s') (t : Telling b s) (own : Own s)
    (noRead : s.stack.any Frame.isChunkRead = false)
    (drained : ∀ area, (s.asks ev).bind Route.buffer = some area → s.Drained area) : Telling b s' := by
  cases eff with
  | stays => exact t
  | accepts a now free =>
    have num := t.framed.numbered.accept a now
    have idle : s.waitsFor { lastActivity := now, pcb := { id := s.nextId } } = false := by
      by_contra waiting
      exact Nat.lt_irrefl _ (t.framed.waits _ (waitsFor_iff.mp (by simpa using waiting)))
    refine ⟨fun x c live => ?_, t.settled, ⟨num.known, num.unique,
      fun k mem => Nat.lt_succ_of_lt (t.framed.waits k mem), fun call p o mem => ?_, fun x c live waiting => ?_⟩,
      t.closed⟩
    · obtain ⟨-, new⟩ | ⟨-, old⟩ := update_conns live
      · cases new
        have told : Told b false (s.work x { lastActivity := now, pcb := { id := s.nextId } }) :=
          .fresh rfl rfl ⟨rfl, rfl⟩
        exact idle ▸ told
      · exact t.told x c old
    · exact absurd rfl (List.any_eq_false.mp noRead _ mem)
    · obtain ⟨-, new⟩ | ⟨-, old⟩ := update_conns live
      · cases new
        cases idle.symm.trans waiting
      · exact t.framed.top x c old waiting
  | calls h c k w f live eff keeps why =>
    have owned := own.conns h c live
    have re : Restacks s (s.commit (w, f)) := by
      cases f with
      | keep | freed => exact .inl rfl
      | call f =>
        obtain ⟨new, idle, -, -, -, total, call, rfl⟩ := eff.call rfl
        have free : s.hsGlobal = none := owned.idle new idle
        refine .inr ⟨fun a c' live' => ?_, .push (.refl _) (by rintro o ⟨⟩) rfl⟩
        by_contra waiting
        have owner := ((t.told a c' live').waits (by simpa using waiting)).1
        simp [Work.isOwner, Server.work, free] at owner
    refine t.commit live (eff.own owned) (eff.tells owned (t.told h c live) t.settled) ?_ ?_ keeps re noRead
      fun area ne => ?_
    · exact eff.closed.imp_right fun out => ⟨out.2.2, (t.told h c live).closing out.2.1.choose_spec⟩
    · obtain same | ⟨-, owner⟩ | ⟨ne, -⟩ := eff.memory owned .ram
      · exact .inl same
      · exact .inr owner
      · exact absurd rfl ne
    · obtain same | ⟨ram, -⟩ | ⟨-, new, buffer⟩ := eff.memory owned area
      · exact .inl same
      · exact absurd ram ne
      · obtain ⟨req, asked, prints⟩ := Option.bind_eq_some_iff.mp buffer
        refine .inr (drained area ?_)
        rw [asks_of_cause live new why asked]
        exact prints

lemma backupReadDone_mem {e : Env} {total : Nat} {call : FlashCall} {r : FlashResult} {area : Region}
    (ram : area ≠ .ram) (json : area ≠ .partJson) : (backupReadDone b e total call r w).mem area = w.mem area := by
  have kept (t : Bytes) : ((w.stored b r).printPartJson t).mem area = w.mem area := by
    simp only [Work.printPartJson, Work.stored]
    rw [Function.update_of_ne json, Function.update_of_ne ram]
  unfold ResQBoot.Failsafe.backupReadDone
  dsimp only
  split_ifs
  · exact kept _
  · exact kept _

lemma Tells.backupReadDone {e : Env} {total : Nat} {call : FlashCall} {r : FlashResult}
    (guest : w.hs.ownsGlobal = false) (free : w.g.hsGlobal = none)
    (none : w.hs.pcb.out = [] ∧ w.hs.trail.built = []) (settled : Settled w.g) :
    Tells b false (backupReadDone b e total call r w, .keep) := by
  unfold ResQBoot.Failsafe.backupReadDone
  dsimp only
  split_ifs
  · refine Told.keep ?_ settled
    apply Told.static
    · exact guest
    · exact none.1
    · rintro a ⟨⟩
  · generalize min r.count total = size
    obtain ⟨addr, dataSize, busy⟩ := firstChunk_data b total size w.g.backup
    let hdr := backupHeader call (announced b total size)
    let w₁ := ((w.stored b r).printPartJson hdr).takeBackup b total call size
    have owner : (w₁.setBackup { w₁.g.backup with sendingHeader := true }).isOwner = true := by
      simp [w₁, Work.isOwner, Work.setBackup, Work.takeBackup, Work.printPartJson, Work.stored]
    have told : Told b false (w₁.setBackup { w₁.g.backup with sendingHeader := true }) := by
      refine ⟨fun state => absurd rfl state, ?_, fun a at' => (by cases at'), fun _ now => ?_, fun _ _ => addr,
        fun _ up => (by cases up), fun h => by cases h⟩
      · rw [Work.behind, owner]
        have out : w₁.hs.pcb.out = [] := none.1
        have json : (w₁.mem .partJson).read 0 hdr.length = hdr := by
          simp only [w₁, Work.takeBackup, Work.printPartJson, Function.update_self]
          rw [Mem.read_write_take _ _ (by simp), List.take_left]
        have data : (w₁.mem .ram).read w₁.g.backup.dataAddr w₁.g.backup.dataSize =
            (w₁.mem .ram).read b.uploadAddr size := congrArg₂ _ addr dataSize
        have whole : w₁.hs.pcb.out ++ (w₁.mem .partJson).read 0 hdr.length ++
            (w₁.mem .ram).read w₁.g.backup.dataAddr w₁.g.backup.dataSize =
              hdr ++ (w₁.mem .ram).read b.uploadAddr size := by
          rw [out, json, data, List.nil_append]
        exact whole
      · cases ((busy.trans (settled free).2).symm.trans now)
    refine Told.keep (told.send fun state => absurd rfl state) fun now => ?_
    cases now

lemma Told.bystander {a : Addr} (told : Told b waits (s.work a c)) (s' : Server)
    (was : s.hsGlobal ≠ some a) (now : s'.hsGlobal ≠ some a) (mem : ∀ r, r ≠ .ram → s'.mem r = s.mem r) :
    waits = false ∧ Told b false (s'.work a c) := by
  have guest : (s.work a c).isOwner = false := by
    simp [Work.isOwner, Server.work, was]
  have idle : waits = false := by
    by_contra waiting
    cases guest.symm.trans (told.waits (by simpa using waiting)).1
  subst idle
  have not {p : Prop} (owner : (s.work a c).isOwner = true) : p := by cases guest.symm.trans owner
  refine ⟨rfl, told.of_eq rfl (Eq.trans ?_ guest.symm) not not fun r a' _ area => ?_⟩
  · simp [Work.isOwner, Server.work, now]
  · exact congrArg (fun m : Mem => m.read a' c.upload) (mem r area)

lemma Told.busyOwner (told : Told b waits w) (own : OwnWork w)
    (global : w.g.hsGlobal = some w.h) (busy : w.g.backup.chunkBusy = true) :
    w.isOwner = true ∧ w.hs.state = .fileRequest ∧ w.hs.upload = 0 ∧ w.g.backup.sendingHeader = false := by
  have owns := own.owner.mpr global
  have owner : w.isOwner = true := by
    simp [Work.isOwner, owns, global]
  refine ⟨owner, ?_, told.busy owner busy⟩
  cases eq : w.hs.state with
  | none => cases owns.symm.trans (own.fresh eq).1
  | uploadRequest => cases busy.symm.trans (told.plain owner eq).2
  | fileRequest => rfl

lemma Told.chunk {w' : Work} {n : Nat} {chunk : Bytes} (told : Told b false w) (own : OwnWork w)
    (global : w.g.hsGlobal = some w.h) (busy : w.g.backup.chunkBusy = true) (h : w'.h = w.h)
    (hs : w'.hs = { w.hs with trail := { w.hs.trail with built := w.hs.trail.built ++ chunk } })
    (hsGlobal : w'.g.hsGlobal = w.g.hsGlobal) (backup : w'.g.backup = nextChunk b n w.g.backup)
    (ram : (w'.mem .ram).read b.uploadAddr w'.g.backup.dataSize = chunk) : Told b true w' := by
  obtain ⟨owner, state, sent, header⟩ := told.busyOwner own global busy
  have out : w.hs.pcb.out = w.hs.trail.built := by
    have whole := told.whole
    rw [behind_idle header, List.append_nil, sent, deref_zero, List.append_nil] at whole
    exact whole
  have owner' : w'.isOwner = true := by
    rw [Work.isOwner, hs, hsGlobal, h]
    exact owner
  have addr : w'.g.backup.dataAddr = b.uploadAddr := by
    rw [backup]
    rfl
  have busy' : w'.g.backup.chunkBusy = true := by
    rw [backup]
    exact busy
  have header' : w'.g.backup.sendingHeader = false := by
    rw [backup]
    exact header
  have behind : w'.behind true = chunk := by
    rw [Work.behind, owner', addr, Bool.or_true]
    exact ram
  refine ⟨fun other => ?_, ?_, fun _ _ => owner', fun _ _ => ?_, fun _ _ => addr, fun _ up => ?_,
    fun _ => ⟨owner', busy', addr⟩⟩
  · rw [hs] at other
    exact absurd state other
  · rw [behind, hs, ← out]
    simp only [sent, deref_zero, List.append_nil]
  · rw [hs]
    exact ⟨sent, header'⟩
  · rw [hs] at up
    cases state.symm.trans up

section
variable {a : Addr} {c : Conn} {now : UInt32} {r : FlashResult} (t : Telling b s) (global : s.hsGlobal = some a)
  (live : s.conns a = some c) (owned : OwnWork (s.work a c)) (noRead : s.stack.any Frame.isChunkRead = false)
include t global owned noRead

lemma Telling.chunkFailed : Telling b (((s.stored b r).setBackup (endChunks s.backup)).commit
    (httpdCloseConn now (((s.stored b r).setBackup (endChunks s.backup)).work a c))) := by
  let w := httpdStateReset now (((s.stored b r).setBackup (endChunks s.backup)).work a c)
  have free : w.g.hsGlobal = none := by
    simp only [w, stateReset_owned]
    exact if_pos (owned.owner.mpr global)
  have clear : w.g.backup = {} := by
    simp only [w, stateReset_owned]
    exact if_pos (owned.owner.mpr global)
  have gone {x : Addr} {d : Conn} (there : Function.update s.conns a none x = some d) : x ≠ a ∧ s.conns x = some d :=
    (update_conns there).resolve_left fun here => by cases here.2
  refine ⟨fun x d there => ?_, fun _ => ?_, ?_, ?_⟩
  · obtain ⟨ne, old⟩ := gone there
    have was : s.hsGlobal ≠ some x := by
      rw [global]
      exact fun eq => ne (Option.some.inj eq).symm
    obtain ⟨idle, told⟩ := (t.told x d old).bystander (Server.commit _ (w, .freed)) was
      (fun eq => by cases free.symm.trans eq) fun area ne => Function.update_of_ne ne ..
    exact idle.symm ▸ told
  · exact ⟨congrArg Backup.sendingHeader clear, congrArg Backup.chunkBusy clear⟩
  · refine t.framed.of_conns (.inl rfl) (fun x d there => ⟨d, (gone there).2, rfl⟩) rfl fun call p o mem => ?_
    exact absurd rfl (List.any_eq_false.mp noRead _ mem)
  · have same : w.g.hist = s.hist := stateReset_kept.2.2.1
    intro x mem
    exact t.closed x (same ▸ mem)

include live

lemma Telling.chunkRead (busy : s.backup.chunkBusy = true) (quiet : ∀ x d, s.conns x = some d → s.waitsFor d = false) :
    Telling b { (s.stored b r).setBackup (nextChunk b r.count s.backup) with
      stack := .chunkWait (some c.pcb.id) :: s.stack
      conns := extendBuilt s.hsGlobal
        (((s.stored b r).mem .ram).read b.uploadAddr (nextChunk b r.count s.backup).dataSize) s.conns } := by
  generalize chunk_eq : ((s.stored b r).mem .ram).read b.uploadAddr (nextChunk b r.count s.backup).dataSize = chunk
  have grown {x : Addr} {d : Conn} (there : extendBuilt s.hsGlobal chunk s.conns x = some d) :
      (x = a ∧ d = { c with trail := { c.trail with built := c.trail.built ++ chunk } }) ∨
        (x ≠ a ∧ s.conns x = some d) := by
    rw [extendBuilt, global] at there
    split_ifs at there with here
    · cases here
      rw [live] at there
      exact .inl ⟨rfl, (Option.some.inj there).symm⟩
    · exact .inr ⟨fun eq => here (congrArg some eq.symm), there⟩
  have alone {x : Addr} {d : Conn} (ne : x ≠ a) (old : s.conns x = some d) :
      .chunkWait (some d.pcb.id) ∉ .chunkWait (some c.pcb.id) :: s.stack := by
    intro mem
    obtain here | mem := List.mem_cons.mp mem
    · exact ne (t.framed.unique x a d c old live (Option.some.inj (Frame.chunkWait.inj here)))
    · cases (quiet x d old).symm.trans (waitsFor_iff.mpr mem)
  have first : .chunkWait (some c.pcb.id) ∉ s.stack := fun mem => by
    cases (quiet a c live).symm.trans (waitsFor_iff.mpr mem)
  have num : Numbered { s with conns := extendBuilt s.hsGlobal chunk s.conns } :=
    t.framed.numbered.of_conns (fun x d there => ?_) rfl
  refine ⟨fun x d there => ?_, fun free => ?_, ⟨num.known, num.unique, fun k mem => ?_, fun call p o mem => ?_,
    fun x d there waiting => ?_⟩, t.closed⟩
  · obtain ⟨rfl, rfl⟩ | ⟨ne, old⟩ := grown there
    · have told := t.told x c live
      rw [quiet x c live] at told
      rw [waitsFor_iff.mpr List.mem_cons_self]
      exact told.chunk owned global busy rfl rfl rfl rfl chunk_eq
    · rw [waitsFor_false]
      · have other : s.hsGlobal ≠ some x := fun eq => ne (Option.some.inj (eq.symm.trans global))
        refine ((t.told x d old).bystander _ other ?_ fun area ne => ?_).2
        · exact other
        · exact Function.update_of_ne ne ..
      · exact alone ne old
  · cases global.symm.trans free
  · obtain here | mem := List.mem_cons.mp mem
    · cases Frame.chunkWait.inj here
      exact t.framed.known a c live
    · exact t.framed.waits k mem
  · obtain here | mem := List.mem_cons.mp mem
    · cases here
    · exact absurd rfl (List.any_eq_false.mp noRead _ mem)
  · obtain ⟨rfl, rfl⟩ | ⟨ne, old⟩ := grown there
    · exact ⟨s.stack, rfl, first⟩
    · exact absurd (waitsFor_iff.mp waiting) (alone ne old)
  · obtain ⟨rfl, rfl⟩ | ⟨-, old⟩ := grown there
    · exact ⟨c, live, rfl⟩
    · exact ⟨d, old, rfl⟩

end

variable {e : Env}

lemma Told.handOver {w : Work} (told : Told b true w) (own : OwnWork w) (global : w.g.hsGlobal = some w.h) :
    Told b false ((httpdSendData e { w with hs := { w.hs with
        dataptr := ramPtr w.g.backup.dataAddr
        upload := w.g.backup.dataSize } }).setBackup { w.g.backup with chunkBusy := false }) := by
  obtain ⟨-, busy, addr⟩ := told.waits rfl
  obtain ⟨owner, state, sent, header⟩ := told.busyOwner own global busy
  have at' : ramPtr w.g.backup.dataAddr = .mem .ram w.g.backup.dataAddr := by
    rw [addr, b.ramPtr_uploadAddr]
  have handed : Told b false ({ w with hs := { w.hs with
      dataptr := ramPtr w.g.backup.dataAddr
      upload := w.g.backup.dataSize } }.setBackup { w.g.backup with chunkBusy := false }) := by
    refine ⟨fun other => absurd state other, ?_, fun _ _ => owner, fun _ h => (by cases h), fun _ _ => addr,
      fun _ up => (by cases state.symm.trans up), fun h => by cases h⟩
    have whole := told.whole
    rw [sent, deref_zero, List.append_nil, Work.behind, owner, Bool.or_true] at whole
    rw [behind_idle, List.append_nil]
    · simp only [Work.setBackup, at', Ptr.deref]
      exact whole
    · exact header
  exact handed.send fun other => absurd state other

lemma Telling.chunkWaitDone (t : Telling b s) (own : Own s) {owner : Option Nat} {rest : List Frame}
    (top : s.stack = .chunkWait owner :: rest) (noRead : rest.any Frame.isChunkRead = false) (back : OwnedBy owner s) :
    Telling b (chunkWaitDone e { s with stack := rest }) := by
  have few : Fewer s.stack rest := .pop top
  have reads (call : FlashCall) (p : ReadPhase) (o : Option Nat) : .chunkRead call p o ∉ s.stack := by
    rw [top, List.mem_cons, not_or]
    exact ⟨by rintro ⟨⟩, fun mem => absurd rfl (List.any_eq_false.mp noRead _ mem)⟩
  refine Server.withOwner_cases (fun free => ?_) (fun a global gone => ?_) fun a c global live => ?_
  · have other (x : Addr) : s.hsGlobal ≠ some x := fun eq => by cases eq.symm.trans free
    have aside {x : Addr} {d : Conn} (live : s.conns x = some d) := (t.told x d live).bystander
      (({ s with stack := rest } : Server).setBackup (endChunks s.backup)) (other x) (other x) fun _ _ => rfl
    have re : Restacks s (({ s with stack := rest } : Server).setBackup (endChunks s.backup)) :=
      .inr ⟨fun x d live => (aside live).1, few⟩
    refine ⟨fun x d live => ?_, fun _ => ⟨(t.settled free).1, rfl⟩, ?_, t.closed⟩
    · obtain ⟨idle, told⟩ := aside live
      rw [re.waitsFor live rfl, idle]
      exact told
    · exact t.framed.of_conns re (fun x d live => ⟨d, live, rfl⟩) rfl fun call p o mem => absurd mem (reads call p o)
  · obtain ⟨c, live⟩ := own.live a global
    cases gone.symm.trans live
  · obtain rfl := back a c global live
    have owned := own.conns a c live
    have waiting : s.waitsFor c = true := waitsFor_iff.mpr (top ▸ List.mem_cons_self)
    obtain ⟨rest', eq, once⟩ := t.framed.top a c live waiting
    obtain rfl : rest = rest' := (List.cons.inj (top.symm.trans eq)).2
    have told := t.told a c live
    rw [waiting] at told
    have handed := told.handOver (e := e) owned global
    have other {x : Addr} (ne : x ≠ a) : s.hsGlobal ≠ some x := fun eq => ne (Option.some.inj (eq.symm.trans global))
    -- nobody waits any longer
    have quiet (x : Addr) (d : Conn) (there : Function.update s.conns a
        (some (sendLoop s.mem e.tcp (s.loaded c))) x = some d) : .chunkWait (some d.pcb.id) ∉ rest := by
      obtain ⟨-, sent⟩ | ⟨ne, old⟩ := update_conns there
      · cases sent
        rw [sendLoop_id]
        exact once
      · intro mem
        have idle := ((t.told x d old).bystander _ (other ne) (other ne) fun _ _ => rfl).1
        cases idle.symm.trans (waitsFor_iff.mpr (few.waits _ mem))
    refine ⟨fun x d there => ?_, fun free => ?_, ?_, t.closed⟩
    · rw [waitsFor_false (quiet x d there)]
      obtain ⟨rfl, rfl⟩ | ⟨ne, old⟩ := commit_conns live rfl x d there
      · exact handed
      · refine ((t.told x d old).bystander _ (other ne) ?_ fun _ _ => ?_).2
        · exact other ne
        · rfl
    · cases global.symm.trans free
    · refine t.framed.of_fewer few (fun x d there => ?_) rfl (fun call p o mem => absurd mem (reads call p o))
        fun x d there waiting => absurd (waitsFor_iff.mp waiting) (quiet x d there)
      obtain ⟨rfl, rfl⟩ | ⟨-, old⟩ := commit_conns live rfl x d there
      · exact ⟨c, live, sendLoop_id ..⟩
      · exact ⟨d, old, rfl⟩

lemma Telling.boot : Telling b boot :=
  ⟨fun _ _ live => (by cases live), fun _ => ⟨rfl, rfl⟩, ⟨fun _ _ live => (by cases live),
    fun _ _ _ _ live => (by cases live), fun _ mem => (by cases mem), fun _ _ _ mem => (by cases mem),
    fun _ _ live => by cases live⟩, fun _ mem => by cases mem⟩

/-- The responses are kept apart: no event comes while a flash read runs for a connection, a chunk is handed to the
connection it was read for, and no handler builds its response in a static array that holds bytes still to be sent. -/
structure Apart (s : Server) (ev : Event) : Prop where
  quiet : Undisturbed s ev
  back : ∀ e ok, ev = .returns e ok → ∀ owner rest, s.stack = .chunkWait owner :: rest → OwnedBy owner s
  drained : ∀ area, s.prints ev = some area → s.Drained area

lemma Apart.noRead (ok : Apart s ev) (other : ev.isReadReturn = false) : s.stack.any Frame.isChunkRead = false := by
  by_contra any
  exact absurd (other.symm.trans (ok.quiet.2 (by simpa using any))) (by decide)

lemma LoopEffect.telling (eff : LoopEffect b s ev s') (t : Telling b s) (own : Own s) (calm : Calm s)
    (ok : Apart s ev) : Telling b s' := by
  have below {f : Frame} {rest : List Frame} (top : s.stack = f :: rest) : rest.any Frame.isChunkRead = false := by
    simpa [top] using calm.inner
  have popped {f : Frame} {rest : List Frame} (top : s.stack = f :: rest) (other : ∀ o, f ≠ .chunkWait o)
      (o : Option Nat) (l : List Frame) : s.stack ≠ .chunkWait o :: l := by
    rw [top]
    exact fun eq => other o (List.cons.inj eq).1
  cases eff with
  | stays => exact t
  | polls st dev move => exact t.restack move.noWait (.move move) rfl rfl rfl rfl rfl rfl
  | waited f st top is =>
    refine t.restack (popped top ?_) (.pop top) rfl rfl rfl rfl rfl rfl
    rintro o rfl
    obtain is | is := is <;> cases is
  | readies st move | commands st dev move =>
    exact t.restack move.noWait (.push (.move move) (by rintro o ⟨⟩) rfl) rfl rfl rfl rfl rfl rfl
  | fetches st dev move ne due =>
    have t₀ : Telling b { s with stack := st, dev := dev } :=
      t.restack move.noWait (.move move) rfl rfl rfl rfl rfl rfl
    have quiet {x : Addr} {d : Conn} (live : s.conns x = some d) : .chunkWait (some d.pcb.id) ∉ st :=
      t.framed.idle move.noWait (.move move) live
    have noWait {x : Addr} {d : Conn} (live : s.conns x = some d) :
        .chunkWait (some d.pcb.id) ∉ (backupChunkNext b { s with stack := st, dev := dev }).stack := fun mem =>
      quiet live ((List.mem_cons.mp mem).resolve_left (by rintro ⟨⟩))
    refine ⟨fun x d live => ?_, t.settled, ⟨t.framed.known, t.framed.unique, fun k mem => ?_, fun call p o mem => ?_,
      fun x d live waiting => absurd (waitsFor_iff.mp waiting) (noWait live)⟩, t.closed⟩
    · have told := t₀.told x d live
      rw [waitsFor_false (quiet live)] at told
      rw [waitsFor_false (noWait live)]
      exact told
    · exact t₀.framed.waits k ((List.mem_cons.mp mem).resolve_left (by rintro ⟨⟩))
    · obtain here | mem := List.mem_cons.mp mem
      · obtain ⟨-, -, rfl⟩ := Frame.chunkRead.inj here
        exact ⟨(Server.fetching_iff.mp due).2.1, rfl⟩
      · exact t₀.framed.reads call p o mem
  | dangles h total call p st top gone =>
    exact t.restack (popped top (by rintro o ⟨⟩)) (.pop top) rfl rfl rfl rfl rfl rfl
  | backupReturns e r h total call p st c is top live =>
    have t₀ : Telling b { s with stack := st } :=
      t.restack (popped top (by rintro o ⟨⟩)) (.pop top) rfl rfl rfl rfl rfl rfl
    obtain ⟨free, new⟩ := calm.backup h total call p (top ▸ List.mem_cons_self)
    have owned := own.conns h c live
    have quiet : Server.waitsFor { s with stack := st } c = false :=
      waitsFor_false (t.framed.idle (popped top (by rintro o ⟨⟩)) (.pop top) live)
    refine t₀.commit live (owned.backupReadDone free) ?_ (.inl (congrArg History.closed (backupReadDone_hist ..)))
      (.inr (.inl free)) (.backupReadDone total call r) (.inl rfl) (below top) fun area ne => ?_
    · rw [quiet]
      exact .backupReadDone (owned.fresh (new c live)).1 free
        ((t.told h c live).early (by simp [Server.work, new c live])) t.settled
    -- the header of a backup is printed into the array of the partition list
    · by_cases json : area = .partJson
      · refine .inr (ok.drained area ?_)
        rw [is, json, Server.prints, top]
        rfl
      · exact .inl (backupReadDone_mem ne json)
  | chunkReturns e r call p owner st is top =>
    have noWait := popped top (by rintro o ⟨⟩)
    have t₀ : Telling b { s with stack := st } := t.restack noWait (.pop top) rfl rfl rfl rfl rfl rfl
    obtain ⟨a, c, global, live, owned⟩ := own.chunked (calm.chunk (by simp [top, Frame.isChunkRead]))
    obtain ⟨busy, who⟩ := t.framed.reads call p owner (top ▸ List.mem_cons_self)
    obtain rfl : owner = some c.pcb.id := by simpa [Server.owner, global, live] using who
    unfold chunkReadDone
    dsimp only
    split_ifs
    · refine Server.withOwner_owned global live ?_
      exact t₀.chunkFailed global owned (below top)
    · exact t₀.chunkRead global live owned (below top) busy fun x d there =>
        waitsFor_false (t.framed.idle noWait (.pop top) there)
  | handsOver e owner st top is =>
    obtain ⟨ok', is⟩ := is
    exact t.chunkWaitDone own top (below top) (ok.back e ok' is owner st top)
  | upgradeWaits st top | enters st top =>
    exact t.restack (popped top (by rintro o ⟨⟩)) (.push (.pop top) (by rintro o ⟨⟩) rfl) rfl rfl rfl rfl rfl rfl
  | upgraded ok st top =>
    unfold upgradeDone
    cases ok
    all_goals
      exact t.restack (popped top (by rintro o ⟨⟩)) (.push (.pop top) (by rintro o ⟨⟩) rfl) rfl rfl rfl rfl rfl rfl
  | reboots => exact .boot
  | stops is prompt =>
    refine ⟨fun x d live => (by cases live), fun _ => ⟨rfl, rfl⟩, ⟨fun x d live => (by cases live),
      fun x x' d d' live => (by cases live), t.framed.waits, fun call p o mem => ?_, fun x d live => by cases live⟩,
      t.closed⟩
    exact absurd rfl (List.any_eq_false.mp (ok.noRead (is ▸ rfl)) _ mem)
  | starts is prompt off =>
    refine t.restack (fun o rest eq => ?_) (.refl _) rfl rfl rfl rfl rfl rfl
    simp [Server.atPrompt, eq] at prompt

lemma step_telling (t : Telling b s) (own : Own s) (calm : Calm s) (ok : Apart s ev) : Telling b (step b s ev) := by
  unfold step
  split_ifs with crashed net
  · exact t
  · have other : ev.isReadReturn = false := by cases ev <;> first | rfl | cases net
    refine netStep_effect.telling t own (ok.noRead other) fun area buffer => ok.drained area ?_
    cases ev with
    | readReturns => cases net
    | _ => exact buffer
  · exact t
  · exact loopStep_effect.telling t own calm ok

lemma telling_reach (rch : Reach (step b) Apart boot s) : Telling b s :=
  (rch.invariant (I := fun s => Telling b s ∧ Own s ∧ Calm s) ⟨.boot, .boot, .of_idle rfl rfl⟩
    fun _ _ inv ok => ⟨step_telling inv.1 inv.2.1 inv.2.2 ok, step_own inv.2.1 inv.2.2 ok.quiet⟩).1

end

/-! ## Responses are isolated -/

structure Isolated (s : Server) : Prop where
  live : ∀ a c, s.conns a = some c → c.pcb.out <+: c.trail.built
  closed : ∀ x ∈ s.hist.closed, x.1.out = x.2.built

/-- **Response isolation.** In every run whose steps keep the connections apart, whatever TCP accepts, each connection
is sent the response that was built for it. -/
theorem responses_isolated (b : Board) (s : Server) (rch : Reach (step b) Apart boot s) : Isolated s := by
  have t := telling_reach rch
  refine ⟨fun a c live => ?_, t.closed⟩
  have whole := (t.told a c live).whole
  rw [List.append_assoc] at whole
  exact ⟨_, whole⟩

lemma Apart.of_idle {s : Server} {ev : Event} (idle : s.stack = [])
    (drained : ∀ area, (s.asks ev).bind Route.buffer = some area → s.Drained area) : Apart s ev := by
  refine ⟨⟨?_, ?_⟩, fun _ _ _ owner rest top => ?_, fun area prints => drained area ?_⟩
  · simp [idle]
  · simp [idle]
  · cases idle.symm.trans top
  · unfold Server.prints at prints
    split at prints
    · simp [idle] at prints
    · exact prints

def sampleAbort : Segment := ⟨bytes "POST /webterm/abort HTTP/1.0\r\n\r\n", by decide⟩

def samplePage : Segment := ⟨bytes "GET / HTTP/1.0\r\n\r\n", by decide⟩

def sideBySide : List Event :=
  [.accept 0 (some 1), .accept 0 (some 2), .recv 1 { now := 0 } sampleAbort, .recv 2 { now := 0 } samplePage,
    .sent 1 { now := 0, tcp := [⟨1000, true, true⟩] }]

theorem responses_isolated_sideBySide : Along (step sampleBoard) Apart boot sideBySide ∧
    Isolated (runAll (step sampleBoard) boot sideBySide) := by
  have quiet {s : Server} {ev : Event} (idle : s.stack = []) (none : (s.asks ev).bind Route.buffer = none) : Apart s ev :=
    .of_idle idle fun area eq => by cases none.symm.trans eq
  have two : (runAll (step sampleBoard) boot (sideBySide.take 2)).conns =
      Function.update (Function.update (fun _ => none) 1 (some { pcb := { id := 0 } })) 2
        (some { pcb := { id := 1 } }) := rfl
  have fresh (area : Region) : (runAll (step sampleBoard) boot (sideBySide.take 2)).Drained area := by
    intro a c at' live
    rw [two, Function.update_apply, Function.update_apply] at live
    split_ifs at live
    · cases live
      rintro ⟨⟩
    · cases live
      rintro ⟨⟩
  -- the verdict is still to be sent, but not from the array that a redirection is printed into
  have printed : (runAll (step sampleBoard) boot (sideBySide.take 3)).Drained .redirect := by
    have at' : ((runAll (step sampleBoard) boot (sideBySide.take 3)).conns 1).map Conn.dataptr =
        some (.mem .webterm 0) := by decide
    obtain ⟨d, eq⟩ : ∃ d, (runAll (step sampleBoard) boot (sideBySide.take 3)).conns =
        Function.update (runAll (step sampleBoard) boot (sideBySide.take 2)).conns 1 d := ⟨_, rfl⟩
    intro a c off live redirect
    by_cases here : a = 1
    · subst here
      rw [live] at at'
      cases (Option.some.inj at').symm.trans redirect
    · rw [eq, Function.update_of_ne here] at live
      exact fresh _ a c off live redirect
  have along : Along (step sampleBoard) Apart boot sideBySide := by
    refine ⟨quiet rfl rfl, quiet rfl rfl, .of_idle rfl fun area _ => fresh area, .of_idle rfl fun area eq => ?_,
      quiet rfl rfl, trivial⟩
    cases eq
    exact printed
  exact ⟨along, responses_isolated sampleBoard _ (along.reach .refl)⟩

def overwritten : List Event :=
  [.accept 0 (some 1), .recv 1 { now := 0 } sampleAbort, .accept 0 (some 2),
    .recv 2 { now := 0 } ⟨bytes "GET /webterm/abort HTTP/1.0\r\n\r\n", by decide⟩,
    .sent 1 { now := 0, tcp := [⟨1000, true, true⟩] }]

/-- The second request prints over the response that the first connection is still to be sent. -/
theorem response_overwritten : ((runAll (step sampleBoard) boot overwritten).conns 1).map
      (fun c => (c.pcb.out, c.trail.built)) =
        some ((webtermVerdict false).take (webtermVerdict true).length, webtermVerdict true) ∧
    ¬ Isolated (runAll (step sampleBoard) boot overwritten) := by
  have sent : ((runAll (step sampleBoard) boot overwritten).conns 1).map
      (fun c => (c.pcb.out, c.trail.built)) =
        some ((webtermVerdict false).take (webtermVerdict true).length, webtermVerdict true) := by
    decide
  refine ⟨sent, fun iso => ?_⟩
  obtain ⟨c, live, eq⟩ := Option.map_eq_some_iff.mp sent
  obtain ⟨out, built⟩ := Prod.mk.inj eq
  have head := iso.live 1 c live
  rw [out, built] at head
  revert head
  decide

end ResQBoot.Failsafe
