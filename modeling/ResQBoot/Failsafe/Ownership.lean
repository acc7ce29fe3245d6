import ResQBoot.Lib.Machine
import ResQBoot.Failsafe.Effects

/-!
# Ownership of the globals

`Own`: the connection with `owns_global` set is the live one `hs_global` points to, a connection that uploads is the
owner and has nothing to send, and there is a boundary only while there is an owner.
-/

namespace ResQBoot.Failsafe

/-! ## The invariant of one callback -/

/-- No backup is left over. -/
def Backup.Clear (bk : Backup) : Prop := bk.dataAddr = 0 ∧ bk.dataSize = 0 ∧ bk.chunked = false

structure OwnWork (w : Work) : Prop where
  owner : w.hs.ownsGlobal = true ↔ w.g.hsGlobal = some w.h
  uploading : w.hs.state = .uploadRequest → w.hs.ownsGlobal = true ∧ w.hs.dataptr = .null
  fresh : w.hs.state = .none → w.hs.ownsGlobal = false ∧ w.hs.dataptr = .null
  boundary : w.g.boundaryValue.isSome = true → w.g.hsGlobal.isSome = true
  clear : w.g.hsGlobal = none ∨ w.hs.state = .uploadRequest → w.g.backup.Clear

def Shift (w w' : Work) : Prop :=
  w'.g.hsGlobal = w.g.hsGlobal ∨ (w'.g.hsGlobal = none ∧ w.g.hsGlobal = some w.h) ∨
    (w'.g.hsGlobal = some w.h ∧ w.g.hsGlobal = none)

lemma Shift.other {w w' : Work} {a : Addr} (shift : Shift w w') (ne : a ≠ w.h) :
    w'.g.hsGlobal = some a ↔ w.g.hsGlobal = some a := by
  obtain same | ⟨now, was⟩ | ⟨now, was⟩ := shift
  · rw [same]
  · simp [now, was, ne.symm]
  · simp [now, was, ne.symm]

structure OwnResult (w : Work) (r : Work × Fate) : Prop where
  shift : Shift w r.1
  boundary : r.1.g.boundaryValue.isSome = true → r.1.g.hsGlobal.isSome = true
  clear : r.1.g.hsGlobal = none → r.1.g.backup.Clear
  others : w.g.hsGlobal ≠ none → w.g.hsGlobal ≠ some w.h → r.1.g.backup = w.g.backup
  kept : r.2 ≠ .freed → OwnWork r.1
  freed : r.2 = .freed → r.1.g.hsGlobal ≠ some w.h

section
variable {w w' : Work} {now : UInt32} {e : Env}

lemma stateReset_owned : (httpdStateReset now w).g.hsGlobal = (if w.hs.ownsGlobal then none else w.g.hsGlobal) ∧
    (httpdStateReset now w).g.boundaryValue = (if w.hs.ownsGlobal then none else w.g.boundaryValue) ∧
    (httpdStateReset now w).g.backup = if w.hs.ownsGlobal then {} else w.g.backup := by
  unfold httpdStateReset
  split <;> exact ⟨rfl, rfl, rfl⟩

lemma OwnWork.of_eq (own : OwnWork w) (h : w'.h = w.h) (hsGlobal : w'.g.hsGlobal = w.g.hsGlobal)
    (clear : w.g.backup.Clear → w'.g.backup.Clear) (boundary : w'.g.boundaryValue = w.g.boundaryValue) (state : w'.hs.state = w.hs.state)
    (owns : w'.hs.ownsGlobal = w.hs.ownsGlobal)
    (null : w.hs.dataptr = .null → w'.hs.dataptr = .null) : OwnWork w' where
  owner := by rw [owns, hsGlobal, h]; exact own.owner
  uploading up := by
    rw [owns]
    obtain ⟨h1, h2⟩ := own.uploading (state ▸ up)
    exact ⟨h1, null h2⟩
  fresh new := by
    rw [owns]
    obtain ⟨h1, h2⟩ := own.fresh (state ▸ new)
    exact ⟨h1, null h2⟩
  boundary := by rw [boundary, hsGlobal]; exact own.boundary
  clear := by
    rw [hsGlobal, state]
    exact fun when => clear (own.clear when)

lemma OwnWork.keep (own : OwnWork w') (shift : Shift w w')
    (others : w.g.hsGlobal ≠ none → w.g.hsGlobal ≠ some w.h → w'.g.backup = w.g.backup) :
    OwnResult w (w', .keep) :=
  ⟨shift, own.boundary, fun none => own.clear (.inl none), others, fun _ => own, fun eq => by cases eq⟩

lemma closeConn_own (own : w'.hs.ownsGlobal = true ∨ w'.g.hsGlobal ≠ some w.h)
    (boundary : w'.hs.ownsGlobal = false → w'.g.boundaryValue.isSome = true → w'.g.hsGlobal.isSome = true)
    (clear : w'.hs.ownsGlobal = false → w'.g.hsGlobal = none → w'.g.backup.Clear)
    (others : w.g.hsGlobal ≠ none → w.g.hsGlobal ≠ some w.h → w'.hs.ownsGlobal = false ∧ w'.g.backup = w.g.backup)
    (shift : Shift w (httpdStateReset now w')) : OwnResult w (httpdCloseConn now w') := by
  refine ⟨shift, ?_, ?_, fun some ne => ?_, fun h => absurd rfl h, fun _ => ?_⟩
  · simp only [httpdCloseConn, stateReset_owned]
    split_ifs with owns
    · simp
    · exact boundary (by simpa using owns)
  · simp only [httpdCloseConn, stateReset_owned]
    split_ifs with owns
    · exact fun _ => ⟨rfl, rfl, rfl⟩
    · exact clear (by simpa using owns)
  · obtain ⟨not, eq⟩ := others some ne
    simp [httpdCloseConn, stateReset_owned, not, eq]
  · simp only [httpdCloseConn, stateReset_owned]
    split_ifs with owns
    · simp
    · exact own.resolve_left owns

lemma OwnWork.close (own : OwnWork w) (hsGlobal : w'.g.hsGlobal = w.g.hsGlobal)
    (backup : w.hs.ownsGlobal = false → w'.g.backup = w.g.backup)
    (boundary : w'.g.boundaryValue = w.g.boundaryValue)
    (owns : w'.hs.ownsGlobal = w.hs.ownsGlobal) : OwnResult w (httpdCloseConn now w') := by
  have notOwner (ne : w.g.hsGlobal ≠ some w.h) : w.hs.ownsGlobal = false := by
    by_contra o
    exact ne (own.owner.mp (by simpa using o))
  refine closeConn_own ?_ (fun _ => ?_) (fun not none => ?_) (fun _ ne => ?_) ?_
  · rw [owns, hsGlobal]
    cases h : w.hs.ownsGlobal with
    | true => exact .inl rfl
    | false => exact .inr fun eq => by simp [own.owner.mpr eq] at h
  · rw [boundary, hsGlobal]
    exact own.boundary
  · rw [backup (owns ▸ not)]
    exact own.clear (.inl (hsGlobal ▸ none))
  · exact ⟨owns.trans (notOwner ne), backup (notOwner ne)⟩
  · rw [Shift, stateReset_owned.1, owns, hsGlobal]
    split_ifs with o
    · exact .inr (.inl ⟨rfl, own.owner.mp o⟩)
    · exact .inl rfl

lemma OwnWork.send (own : OwnWork w) : OwnWork (httpdSendData e w) :=
  own.of_eq rfl rfl id rfl (sendLoop_state ..) (sendLoop_ownsGlobal ..)
    fun null => by rw [httpdSendData, sendLoop_null _ _ _ null]; exact null

lemma OwnWork.touch (own : OwnWork w) (now : UInt32) : OwnWork (w.touch now) := own.of_eq rfl rfl id rfl rfl rfl id

lemma OwnWork.idle (own : OwnWork w) (new : w.hs.state = .none) (idle : w.busy = false) : w.g.hsGlobal = none := by
  have notOwner : w.g.hsGlobal ≠ some w.h := fun eq => by
    have := (own.fresh new).1
    simp [own.owner.mpr eq] at this
  simp only [Work.busy, Bool.or_eq_false_iff, Bool.and_eq_false_iff, decide_eq_false_iff_not, not_not] at idle
  obtain none | eq := idle.2
  · simpa using none
  · exact absurd eq notOwner

lemma OwnWork.of_file (state : w.hs.state = .fileRequest) (owner : w.hs.ownsGlobal = true ↔ w.g.hsGlobal = some w.h)
    (boundary : w.g.boundaryValue.isSome = true → w.g.hsGlobal.isSome = true)
    (clear : w.g.hsGlobal = none → w.g.backup.Clear) : OwnWork w where
  owner := owner
  uploading up := absurd (state.symm.trans up) (by decide)
  fresh new := absurd (state.symm.trans new) (by decide)
  boundary := boundary
  clear h := h.elim clear fun up => absurd (state.symm.trans up) (by decide)

lemma OwnWork.apply (own : OwnWork w) (a : Answer) : OwnWork (w.apply e a) := by
  unfold Work.apply
  dsimp only
  split
  · refine .send (.of_file rfl ?_ own.boundary fun none => own.clear (.inl none))
    exact own.owner
  · exact own.of_eq rfl rfl id rfl rfl rfl id

structure Owner (w : Work) : Prop where
  owns : w.hs.ownsGlobal = true
  hsGlobal : w.g.hsGlobal = some w.h
  null : w.hs.dataptr = .null
  state : w.hs.state = .uploadRequest
  clear : w.g.backup.Clear

lemma Owner.ownWork (own : Owner w) : OwnWork w where
  owner := by simp [own.owns, own.hsGlobal]
  uploading _ := ⟨own.owns, own.null⟩
  fresh new := absurd (own.state.symm.trans new) (by decide)
  boundary _ := by simp [own.hsGlobal]
  clear _ := own.clear

lemma Owner.booked (own : Owner w) (k : Booked w w') : Owner w' :=
  ⟨k.owns.trans own.owns, by rw [k.hsGlobal, k.h]; exact own.hsGlobal, k.dataptr.trans own.null,
    k.state.trans own.state, by rw [k.backup]; exact own.clear⟩

lemma OwnWork.toOwner (own : OwnWork w) (state : w.hs.state = .uploadRequest) : Owner w := by
  obtain ⟨owns, null⟩ := own.uploading state
  exact ⟨owns, own.owner.mp owns, null, state, own.clear (.inr state)⟩

@[simp] lemma uploadComplete_hs : (httpdUploadComplete w).hs = w.hs := rfl

lemma Owner.finish (own : Owner w) : OwnWork (finishUpload e w) ∧ (finishUpload e w).g.hsGlobal = none := by
  have hsGlobal : (finishUpload e w).g.hsGlobal = none := by
    simp [finishUpload, httpdSendText, httpdSendStatic, httpdSendData, stateReset_owned, own.owns]
  refine ⟨.of_file ?_ ?_ ?_ fun _ => ?_, hsGlobal⟩
  · simp [finishUpload, httpdSendText, httpdSendStatic, httpdSendData]
  · rw [hsGlobal]
    simp [finishUpload, httpdSendText, httpdSendStatic, httpdSendData, httpdStateReset]
  · simp [finishUpload, httpdSendText, httpdSendStatic, httpdSendData, stateReset_owned, own.owns]
  · simp [finishUpload, httpdSendText, httpdSendStatic, httpdSendData, stateReset_owned, own.owns, Backup.Clear]

lemma UploadOutcome.own {ok : Prop} {r : Work × Fate} (out : UploadOutcome e ok w' r) (own : Owner w')
    (h : w'.h = w.h) (was : w.g.hsGlobal = some w.h ∨ w.g.hsGlobal = none) : OwnResult w r := by
  have shift : Shift w w' := by
    rw [Shift, own.hsGlobal, h]
    obtain was | was := was
    · exact .inl was.symm
    · exact .inr (.inr ⟨rfl, was⟩)
  have released {w'' : Work} (none : w''.g.hsGlobal = none) : Shift w w'' := by
    rw [Shift, none]
    obtain was | was := was
    · exact .inr (.inl ⟨rfl, was⟩)
    · exact .inl was.symm
  have others {p : Prop} (some : w.g.hsGlobal ≠ none) (ne : w.g.hsGlobal ≠ Option.some w.h) : p :=
    (was.elim ne some).elim
  cases out with
  | goesOn => exact own.ownWork.keep shift others
  | dropped =>
    have owns {p : Prop} (h : w'.hs.ownsGlobal = false) : p :=
      absurd (own.owns.symm.trans h) (by simp)
    exact closeConn_own (.inl own.owns) owns owns others (released (by simp [stateReset_owned, own.owns]))
  | answered => exact own.finish.1.keep (released own.finish.2) others
  | crashed =>
    exact OwnWork.keep (own.ownWork.of_eq rfl rfl id rfl rfl rfl id) shift others

lemma OwnWork.header (own : OwnWork w) : OwnWork (headerSent w) ∧
    (headerSent w).g.hsGlobal = w.g.hsGlobal ∧ (headerSent w).g.boundaryValue = w.g.boundaryValue ∧
    (headerSent w).hs.ownsGlobal = w.hs.ownsGlobal ∧
    (w.g.hsGlobal ≠ some w.h → (headerSent w).g.backup = w.g.backup) := by
  unfold headerSent
  split_ifs with go
  · have isOwner : w.g.hsGlobal = some w.h := by
      simp only [Work.isOwner, Bool.and_eq_true, decide_eq_true_eq] at go
      exact go.1.1.2
    exact ⟨.of_file rfl own.owner own.boundary fun none => own.clear (.inl none), rfl, rfl, rfl,
      fun ne => absurd isOwner ne⟩
  · exact ⟨own, rfl, rfl, rfl, fun _ => rfl⟩

lemma armUpgrade_own : (armUpgrade w).g.hsGlobal = w.g.hsGlobal ∧ (armUpgrade w).g.backup = w.g.backup ∧
    (armUpgrade w).g.boundaryValue = w.g.boundaryValue ∧ (armUpgrade w).hs = w.hs := by
  unfold armUpgrade
  split_ifs <;> exact ⟨rfl, rfl, rfl, rfl⟩

lemma OwnWork.drop (own : OwnWork w) : OwnResult w (httpdCloseConn now (dropConn w)) := by
  obtain ⟨-, backup, boundary, hsGlobal⟩ := dropConn_kept (w := w)
  have owns : (dropConn w).hs = w.hs := rfl
  by_cases o : w.g.hsGlobal = some w.h
  · have isOwner {p : Prop} (h : (dropConn w).hs.ownsGlobal = false) : p := by
      rw [owns, own.owner.mpr o] at h
      cases h
    refine closeConn_own (.inl (own.owner.mpr o)) isOwner isOwner (fun _ ne => absurd o ne) ?_
    rw [Shift, stateReset_owned.1, owns, own.owner.mpr o]
    exact .inr (.inl ⟨rfl, o⟩)
  · rw [if_neg o] at hsGlobal
    exact own.close hsGlobal (fun _ => backup) boundary (by rw [owns])

lemma Effect.own {b : Board} {k : Cause} {r : Work × Fate} (eff : Effect b k w r)
    (own : OwnWork w) : OwnResult w r := by
  have same {w' : Work} (eq : w'.g.backup = w.g.backup) (_ : w.g.hsGlobal ≠ none)
    (_ : w.g.hsGlobal ≠ some w.h) : w'.g.backup = w.g.backup := eq
  cases eff with
  | sends e now => exact (own.touch now).send.keep (.inl rfl) (same rfl)
  | answers e now a new sound =>
    refine OwnWork.keep ((own.touch now).apply a) (.inl ?_) (same ?_)
    · simp only [Work.apply]
      split <;> rfl
    · simp only [Work.apply]
      split <;> rfl
  | aborts now t | refuses now t new idle => exact own.close rfl (fun _ => rfl) rfl rfl
  | gives now t total new idle =>
    have free := own.idle new idle
    refine closeConn_own (.inl rfl) (fun h => by cases h) (fun h => by cases h) (fun some => absurd free some) ?_
    rw [Shift, stateReset_owned.1]
    exact .inl free.symm
  | uploads e t total boundary w₁ r new idle booked out =>
    have free := own.idle new idle
    have taken : Owner (((w.touch t).resetUpload.takeOver total).setBoundary boundary) :=
      ⟨rfl, rfl, (own.fresh new).2, rfl, own.clear (.inl free)⟩
    exact out.own (taken.booked booked) booked.h (.inr free)
  | continues e t w₁ r state booked out =>
    have owner := (own.touch t).toOwner state
    exact out.own (owner.booked booked) booked.h (.inl owner.hsGlobal)
  | reads t total call new idle =>
    have free := own.idle new idle
    exact ⟨.inl rfl, own.boundary, fun _ => own.clear (.inl free), fun some => absurd free some,
      fun _ => own.of_eq rfl rfl id rfl rfl rfl id, fun eq => by cases eq⟩
  | sendsMore e more =>
    obtain ⟨own', hs, -, -, backup⟩ := (own.touch e.now).header
    exact own'.send.keep (.inl hs) fun _ ne => backup ne
  | asks now sent owner =>
    obtain ⟨own', hs, -, owns, -⟩ := (own.touch now).header
    refine OwnWork.keep (own'.of_eq rfl rfl id rfl rfl rfl id) (.inl hs) fun _ ne => ?_
    simp only [Work.isOwner, Bool.and_eq_true] at owner
    exact absurd (own.owner.mp (owns ▸ owner.1)) ne
  | waits now =>
    obtain ⟨own', hs, -, -, backup⟩ := (own.touch now).header
    exact own'.keep (.inl hs) fun _ ne => backup ne
  | closes now =>
    obtain ⟨own', hs, bd, owns, backup⟩ := (own.touch now).header
    obtain ⟨arm1, arm2, arm3, arm4⟩ := armUpgrade_own (w := headerSent (w.touch now))
    refine own.close (arm1.trans hs) (fun not => arm2.trans (backup fun eq => ?_)) (arm3.trans bd)
      ((congrArg Conn.ownsGlobal arm4).trans owns)
    simp [own.owner.mpr eq] at not
  | fins e =>
    obtain ⟨arm1, arm2, arm3, arm4⟩ := armUpgrade_own (w := w)
    exact own.close arm1 (fun _ => arm2) arm3 (by rw [arm4])
  | drops now => exact own.drop

end

/-! ## The invariant of the server -/

structure Own (s : Server) : Prop where
  conns : ∀ a c, s.conns a = some c → OwnWork (s.work a c)
  live : ∀ a, s.hsGlobal = some a → ∃ c, s.conns a = some c
  boundary : s.boundaryValue.isSome = true → s.hsGlobal.isSome = true
  clear : s.hsGlobal = none → s.backup.Clear

def Frame.isBackupRead : Frame → Bool
  | .backupRead .. => true
  | _ => false

def Frame.isChunkRead : Frame → Bool
  | .chunkRead .. => true
  | _ => false

structure Calm (s : Server) : Prop where
  backup : ∀ h t k p, .backupRead h t k p ∈ s.stack →
    s.hsGlobal = none ∧ ∀ c, s.conns h = some c → c.state = .none
  single : s.stack.countP Frame.isBackupRead ≤ 1
  chunk : s.stack.any Frame.isChunkRead = true → s.backup.chunked = true
  inner : s.stack.tail.any Frame.isChunkRead = false

def Undisturbed (s : Server) (ev : Event) : Prop :=
  (s.stack.any Frame.isBackupRead = true → ev.isNet = false) ∧
    (s.stack.any Frame.isChunkRead = true → ev.isReadReturn = true)

instance (s : Server) (ev : Event) : Decidable (Undisturbed s ev) :=
  inferInstanceAs (Decidable (_ ∧ _))

section
variable {b : Board} {s s' : Server} {ev : Event} {w : Work}

lemma Own.commit (own : Own s) {h : Addr} {c : Conn} {f : Fate} (live : s.conns h = some c)
    (res : OwnResult (s.work h c) (w, f)) (eq : w.h = h) : Own (s.commit (w, f)) := by
  subst eq
  have other (a : Addr) (ne : a ≠ w.h) : w.g.hsGlobal = some a ↔ s.hsGlobal = some a := res.shift.other ne
  refine ⟨fun a c' live' => ?_, fun a ha => ?_, res.boundary, res.clear⟩
  · simp only [Server.commit, Function.update_apply] at live'
    split_ifs at live' with here freed
    · obtain rfl := here
      cases live'
      exact res.kept freed
    have old := own.conns a c' live'
    exact
      { owner := old.owner.trans (other a here).symm
        uploading := old.uploading
        fresh := old.fresh
        boundary := res.boundary
        clear := by
          rintro (none | up)
          · exact res.clear none
          -- an uploading connection owns the globals, so this callback left the backup alone
          · have isOwner : s.hsGlobal = some a := old.owner.mp (old.uploading up).1
            have same := res.others (by rw [show (s.work w.h c).g.hsGlobal = _ from isOwner]; simp)
              (by rw [show (s.work w.h c).g.hsGlobal = _ from isOwner]; exact fun eq => here (Option.some.inj eq))
            exact same ▸ old.clear (.inr up) }
  · simp only [Server.commit, Function.update_apply]
    split_ifs with here freed
    · exact absurd (here ▸ ha) (res.freed freed)
    · exact ⟨_, rfl⟩
    · exact own.live a ((other a here).mp ha)

lemma Own.of_eq (own : Own s) (hsGlobal : s'.hsGlobal = s.hsGlobal) (boundary : s'.boundaryValue = s.boundaryValue)
    (backup : s'.backup = s.backup ∨ s.backup.chunked = true)
    (conns : ∀ a, (s'.conns a).map (fun c => (c.state, c.ownsGlobal, c.dataptr)) =
      (s.conns a).map fun c => (c.state, c.ownsGlobal, c.dataptr)) : Own s' := by
  have busy {p : Prop} (clear : s.backup.Clear) (chunked : s.backup.chunked = true) : p := by
    simp [clear.2.2] at chunked
  have find {a : Addr} {c' : Conn} (live : s'.conns a = some c') : ∃ c, s.conns a = some c ∧
      c'.state = c.state ∧ c'.ownsGlobal = c.ownsGlobal ∧ c'.dataptr = c.dataptr := by
    have eq := conns a
    rw [live, Option.map_some, eq_comm, Option.map_eq_some_iff] at eq
    obtain ⟨c, live, eq⟩ := eq
    simp only [Prod.mk.injEq] at eq
    exact ⟨c, live, eq.1.symm, eq.2.1.symm, eq.2.2.symm⟩
  refine ⟨fun a c' live => ?_, fun a ha => ?_, ?_, fun none => ?_⟩
  · obtain ⟨c, live, state, owns, dataptr⟩ := find live
    have old := own.conns a c live
    refine ⟨?_, ?_, ?_, ?_, fun when => ?_⟩
    · simpa only [Server.work, owns, hsGlobal] using old.owner
    · simpa only [Server.work, owns, state, dataptr] using old.uploading
    · simpa only [Server.work, owns, state, dataptr] using old.fresh
    · simpa only [Server.work, boundary, hsGlobal] using old.boundary
    · simp only [Server.work, hsGlobal, state] at when
      obtain same | chunked := backup
      · simp only [Server.work, same]
        exact old.clear when
      · exact busy (old.clear when) chunked
  · obtain ⟨c, live⟩ := own.live a (hsGlobal ▸ ha)
    have eq := conns a
    rw [live, Option.map_some, Option.map_eq_some_iff] at eq
    exact ⟨_, eq.choose_spec.1⟩
  · rw [boundary, hsGlobal]
    exact own.boundary
  · have clear := own.clear (hsGlobal ▸ none)
    obtain same | chunked := backup
    · exact same ▸ clear
    · exact busy clear chunked

lemma Calm.of_idle (noBackup : s.stack.any Frame.isBackupRead = false)
    (noChunk : s.stack.any Frame.isChunkRead = false) : Calm s := by
  refine ⟨fun h t k p mem => ?_, ?_, fun chunk => ?_, ?_⟩
  · exact absurd (List.any_eq_false.mp noBackup _ mem) (by simp [Frame.isBackupRead])
  · rw [List.countP_eq_zero.mpr fun f mem => List.any_eq_false.mp noBackup f mem]
    exact Nat.zero_le 1
  · simp [noChunk] at chunk
  · exact List.any_eq_false.mpr fun f mem => List.any_eq_false.mp noChunk f (List.mem_of_mem_tail mem)

@[simp] lemma polled_isBackupRead (f : Frame) : f.polled.isBackupRead = f.isBackupRead := by
  cases f <;> rfl

@[simp] lemma polled_isChunkRead (f : Frame) : f.polled.isChunkRead = f.isChunkRead := by
  cases f <;> rfl

lemma Calm.pop (calm : Calm s) {f : Frame} {rest : List Frame} (top : s.stack = f :: rest) :
    Calm { s with stack := rest } := by
  obtain ⟨backup, single, chunk, inner⟩ := calm
  rw [top] at backup single chunk inner
  refine ⟨fun h t k p mem => backup h t k p (List.mem_cons_of_mem _ mem), ?_, fun any => ?_, ?_⟩
  · exact Nat.le_trans (List.sublist_cons_self f rest).countP_le single
  · exact chunk (by simp only [List.any_cons, any, Bool.or_true])
  · exact List.any_eq_false.mpr fun g mem => List.any_eq_false.mp inner g (List.mem_of_mem_tail mem)

lemma Calm.move (calm : Calm s) {st : List Frame} (move : StackMove s.stack st) : Calm { s with stack := st } := by
  generalize old : s.stack = st₀ at move
  cases move with
  | same =>
    subst old
    exact calm
  | polled f rest phase =>
    obtain ⟨backup, single, chunk, inner⟩ := calm
    rw [old] at backup single chunk inner
    refine ⟨fun h t k p mem => ?_, ?_, ?_, inner⟩
    · obtain here | mem := List.mem_cons.mp mem
      · cases f with
        | backupRead h' t' k' p' =>
          obtain ⟨rfl, rfl, rfl, -⟩ := Frame.backupRead.inj here
          exact backup h t k p' List.mem_cons_self
        | _ => cases here
      · exact backup h t k p (List.mem_cons_of_mem _ mem)
    · simpa only [List.countP_cons, polled_isBackupRead] using single
    · simpa only [List.any_cons, polled_isChunkRead] using chunk
  | popped rest => exact calm.pop old

lemma Calm.of_eq (calm : Calm s) (hsGlobal : s'.hsGlobal = s.hsGlobal) (conns : s'.conns = s.conns)
    (chunked : s'.backup.chunked = s.backup.chunked) (stack : s'.stack = s.stack) : Calm s' := by
  obtain ⟨backup, single, chunk, inner⟩ := calm
  rw [← hsGlobal, ← conns, ← stack] at backup
  rw [← stack] at single inner
  rw [← stack, ← chunked] at chunk
  exact ⟨backup, single, chunk, inner⟩

lemma Calm.push (calm : Calm s) {f : Frame} (other : f.isRead = false)
    (noChunk : s.stack.any Frame.isChunkRead = false) (hsGlobal : s'.hsGlobal = s.hsGlobal)
    (conns : s'.conns = s.conns) (stack : s'.stack = f :: s.stack) : Calm s' := by
  have notBackup : f.isBackupRead = false := by cases f <;> first | rfl | cases other
  have notChunk : f.isChunkRead = false := by cases f <;> first | rfl | cases other
  refine ⟨fun h t k p mem => ?_, ?_, fun chunk => ?_, ?_⟩
  · rw [stack, List.mem_cons] at mem
    rw [hsGlobal, conns]
    refine calm.backup h t k p (mem.resolve_left ?_)
    rintro rfl
    cases other
  · simpa [stack, List.countP_cons, notBackup] using calm.single
  · simp [stack, notChunk, noChunk] at chunk
  · rwa [stack, List.tail_cons]

lemma OwnWork.backupReadDone (own : OwnWork w) (free : w.g.hsGlobal = none) {e : Env} {total : Nat}
    {call : FlashCall} {r : FlashResult} :
    OwnResult w (backupReadDone b e total call r w, .keep) := by
  unfold ResQBoot.Failsafe.backupReadDone
  dsimp only
  split_ifs
  · refine OwnWork.keep (.send (.of_file rfl own.owner own.boundary fun none => ?_)) (.inl rfl)
      fun some => absurd free some
    exact own.clear (.inl none)
  · refine OwnWork.keep (.of_file ?_ ?_ (fun _ => rfl) fun none => by cases none) (.inr (.inr ⟨rfl, free⟩))
      fun some => absurd free some
    · exact sendLoop_state ..
    · simp [Work.setBackup, httpdSendData, Work.takeBackup, Work.printPartJson, Work.stored]

lemma OwnWork.handOver (own : OwnWork w) (owner : w.g.hsGlobal = some w.h) (e : Env) :
    OwnResult w (((httpdSendData e { w with hs := { w.hs with
        dataptr := ramPtr w.g.backup.dataAddr
        upload := w.g.backup.dataSize } }).setBackup
      { w.g.backup with chunkBusy := false }), .keep) := by
  have owns := own.owner.mpr owner
  have handed : OwnWork { w with hs := { w.hs with
      dataptr := ramPtr w.g.backup.dataAddr
      upload := w.g.backup.dataSize } } :=
    { owner := own.owner
      uploading := fun up => ⟨owns, by simp [ramPtr, (own.clear (.inr up)).1]⟩
      fresh := fun new => absurd (own.fresh new).1 (by simp [owns])
      boundary := own.boundary
      clear := own.clear }
  exact OwnWork.keep (handed.send.of_eq rfl rfl id rfl rfl rfl id) (.inl rfl)
    fun _ ne => absurd owner ne

lemma NetEffect.own (eff : NetEffect b s ev s') (own : Own s) (noBackup : s.stack.any Frame.isBackupRead = false)
    (noChunk : s.stack.any Frame.isChunkRead = false) : Own s' ∧ Calm s' := by
  cases eff with
  | stays => exact ⟨own, .of_idle noBackup noChunk⟩
  | accepts a now free =>
    refine ⟨⟨fun a' c live => ?_, fun a' ha => ?_, own.boundary, own.clear⟩, .of_idle noBackup noChunk⟩
    · simp only [Function.update_apply] at live
      split_ifs at live with here
      · cases live
        refine ⟨⟨by rintro ⟨⟩, fun ha => ?_⟩, by rintro ⟨⟩, fun _ => ⟨rfl, rfl⟩, own.boundary,
          fun h => h.elim own.clear (by rintro ⟨⟩)⟩
        obtain ⟨c, live⟩ := own.live a' ha
        simp [here, free] at live
      · exact own.conns a' c live
    · simp only [Function.update_apply]
      split_ifs
      · exact ⟨_, rfl⟩
      · exact own.live a' ha
  | calls h c k w f live eff keeps why =>
    refine ⟨own.commit live (eff.own (own.conns h c live)) keeps.h, ?_⟩
    cases f with
    | keep | freed => exact .of_idle noBackup noChunk
    | call f =>
      obtain ⟨new, idle, state, same, -, total, call, rfl⟩ := eff.call rfl
      have free : w.g.hsGlobal = none := same.trans ((own.conns h c live).idle new idle)
      refine ⟨fun h' t k p mem => ⟨free, fun c' live' => ?_⟩, ?_, fun chunk => ?_, noChunk⟩
      · rw [commit_stack_call, List.mem_cons] at mem
        obtain here | mem := mem
        · obtain ⟨rfl, -⟩ := Frame.backupRead.inj here
          have here : w.h = h' := keeps.h
          rw [commit_conns_call, here, Function.update_self] at live'
          cases live'
          exact state.trans new
        · exact absurd (List.any_eq_false.mp noBackup _ mem) (by simp [Frame.isBackupRead])
      · rw [commit_stack_call, List.countP_cons,
          List.countP_eq_zero.mpr fun f mem => List.any_eq_false.mp noBackup f mem]
        exact Nat.le_refl 1
      · simp [noChunk, Frame.isChunkRead] at chunk

lemma Own.chunked (own : Own s) (chunked : s.backup.chunked = true) :
    ∃ a c, s.hsGlobal = some a ∧ s.conns a = some c ∧ OwnWork (s.work a c) := by
  cases eq : s.hsGlobal with
  | none => simp [(own.clear eq).2.2] at chunked
  | some a =>
    obtain ⟨c, live⟩ := own.live a eq
    exact ⟨a, c, rfl, live, own.conns a c live⟩

lemma Own.chunkReadDone (own : Own s) (chunked : s.backup.chunked = true) {now : UInt32}
    {owner : Option Nat} {r : FlashResult} : Own (chunkReadDone b now owner r s) := by
  unfold ResQBoot.Failsafe.chunkReadDone
  dsimp only
  split_ifs
  · have own' : Own ((s.stored b r).setBackup (endChunks s.backup)) :=
      own.of_eq rfl rfl (.inr chunked) fun _ => rfl
    refine Server.withOwner_cases (fun _ => own') (fun a eq gone => ?_) fun a c _ live => ?_
    · exact own'.of_eq rfl rfl (.inl rfl) fun _ => rfl
    · exact own'.commit live ((own'.conns a c live).close rfl (fun _ => rfl) rfl rfl) rfl
  · refine own.of_eq rfl rfl (.inr chunked) fun a => ?_
    simp only [extendBuilt]
    split_ifs
    · rw [Option.map_map]
      rfl
    · rfl

lemma Own.chunkWaitDone (own : Own s) {e : Env} : Own (chunkWaitDone e s) := by
  refine Server.withOwner_cases (fun none => ?_) (fun a _ _ => ?_) fun a c owner live => ?_
  · have clear : (endChunks s.backup).Clear := ⟨(own.clear none).1, (own.clear none).2.1, rfl⟩
    refine ⟨fun a c live => ?_, own.live, own.boundary, fun _ => clear⟩
    have old := own.conns a c live
    exact ⟨old.owner, old.uploading, old.fresh, old.boundary, fun _ => clear⟩
  · exact own.of_eq rfl rfl (.inl rfl) fun _ => rfl
  · exact own.commit live ((own.conns a c live).handOver owner e) rfl

lemma chunkReadDone_stack (b : Board) (now : UInt32) (owner : Option Nat) (r : FlashResult)
    (s : Server) : (chunkReadDone b now owner r s).stack = s.stack ∨
      (chunkReadDone b now owner r s).stack = .chunkWait owner :: s.stack := by
  unfold chunkReadDone
  dsimp only
  split_ifs
  · exact .inl (Server.withOwner_cases (P := fun s' => s'.stack = s.stack) (fun _ => rfl)
      (fun _ _ _ => rfl) fun _ _ _ _ => rfl)
  · exact .inr rfl

lemma Own.boot : Own boot :=
  ⟨fun _ _ live => (by cases live), fun _ h => (by cases h), fun h => (by cases h), fun _ => ⟨rfl, rfl, rfl⟩⟩

lemma LoopEffect.own (eff : LoopEffect b s ev s') (own : Own s) (calm : Calm s)
    (polls : ev.isReadReturn = false → s.stack.any Frame.isChunkRead = false) : Own s' ∧ Calm s' := by
  have unchanged {s' : Server} (h1 : s'.hsGlobal = s.hsGlobal)
      (h2 : s'.boundaryValue = s.boundaryValue) (h3 : s'.backup = s.backup)
      (h4 : s'.conns = s.conns) : Own s' :=
    own.of_eq h1 h2 (.inl h3) fun a => by rw [h4]
  have moved {st : List Frame} (move : StackMove s.stack st) : Calm { s with stack := st } :=
    calm.move move
  have noChunk {st : List Frame} (move : StackMove s.stack st) (ne : ev.isReadReturn = false) :
      st.any Frame.isChunkRead = false := by
    have none := polls ne
    generalize s.stack = st₀ at *
    cases move with
    | same => exact none
    | polled f rest _ => simpa only [List.any_cons, polled_isChunkRead] using none
    | popped rest => exact (Bool.or_eq_false_iff.mp (List.any_cons ▸ none)).2
  have rest {f : Frame} {rest : List Frame} (top : s.stack = f :: rest) : rest.any Frame.isChunkRead = false := by
    simpa [top] using calm.inner
  have single {h t k p} {rest : List Frame} (top : s.stack = .backupRead h t k p :: rest) :
      rest.any Frame.isBackupRead = false := by
    have := calm.single
    rw [top, List.countP_cons_of_pos rfl] at this
    exact List.any_eq_false.mpr (List.countP_eq_zero.mp (by omega))
  have owned {f : Frame} {rest : List Frame} {a : Addr} (top : s.stack = f :: rest)
      (owner : s.hsGlobal = some a) : rest.any Frame.isBackupRead = false := by
    refine List.any_eq_false.mpr fun f mem read => ?_
    cases f with
    | backupRead h t k p =>
      obtain ⟨free, -⟩ := calm.backup h t k p (top ▸ List.mem_cons_of_mem _ mem)
      cases owner.symm.trans free
    | _ => cases read
  have popped {f : Frame} {rest : List Frame} (top : s.stack = f :: rest) :
      Calm { s with stack := rest } := calm.pop top
  cases eff with
  | stays => exact ⟨own, calm⟩
  | polls st dev move => exact ⟨unchanged rfl rfl rfl rfl, (moved move).of_eq rfl rfl rfl rfl⟩
  | waited f st top => exact ⟨unchanged rfl rfl rfl rfl, calm.pop top⟩
  | readies st move ne ready | commands st dev move ne =>
    exact ⟨unchanged rfl rfl rfl rfl, (moved move).push rfl (noChunk move ne) rfl rfl rfl⟩
  | fetches st dev move ne due =>
    have old := moved move
    have chunked := (Server.fetching_iff.mp due).1
    refine ⟨unchanged rfl rfl rfl rfl, fun h t k p mem => ?_, ?_, fun _ => chunked, noChunk move ne⟩
    · exact old.backup h t k p ((List.mem_cons.mp mem).resolve_left (by rintro ⟨⟩))
    · exact old.single
  | dangles h total call p st top gone =>
    exact ⟨unchanged rfl rfl rfl rfl, .of_idle (single top) (rest top)⟩
  | backupReturns e r h total call p st c is top live =>
    obtain ⟨free, -⟩ := calm.backup h total call p (top ▸ List.mem_cons_self)
    have own' : Own { s with stack := st } := unchanged rfl rfl rfl rfl
    refine ⟨own'.commit live ((own'.conns h c live).backupReadDone free) ?_, ?_⟩
    · exact (Keeps.backupReadDone total call r).h
    · exact .of_idle (single top) (rest top)
  | chunkReturns e r call p owner st is top =>
    have chunked := calm.chunk (by simp [top, Frame.isChunkRead])
    have own' : Own { s with stack := st } := unchanged rfl rfl rfl rfl
    refine ⟨own'.chunkReadDone chunked, ?_⟩
    obtain ⟨a, c, eq, -⟩ := own.chunked chunked
    obtain stack | stack := chunkReadDone_stack b e.now owner r { s with stack := st }
    · exact .of_idle (stack ▸ owned top eq) (stack ▸ rest top)
    · exact .of_idle (by simpa [stack, Frame.isBackupRead] using owned top eq)
        (by simpa [stack, Frame.isChunkRead] using rest top)
  | handsOver e owner st top =>
    have own' : Own { s with stack := st } := unchanged rfl rfl rfl rfl
    refine ⟨own'.chunkWaitDone, ?_⟩
    have calm' := popped top
    refine Server.withOwner_cases (fun _ => ?_) (fun a eq _ => ?_) fun a c eq _ => ?_
    · exact ⟨calm'.backup, calm'.single, fun any => absurd ((rest top).symm.trans any) (by decide), calm'.inner⟩
    · exact .of_idle (owned top eq) (rest top)
    · exact .of_idle (owned top eq) (rest top)
  | upgradeWaits st top | enters st top =>
    exact ⟨unchanged rfl rfl rfl rfl, (popped top).push rfl (rest top) rfl rfl rfl⟩
  | upgraded ok st top =>
    unfold upgradeDone
    cases ok
    all_goals
      exact ⟨unchanged rfl rfl rfl rfl, (popped top).push rfl (rest top) rfl rfl rfl⟩
  | reboots => exact ⟨.boot, .of_idle rfl rfl⟩
  | stops is prompt =>
    refine ⟨⟨fun a c live => (by cases live), fun a ha => (by cases ha), fun h => (by cases h),
      fun _ => ⟨rfl, rfl, rfl⟩⟩, fun h t k p _ => ⟨rfl, fun c live => by cases live⟩, calm.single,
      fun any => ?_, calm.inner⟩
    exact absurd ((polls (is ▸ rfl)).symm.trans any) (by decide)
  | starts => exact ⟨unchanged rfl rfl rfl rfl, calm.of_eq rfl rfl rfl rfl⟩

lemma step_own (own : Own s) (calm : Calm s) (quiet : Undisturbed s ev) : Own (step b s ev) ∧ Calm (step b s ev) := by
  have polls (ne : ev.isReadReturn = false) : s.stack.any Frame.isChunkRead = false := by
    by_contra any
    exact absurd (ne.symm.trans (quiet.2 (by simpa using any))) (by decide)
  unfold step
  split_ifs with _ net
  · exact ⟨own, calm⟩
  · have noBackup : s.stack.any Frame.isBackupRead = false := by
      by_contra any
      exact absurd (net.symm.trans (quiet.1 (by simpa using any))) (by decide)
    have ne : ev.isReadReturn = false := by cases ev <;> first | rfl | cases net
    exact netStep_effect.own own noBackup (polls ne)
  · exact ⟨own, calm⟩
  · exact loopStep_effect.own own calm polls

lemma own_reach (rch : Reach (step b) Undisturbed boot s) : Own s ∧ Calm s :=
  rch.invariant (I := fun s => Own s ∧ Calm s) ⟨.boot, .of_idle rfl rfl⟩
    fun _ _ inv quiet => step_own inv.1 inv.2 quiet

end

/-! ## The globals belong to one connection -/

structure Owned (s : Server) : Prop where
  unique : ∀ a a' c c', s.conns a = some c → s.conns a' = some c' →
    c.ownsGlobal = true → c'.ownsGlobal = true → a = a'
  owner : ∀ a, s.hsGlobal = some a ↔ ∃ c, s.conns a = some c ∧ c.ownsGlobal = true
  uploading : ∀ a c, s.conns a = some c → c.state = .uploadRequest →
    c.ownsGlobal = true ∧ c.dataptr = .null
  boundary : s.boundaryValue.isSome = true → ∃ a c, s.conns a = some c ∧ c.ownsGlobal = true

/-- The globals belong to one connection in every state of an undisturbed run. -/
theorem globals_owned (b : Board) (s : Server) (rch : Reach (step b) Undisturbed boot s) :
    Owned s := by
  obtain ⟨own, -⟩ := own_reach rch
  have owner (a : Addr) : s.hsGlobal = some a ↔ ∃ c, s.conns a = some c ∧ c.ownsGlobal = true := by
    refine ⟨fun ha => ?_, by rintro ⟨c, live, owns⟩; exact (own.conns a c live).owner.mp owns⟩
    obtain ⟨c, live⟩ := own.live a ha
    exact ⟨c, live, (own.conns a c live).owner.mpr ha⟩
  refine ⟨fun a a' c c' live live' owns owns' => ?_, owner, fun a c live up => ?_, fun some => ?_⟩
  · exact Option.some.inj (((owner a).mpr ⟨c, live, owns⟩).symm.trans ((owner a').mpr ⟨c', live', owns'⟩))
  · exact (own.conns a c live).uploading up
  · obtain ⟨a, ha⟩ := Option.isSome_iff_exists.mp (own.boundary some)
    exact ⟨a, (owner a).mp ha⟩

def sampleBackup : Segment :=
  ⟨bytes "GET /backup?part=ART&flash=nor&size=1 HTTP/1.0\r\n\r\n", by decide⟩

def apart : List Event :=
  [.accept 0 (some 1), .recv 1 { now := 0 } sampleBackup, .mainPoll,
    .readReturns { now := 0 } ⟨[7], some 1, []⟩, .accept 0 (some 2),
    .recv 2 { now := 0 } sampleFirst]

theorem globals_owned_apart : Along (step sampleBoard) Undisturbed boot apart ∧
    Owned (runAll (step sampleBoard) boot apart) := by
  have quiet : Along (step sampleBoard) Undisturbed boot apart := by decide
  exact ⟨quiet, globals_owned sampleBoard _ (quiet.reach .refl)⟩

def overlap : List Event :=
  [.accept 0 (some 1), .recv 1 { now := 0 } sampleBackup, .mainPoll, .accept 0 (some 2),
    .recv 2 { now := 0 } sampleFirst, .readReturns { now := 0 } ⟨[7], some 1, []⟩]

/-- When an upload begins inside the flash read of a backup, both connections own the globals. -/
theorem two_owners : ¬ Owned (runAll (step sampleBoard) boot overlap) := by
  intro own
  have two : ((runAll (step sampleBoard) boot overlap).conns 1).map (·.ownsGlobal) = some true ∧
      ((runAll (step sampleBoard) boot overlap).conns 2).map (·.ownsGlobal) = some true := by
    decide +kernel
  obtain ⟨c, live, owns⟩ := Option.map_eq_some_iff.mp two.1
  obtain ⟨c', live', owns'⟩ := Option.map_eq_some_iff.mp two.2
  exact absurd (own.unique 1 2 c c' live live' owns owns') (by decide)

end ResQBoot.Failsafe
