import ResQBoot.Failsafe.Stream
import ResQBoot.Failsafe.Handover

/-!
# Backups over whole runs

One backup on a server that is otherwise asked for neither uploads nor backups. `Backing` says how far the backup
is, and `Fits` which calls are on the stack meanwhile. A chunk read that goes through `run_command` polls the main
loop, which starts the same read again: it never returns while the connection lives.
-/

namespace ResQBoot.Failsafe

def Frame.ofBackup : Frame → Bool
  | .backupRead .. => true
  | .chunkRead .. => true
  | .chunkWait _ => true
  | _ => false

def Unasked (s : Server) (ev : Event) : Prop := s.asks ev ≠ some .upload ∧ s.asks ev ≠ some .backup

instance (s : Server) (ev : Event) : Decidable (Unasked s ev) :=
  inferInstanceAs (Decidable (_ ∧ _))

def Frame.call : Frame → Option FlashCall
  | .backupRead _ _ call _ => some call
  | .chunkRead call _ _ => some call
  | _ => none

def Event.result : Event → Option FlashResult
  | .readReturns _ r => some r
  | _ => none

def ReadsFrom (fl : Bytes) (s : Server) (ev : Event) : Prop :=
  ∀ r ∈ ev.result, ∀ call ∈ s.stack.head?.bind Frame.call, Delivers fl call r

instance (fl : Bytes) (s : Server) (ev : Event) : Decidable (ReadsFrom fl s ev) :=
  inferInstanceAs (Decidable (∀ r ∈ ev.result, ∀ call ∈ s.stack.head?.bind Frame.call, Delivers fl call r))

def Stage.Fits (b : Board) (bk : Backup) (frames : List Frame) : Stage → Prop
  | .header => frames.any Frame.ofBackup = false
  | .data => frames.any Frame.ofBackup = false
  | .reading => frames.any Frame.ofBackup = false ∨
    (∃ owner rest, frames = .chunkRead (bk.nextCall b) .direct owner :: rest ∧
      rest.any Frame.ofBackup = false) ∨
    b.readPolls (bk.nextCall b) = true ∧
      ∃ f rest, frames = f :: rest ∧ (f = .command ∨ f.phase = some .poll ∧ f.isChunkRead = true)
  | .waiting => ∃ owner rest, frames = .chunkWait owner :: rest ∧ rest.any Frame.ofBackup = false

structure Idle (s : Server) : Prop where
  free : s.hsGlobal = none
  chunked : s.backup.chunked = false
  chunkBusy : s.backup.chunkBusy = false
  conns : ∀ a c, s.conns a = some c → c.ownsGlobal = false ∧ c.trail.body = none

def FirstRead (h : Addr) (s : Server) : Prop :=
  s.stack.filter Frame.ofBackup = [] ∨ ∃ call p, call.offset = 0 ∧ 0 < s.backup.totalSize ∧
    s.stack.filter Frame.ofBackup = [.backupRead h s.backup.totalSize call p]

/-- The backup of connection `k` at address `h` has not been taken over yet, and at most its first read is going on. -/
structure Begun (h : Addr) (k : Nat) (s : Server) : Prop where
  idle : Idle s
  running : ∀ a c, s.conns a = some c → s.isRunning = true
  first : FirstRead h s
  live : s.stack.filter Frame.ofBackup ≠ [] → ∃ c, s.conns h = some c ∧ c.pcb.id = k

inductive Backing (b : Board) (fl : Bytes) (h : Addr) (k : Nat) (s : Server) : Prop where
  | begun (bg : Begun h k s)
  | streams (c : Conn) (start size : Nat) (st : Stage) (live : s.conns h = some c) (id : c.pcb.id = k)
      (running : s.isRunning = true) (owner : s.hsGlobal = some h)
      (others : ∀ a c, s.conns a = some c → a ≠ h → c.ownsGlobal = false)
      (str : Streams b fl start size st s.backup s.mem c) (fits : st.Fits b s.backup s.stack)
  | gone (dead : ∀ a c, s.conns a = some c → c.pcb.id ≠ k) (known : k < s.nextId)

/-- What a step makes of a backup that has not been taken over; without a read it stays so. -/
def Begun.Next (b : Board) (fl : Bytes) (h : Addr) (k : Nat) (s s' : Server) : Prop :=
  if s.stack.filter Frame.ofBackup = [] then Begun h k s' ∧ s'.stack.filter Frame.ofBackup = [] else Backing b fl h k s'

def Sealed (fl : Bytes) (k : Nat) (s : Server) : Prop :=
  ∀ pcb trail, (pcb, trail) ∈ s.hist.closed → pcb.id = k → ∀ start size,
    trail.body = some (start, size) → pcb.out.drop start = fl.take size ∧ size ≤ fl.length

section
variable {b : Board} {fl : Bytes} {h : Addr} {k : Nat} {s s' : Server} {ev : Event}

lemma Sealed.of_eq (sealed : Sealed fl k s) (closed : s'.hist.closed = s.hist.closed) : Sealed fl k s' :=
  fun pcb trail mem => sealed pcb trail (closed ▸ mem)

lemma Sealed.commit (sealed : Sealed fl k s) {a : Addr} {c : Conn} {cause : Cause} {r : Work × Fate}
    (eff : Effect b cause (s.work a c) r)
    (new : ∀ now, (headerSent ((s.work a c).touch now)).Closing → c.pcb.id = k → ∀ start size,
      c.trail.body = some (start, size) → c.pcb.out.drop start = fl.take size ∧ size ≤ fl.length) :
    Sealed fl k (s.commit r) := by
  obtain same | ⟨-, ⟨now, closing⟩, closed⟩ := eff.closed
  · exact sealed.of_eq same
  intro pcb trail mem
  obtain old | here := List.mem_append.mp (closed ▸ mem)
  · exact sealed pcb trail old
  · obtain ⟨rfl, rfl⟩ := Prod.mk.inj (List.mem_singleton.mp here)
    exact new now closing

variable {h' : Addr} {conns : Addr → Option Conn} {bk : Backup} {chunk : Bytes} {c : Conn} {r : FlashResult}
  {frames frames' rest : List Frame} {size start : Nat} {o : Option Addr} {w : Work}

lemma gone_of_freed (pl : Plain s) (live : s.conns h = some c)
    (id : c.pcb.id = k) (here : w.h = h) : Backing b fl h k (s.commit (w, .freed)) := by
  refine .gone (fun a c' live' => ?_) (id ▸ pl.known h c live)
  rw [commit_conns_freed, here, Function.update_apply] at live'
  split_ifs at live' with eq
  exact fun same => eq (pl.unique a h c' c live' live (same.trans id.symm))

lemma Stage.Fits.leads {st st' : Stage} {bk' : Backup}
    (fits : st.Fits b bk frames) (leads : st.Leads st') (call : bk'.nextCall b = bk.nextCall b) :
    st'.Fits b bk' frames := by
  cases leads with
  | same =>
    cases st with
    | reading =>
      unfold Stage.Fits
      rw [call]
      exact fits
    | _ => exact fits
  | out => exact fits
  | asks => exact .inl fits

lemma Idle.commit (idle : Idle s) {f : Fate}
    (live : s.conns h' = some c) (here : w.h = h') (aside : Aside (s.work h' c) (w, f)) :
    Idle (s.commit (w, f)) := by
  refine ⟨aside.hsGlobal.trans idle.free, (congrArg Backup.chunked aside.backup).trans idle.chunked,
    (congrArg Backup.chunkBusy aside.backup).trans idle.chunkBusy, fun a c' live' => ?_⟩
  obtain ⟨rfl, rfl⟩ | ⟨-, old⟩ := commit_conns live here a c' live'
  · exact ⟨aside.owns, aside.body.trans (idle.conns a c live).2⟩
  · exact idle.conns a c' old

lemma commit_stack {f : Fate} (fate : ∀ fr, f ≠ .call fr) : (s.commit (w, f)).stack = s.stack := by
  cases f with
  | keep | freed => rfl
  | call fr => exact absurd rfl (fate fr)

lemma Begun.Next.backing (next : Begun.Next b fl h k s s') : Backing b fl h k s' := by
  unfold Begun.Next at next
  split_ifs at next
  · exact .begun next.1
  · exact next

lemma Begun.next (bg : Begun h k s') (stack : s.stack.filter Frame.ofBackup = [] → s'.stack.filter Frame.ofBackup = []) :
    Begun.Next b fl h k s s' := by
  unfold Begun.Next
  split_ifs with quiet
  · exact ⟨bg, stack quiet⟩
  · exact .begun bg

lemma Begun.commit (bg : Begun h k s) (pl : Plain s) (shut : Sealed fl k s) (run : s.isRunning = true) {f : Fate}
    (live' : s.conns h' = some c) {cause : Cause} (eff : Effect b cause (s.work h' c) (w, f))
    (keeps : Keeps (s.work h' c) w) (aside : Aside (s.work h' c) (w, f)) :
    Sealed fl k (s.commit (w, f)) ∧ Begun.Next b fl h k s (s.commit (w, f)) := by
  have stack := commit_stack (s := s) (w := w) aside.fate
  have backup : (s.commit (w, f)).backup = s.backup := aside.backup
  have next (live : s.stack.filter Frame.ofBackup ≠ [] → ∃ c, (s.commit (w, f)).conns h = some c ∧ c.pcb.id = k) :
      Begun.Next b fl h k s (s.commit (w, f)) := by
    refine Begun.next ⟨bg.idle.commit live' keeps.h aside, fun _ _ _ => keeps.running.trans run, ?_, stack.symm ▸ live⟩
      fun quiet => stack.symm ▸ quiet
    unfold FirstRead
    rw [stack, backup]
    exact bg.first
  constructor
  · refine shut.commit eff fun _ _ _ start size set => ?_
    cases (bg.idle.conns h' c live').2.symm.trans set
  by_cases quiet : s.stack.filter Frame.ofBackup = []
  · exact next fun some => absurd quiet some
  obtain ⟨c₀, live, id⟩ := bg.live quiet
  by_cases same : h' = h
  · subst same
    obtain rfl := Option.some.inj (live'.symm.trans live)
    cases f with
    | keep =>
      refine next fun _ => ⟨w.hs, ?_, keeps.id.trans id⟩
      rw [commit_conns_keep, keeps.h]
      exact Function.update_self ..
    | freed =>
      rw [Begun.Next, if_neg quiet]
      exact gone_of_freed pl live' id keeps.h
    | call fr => exact absurd rfl (aside.fate fr)
  · refine next fun _ => ⟨c₀, ?_, id⟩
    have here : w.h = h' := keeps.h
    simp only [Server.commit, here]
    exact (Function.update_of_ne (Ne.symm same) ..).trans live

lemma accepted_conns {a x : Addr} {now : UInt32} (unused : s.conns x = none) (live : s.conns a = some c) :
    Function.update s.conns x (some { lastActivity := now, pcb := { id := s.nextId } }) a = some c := by
  rw [Function.update_of_ne, live]
  rintro rfl
  cases unused.symm.trans live

lemma NetEffect.begun (eff : NetEffect b s ev s') (pl : Plain s) (shut : Sealed fl k s) (bg : Begun h k s)
    (run : s.isRunning = true) (un : Unasked s ev) : Sealed fl k s' ∧ Begun.Next b fl h k s s' := by
  cases eff with
  | stays => exact ⟨shut, bg.next id⟩
  | accepts x now unused =>
    refine ⟨shut, Begun.next ⟨⟨bg.idle.free, bg.idle.chunked, bg.idle.chunkBusy, fun a c' live' => ?_⟩, fun _ _ _ => run,
      bg.first, fun some => ?_⟩ fun quiet => quiet⟩
    · obtain ⟨-, new⟩ | ⟨-, old⟩ := update_conns live'
      · cases new
        exact ⟨rfl, rfl⟩
      · exact bg.idle.conns a c' old
    · obtain ⟨c, live, id⟩ := bg.live some
      exact ⟨c, accepted_conns unused live, id⟩
  | calls h' c cause w f live eff keeps why =>
    obtain aside | ⟨new, asked, -⟩ := eff.aside (bg.idle.conns h' c live).1 (by simp [Server.work, bg.idle.free])
      (pl.state h' c live) pl.done fun new up => un.1 (asks_of_cause live new why up)
    · exact bg.commit pl shut run live eff keeps aside
    · exact absurd (asks_of_cause live new why asked) un.2

lemma NetEffect.backing (eff : NetEffect b s ev s') (pl : Plain s) (shut : Sealed fl k s)
    (inv : Backing b fl h k s) (run : s.isRunning = true) (un : Unasked s ev) : Sealed fl k s' ∧ Backing b fl h k s' := by
  cases inv with
  | begun bg => exact (eff.begun pl shut bg run un).imp_right Begun.Next.backing
  | streams c start size st live id running owner others str fits =>
    cases eff with
    | stays => exact ⟨shut, .streams c start size st live id running owner others str fits⟩
    | accepts x now unused =>
      refine ⟨shut, .streams c start size st (accepted_conns unused live) id running owner (fun a c' live' ne => ?_) str
        fits⟩
      obtain ⟨-, new⟩ | ⟨-, old⟩ := update_conns live'
      · cases new
        rfl
      · exact others a c' old ne
    | calls h' c' cause w f live' eff keeps why =>
      have here : w.h = h' := keeps.h
      by_cases same : h' = h
      · subst same
        obtain rfl := Option.some.inj (live'.symm.trans live)
        have shut' : Sealed fl k (s.commit (w, f)) := by
          refine shut.commit eff fun now closing _ start' size' set => ?_
          obtain ⟨rfl, rfl⟩ := Prod.mk.inj (Option.some.inj (str.body.symm.trans set))
          exact str.closing (w := s.work h' c') owner closing
        obtain fate | ⟨fate, owner', call, st', leads, str'⟩ := eff.streams str owner
        · obtain rfl : f = .freed := fate
          exact ⟨shut', gone_of_freed pl live' id keeps.h⟩
        · obtain rfl : f = .keep := fate
          refine ⟨shut', .streams w.hs start size st' ?_ (keeps.id.trans id)
            (keeps.running.trans running) (owner'.trans owner) (fun a c₁ live₁ ne => ?_) str'
            (fits.leads leads call)⟩
          · rw [commit_conns_keep, here, Function.update_self]
          · obtain ⟨rfl, -⟩ | ⟨-, old⟩ := commit_conns live' here a c₁ live₁
            · exact absurd rfl ne
            · exact others a c₁ old ne
      · have apart : s.hsGlobal ≠ some h' := fun eq => same (Option.some.inj (owner.symm.trans eq)).symm
        obtain aside | ⟨new, asked, -⟩ := eff.aside (others h' c' live' same) apart (pl.state h' c' live') pl.done
          fun new up => un.1 (asks_of_cause live' new why up)
        · have backup : (s.commit (w, f)).backup = s.backup := aside.backup
          constructor
          · refine shut.commit eff fun _ _ mine => ?_
            exact absurd (pl.unique h' h c' c live' live (mine.trans id.symm)) same
          · refine .streams c start size st ?_ id (keeps.running.trans running)
              (aside.hsGlobal.trans owner) (fun a c₁ live₁ ne => ?_) ?_ ?_
            · simp only [Server.commit, here]
              exact (Function.update_of_ne (Ne.symm same) ..).trans live
            · obtain ⟨rfl, rfl⟩ | ⟨-, old⟩ := commit_conns live' here a c₁ live₁
              · exact aside.owns
              · exact others a c₁ old ne
            · rw [backup]
              exact str.of_ram aside.ram
            · rw [backup, commit_stack aside.fate]
              exact fits
        · exact absurd (asks_of_cause live' new why asked) un.2
  | gone dead known =>
    cases eff with
    | stays => exact ⟨shut, .gone dead known⟩
    | accepts x now unused =>
      refine ⟨shut, .gone (fun a c' live' => ?_) (Nat.lt_succ_of_lt known)⟩
      obtain ⟨-, new⟩ | ⟨-, old⟩ := update_conns live'
      · cases new
        exact Nat.ne_of_gt known
      · exact dead a c' old
    | calls h' c' cause w f live' eff keeps why =>
      constructor
      · exact shut.commit eff fun _ _ mine => absurd mine (dead h' c' live')
      · refine .gone (fun a c₁ live₁ => ?_) known
        obtain ⟨rfl, rfl⟩ | ⟨-, old⟩ := commit_conns live' keeps.h a c₁ live₁
        · exact keeps.id ▸ dead a c' live'
        · exact dead a c₁ old

/-! ## The main loop -/

@[simp] lemma polled_ofBackup (f : Frame) : f.polled.ofBackup = f.ofBackup := by
  cases f <;> rfl

lemma StackMove.ofBackup {st st' : List Frame} (move : StackMove st st')
    (none : st.any Frame.ofBackup = false) : st'.any Frame.ofBackup = false := by
  cases move with
  | same => exact none
  | polled f rest phase => simpa only [List.any_cons, polled_ofBackup] using none
  | popped rest => exact none

lemma FirstRead.top (first : FirstRead h s) {f : Frame} (top : s.stack = f :: rest) (is : f.ofBackup = true) :
    rest.filter Frame.ofBackup = [] ∧ ∃ call p, call.offset = 0 ∧ 0 < s.backup.totalSize ∧
      f = .backupRead h s.backup.totalSize call p := by
  have head : s.stack.filter Frame.ofBackup = f :: rest.filter Frame.ofBackup := by simp [top, is]
  obtain none | ⟨call, p, zero, pos, one⟩ := first
  · cases head.symm.trans none
  · obtain ⟨rfl, nil⟩ := List.cons.inj (head.symm.trans one)
    exact ⟨nil, call, p, zero, pos, rfl⟩

lemma FirstRead.move (first : FirstRead h s) {st : List Frame} (move : StackMove s.stack st)
    (backup : s'.backup = s.backup) (stack : s'.stack.filter Frame.ofBackup = st.filter Frame.ofBackup) :
    FirstRead h s' := by
  unfold FirstRead at first ⊢
  rw [stack, backup]
  generalize s.stack = st₀ at first move
  cases move with
  | same | popped rest => exact first
  | polled f rest phase =>
    obtain none | ⟨call, p, zero, pos, one⟩ := first
    · left
      rw [List.filter_eq_nil_iff] at none ⊢
      simpa using none
    right
    cases is : f.ofBackup with
    | false =>
      refine ⟨call, p, zero, pos, ?_⟩
      rw [List.filter_cons_of_neg (by simp [is])] at one ⊢
      exact one
    | true =>
      rw [List.filter_cons_of_pos is] at one
      obtain ⟨rfl, nil⟩ := List.cons.inj one
      exact ⟨call, .polled, zero, pos, by rw [List.filter_cons_of_pos rfl, nil]; rfl⟩

lemma backupReadDone_taken {e : Env} {total : Nat} {call : FlashCall}
    (some : 0 < r.count) : (backupReadDone b e total call r w).g.hsGlobal = .some w.h := by
  unfold backupReadDone
  simp only [Nat.ne_of_gt some, if_false]
  rfl

lemma backupReadDone_failed (b : Board) (e : Env) (total : Nat) (call : FlashCall)
    (w : Work) (none : r.count = 0) : (backupReadDone b e total call r w).g = w.g ∧
      (backupReadDone b e total call r w).hs.ownsGlobal = w.hs.ownsGlobal ∧
      (backupReadDone b e total call r w).hs.trail.body = w.hs.trail.body := by
  unfold backupReadDone
  simp only [none, if_true]
  exact ⟨rfl, sendStatic_owns .., by simp [httpdSendStatic]; rfl⟩

lemma LoopEffect.begun (eff : LoopEffect b s ev s') (pl : Plain s) (bg : Begun h k s)
    (reads : s.stack.filter Frame.ofBackup ≠ [] → ReadsFrom fl s ev) : Begun.Next b fl h k s s' := by
  obtain ⟨idle, running, first, here⟩ := bg
  have moved {s' : Server} {st : List Frame} (move : StackMove s.stack st) (h1 : s'.hsGlobal = s.hsGlobal)
      (h2 : s'.backup = s.backup) (h3 : s'.conns = s.conns) (h4 : s'.isRunning = s.isRunning)
      (h5 : s'.stack.filter Frame.ofBackup = st.filter Frame.ofBackup) : Begun.Next b fl h k s s' := by
    have none (quiet : s.stack.filter Frame.ofBackup = []) : s'.stack.filter Frame.ofBackup = [] := by
      rw [h5]
      rw [List.filter_eq_nil_iff, ← List.any_eq_false] at quiet ⊢
      exact move.ofBackup quiet
    exact Begun.next ⟨⟨h1.trans idle.free, h2 ▸ idle.chunked, h2 ▸ idle.chunkBusy, h3 ▸ idle.conns⟩,
      h3 ▸ h4 ▸ running, first.move move h2 h5, fun some => h3 ▸ here (mt none some)⟩ none
  have busy {f : Frame} {rest : List Frame} (top : s.stack = f :: rest) (is : f.ofBackup = true) :
      s.stack.filter Frame.ofBackup ≠ [] := by
    rw [top, List.filter_cons_of_pos is]
    rintro ⟨⟩
  cases eff with
  | stays => exact Begun.next ⟨idle, running, first, here⟩ id
  | polls st dev move | commands st dev move => exact moved move rfl rfl rfl rfl rfl
  | waited f st top is => obtain rfl | rfl := is <;> cases (frames_cons pl.frames top).1
  | readies st move ne ready => cases pl.ready.symm.trans ready
  | fetches st dev move ne due =>
    cases idle.chunked.symm.trans (Server.fetching_iff.mp due).1
  | dangles h' total call p st top gone =>
    obtain ⟨-, _, _, _, _, eq⟩ := first.top top rfl
    obtain ⟨rfl, -⟩ := Frame.backupRead.inj eq
    obtain ⟨c, live, -⟩ := here (busy top rfl)
    cases gone.symm.trans live
  | backupReturns e r h' total call p st c' is top live' =>
    obtain ⟨rest, _, _, zero, pos, eq⟩ := first.top top rfl
    obtain ⟨rfl, rfl, rfl, rfl⟩ := Frame.backupRead.inj eq
    obtain ⟨c, live, id⟩ := here (busy top rfl)
    obtain rfl := Option.some.inj (live'.symm.trans live)
    have del : Delivers fl call r :=
      reads (busy top rfl) r (by simp [is, Event.result]) call (by simp [top, Frame.call])
    have keeps : Keeps (s.work h' c') (backupReadDone b e s.backup.totalSize call r (s.work h' c')) :=
      .backupReadDone _ call r
    have at' : (backupReadDone b e s.backup.totalSize call r (s.work h' c')).h = h' := keeps.h
    have live₀ : ({ s with stack := st } : Server).conns h' = some c' := live
    have running' := keeps.running.trans (running h' c' live)
    obtain none | some := Nat.eq_zero_or_pos r.count
    · obtain ⟨g, owns, body⟩ :=
        backupReadDone_failed b e s.backup.totalSize call (s.work h' c') none
      have backup := congrArg Globals.backup g
      refine Begun.next ⟨⟨(congrArg Globals.hsGlobal g).trans idle.free,
        (congrArg Backup.chunked backup).trans idle.chunked,
        (congrArg Backup.chunkBusy backup).trans idle.chunkBusy, fun a c₁ live₁ => ?_⟩, fun _ _ _ => running', .inl rest,
        fun some => absurd rest some⟩ fun _ => rest
      obtain ⟨rfl, rfl⟩ | ⟨-, old⟩ := commit_conns live₀ at' a c₁ live₁
      · have old := idle.conns a c' live
        exact ⟨owns.trans old.1, body.trans old.2⟩
      · exact idle.conns a c₁ old
    · obtain ⟨start, size, str⟩ := backupReadDone_streams (b := b) (e := e) (w := s.work h' c')
        idle.chunkBusy rfl zero pos del some
      rw [Begun.Next, if_neg (busy top rfl)]
      refine .streams _ start size .header ?_ (keeps.id.trans id) running' (backupReadDone_taken some)
        (fun a c₁ live₁ ne => ?_) str (List.any_eq_false.mpr (List.filter_eq_nil_iff.mp rest))
      · rw [commit_conns_keep, at', Function.update_self]
      obtain ⟨rfl, -⟩ | ⟨-, old⟩ := commit_conns live₀ at' a c₁ live₁
      · exact absurd rfl ne
      · exact (idle.conns a c₁ old).1
  | chunkReturns e r call p owner st is top | handsOver e owner st top =>
    obtain ⟨-, _, _, _, _, eq⟩ := first.top top rfl
    cases eq
  | upgradeWaits st top | enters st top | upgraded ok st top | reboots st top => cases (frames_cons pl.frames top).1
  | stops =>
    unfold Begun.Next
    split_ifs with quiet
    · exact ⟨⟨⟨rfl, rfl, rfl, fun _ _ live => (by cases live)⟩, fun _ _ live => (by cases live), .inl quiet,
        fun some => absurd quiet some⟩, quiet⟩
    · obtain ⟨c, live, id⟩ := here quiet
      exact .gone (fun _ _ live => by cases live) (id ▸ pl.known h c live)
  | starts => exact Begun.next ⟨⟨idle.free, idle.chunked, idle.chunkBusy, idle.conns⟩, fun _ _ _ => rfl, first, here⟩ id

lemma StackMove.blocked {f : Frame} {st : List Frame} (move : StackMove (f :: rest) st)
    (blocks : f.ofBackup = true) : f.phase = some .poll ∧ st = f.polled :: rest := by
  cases f with
  | backupRead h t c p => cases move with
    | same st within => cases within
    | polled f rest phase => exact ⟨phase, rfl⟩
  | chunkRead c p o => cases move with
    | same st within => cases within
    | polled f rest phase => exact ⟨phase, rfl⟩
  | chunkWait o => cases move with
    | same st within => cases within
    | polled f rest phase => cases phase
  | _ => cases blocks

lemma Stage.Fits.move {st : List Frame} (fits : Stage.reading.Fits b bk frames)
    (move : StackMove frames st) : st.any Frame.ofBackup = false ∨ b.readPolls (bk.nextCall b) = true := by
  obtain none | ⟨owner, rest, rfl, -⟩ | ⟨polls, -⟩ := fits
  · exact .inl (move.ofBackup none)
  · cases (move.blocked rfl).1
  · exact .inr polls

lemma Stage.Fits.top {st : Stage} {f : Frame} (fits : st.Fits b bk (f :: rest)) (is : f.ofBackup = true)
    (ready : f.isChunkRead = true → f.phase ≠ some .poll) :
    (st = .reading ∧ ∃ owner, f = .chunkRead (bk.nextCall b) .direct owner ∧ rest.any Frame.ofBackup = false) ∨
    (st = .waiting ∧ ∃ owner, f = .chunkWait owner ∧ rest.any Frame.ofBackup = false) := by
  have none {p : Prop} (none : (f :: rest).any Frame.ofBackup = false) : p :=
    by cases is.symm.trans (Bool.or_eq_false_iff.mp (List.any_cons.symm.trans none)).1
  cases st with
  | header | data => exact none fits
  | reading =>
    obtain no | ⟨owner, _, eq, rest⟩ | ⟨-, _, _, eq, top⟩ := fits
    · exact none no
    · obtain ⟨rfl, rfl⟩ := List.cons.inj eq
      exact .inl ⟨rfl, owner, rfl, rest⟩
    · obtain ⟨rfl, rfl⟩ := List.cons.inj eq
      obtain rfl | ⟨polls, chunk⟩ := top
      · cases is
      · exact absurd polls (ready chunk)
  | waiting =>
    obtain ⟨owner, _, eq, rest⟩ := fits
    obtain ⟨rfl, rfl⟩ := List.cons.inj eq
    exact .inr ⟨rfl, owner, rfl, rest⟩

lemma Stage.Fits.polled {st : Stage}
    (fits : st.Fits b bk frames) (move : StackMove frames frames') (idle : st ≠ .reading) :
    st.Fits b bk frames' := by
  cases st with
  | header | data => exact move.ofBackup fits
  | reading => exact absurd rfl idle
  | waiting =>
    obtain ⟨owner, rest, rfl, -⟩ := fits
    cases (move.blocked rfl).1

lemma Stage.Fits.command {st : Stage} (fits : st.Fits b bk frames) (move : StackMove frames frames') :
    st.Fits b bk (.command :: frames') := by
  cases st with
  | header | data => exact move.ofBackup fits
  | reading =>
    obtain none | polls := fits.move move
    · exact .inl none
    · exact .inr (.inr ⟨polls, _, _, rfl, .inl rfl⟩)
  | waiting =>
    obtain ⟨owner, rest, rfl, -⟩ := fits
    cases (move.blocked rfl).1

lemma Stage.Fits.fetch (fits : Stage.reading.Fits b bk frames) (move : StackMove frames frames') (owner : Option Nat) :
    Stage.reading.Fits b bk (.chunkRead (bk.nextCall b) (b.readPhase (bk.nextCall b)) owner :: frames') := by
  by_cases polls : b.readPolls (bk.nextCall b) = true
  · refine .inr (.inr ⟨polls, _, _, rfl, .inr ⟨?_, rfl⟩⟩)
    simp [Frame.phase, Board.readPhase, polls]
  · have direct : b.readPhase (bk.nextCall b) = .direct := by simp [Board.readPhase, polls]
    rw [direct]
    exact .inr (.inl ⟨owner, frames', rfl, (fits.move move).resolve_right polls⟩)

lemma Streams.fetching {st : Stage}
    (str : Streams b fl start size st s.backup s.mem c) : st = .reading → s.fetching = true := by
  rintro rfl
  obtain ⟨-, busy, -, -, chunked, more⟩ := str.flags
  exact Server.fetching_iff.mpr ⟨chunked, busy, more⟩

lemma extendBuilt_owner (owner : o = some h) (live : conns h = some c) : extendBuilt o chunk conns h =
      some { c with trail := { c.trail with built := c.trail.built ++ chunk } } := by
  simp [extendBuilt, owner, live]

lemma extendBuilt_other {a : Addr} (owner : o = some h) (ne : a ≠ h) : extendBuilt o chunk conns a = conns a := by
  simp [extendBuilt, owner, ne.symm]

lemma LoopEffect.streams (eff : LoopEffect b s ev s') (pl : Plain s)
    {st : Stage} (live : s.conns h = some c) (id : c.pcb.id = k) (running : s.isRunning = true)
    (owner : s.hsGlobal = some h) (others : ∀ a c, s.conns a = some c → a ≠ h → c.ownsGlobal = false)
    (str : Streams b fl start size st s.backup s.mem c) (fits : st.Fits b s.backup s.stack)
    (lt : fl.length < 2 ^ 64) (reads : ReadsFrom fl s ev) : Backing b fl h k s' := by
  cases eff with
  | stays => exact .streams c start size st live id running owner others str fits
  | polls frames dev move why =>
    refine .streams c start size st live id running owner others str (fits.polled move fun due => ?_)
    obtain off | idle := why
    · cases running.symm.trans off
    · cases (str.fetching due).symm.trans idle
  | waited f st top is => obtain rfl | rfl := is <;> cases (frames_cons pl.frames top).1
  | readies st move ne ready => cases pl.ready.symm.trans ready
  | commands frames dev move =>
    exact .streams c start size st live id running owner others str (fits.command move)
  | fetches frames dev move ne due =>
    obtain ⟨-, busy, -⟩ := Server.fetching_iff.mp due
    have flags := str.flags
    cases st with
    | header | data => cases flags.2.1.symm.trans busy
    | reading =>
      exact .streams c start size .reading live id running owner others str (fits.fetch move _)
    | waiting =>
      obtain ⟨_, rest, top, -⟩ := fits
      rw [top] at move
      cases (move.blocked rfl).1
  | dangles h' total call p rest top gone | backupReturns e r h' total call p rest c' is top live' =>
    rw [top] at fits
    obtain ⟨-, _, eq, -⟩ | ⟨-, _, eq, -⟩ := fits.top rfl (by rintro ⟨⟩) <;> cases eq
  | chunkReturns e r call p owner' rest is top ready =>
    rw [top] at fits
    obtain ⟨rfl, _, eq, none⟩ | ⟨-, _, eq, -⟩ := fits.top rfl fun _ => by
      simpa [Frame.phase] using ready
    · obtain ⟨rfl, rfl, rfl⟩ := Frame.chunkRead.inj eq
      have del : Delivers fl (s.backup.nextCall b) r :=
        reads r (by simp [is, Event.result]) _ (by simp [top, Frame.call])
      unfold chunkReadDone
      dsimp only
      split_ifs with failed
      · -- the connection is closed
        have closed : Plain { s with
            stack := rest
            mem := Function.update s.mem .ram ((s.mem .ram).write b.uploadAddr r.stored)
            backup := endChunks s.backup } := ⟨pl.state, pl.done, pl.ready, (frames_cons pl.frames top).2, pl.known, pl.unique⟩
        exact Server.withOwner_owned owner live (gone_of_freed closed live id rfl)
      · refine .streams _ start size .waiting (extendBuilt_owner owner live) id running owner
          (fun a c₁ live₁ ne => ?_) (str.chunkRead lt del (Nat.pos_of_ne_zero failed) _)
          ⟨_, rest, rfl, none⟩
        exact others a c₁ ((extendBuilt_other owner ne).symm.trans live₁) ne
    · cases eq
  | handsOver e owner' rest top =>
    rw [top] at fits
    obtain ⟨-, _, eq, -⟩ | ⟨rfl, _, -, none⟩ := fits.top rfl (by rintro ⟨⟩)
    · cases eq
    refine Server.withOwner_owned (s := { s with stack := rest }) owner live ?_
    refine .streams _ start size .data (Function.update_self ..) ?_ running owner
      (fun a c₁ live₁ ne => ?_) (str.handOver e.tcp) none
    · exact (sendLoop_id ..).trans id
    · obtain ⟨rfl, -⟩ | ⟨-, old⟩ := commit_conns (s := { s with stack := rest }) live rfl a c₁ live₁
      · exact absurd rfl ne
      · exact others a c₁ old ne
  | upgradeWaits st top | enters st top | upgraded ok st top | reboots st top => cases (frames_cons pl.frames top).1
  | stops => exact .gone (fun _ _ live => by cases live) (id ▸ pl.known h c live)
  | starts => exact .streams c start size st live id rfl owner others str fits

lemma step_begun (pl : Plain s) (shut : Sealed fl k s) (bg : Begun h k s) (un : Unasked s ev)
    (reads : s.stack.filter Frame.ofBackup ≠ [] → ReadsFrom fl s ev) :
    Sealed fl k (step b s ev) ∧ Begun.Next b fl h k s (step b s ev) := by
  unfold step
  split_ifs with _ _ net
  · exact ⟨shut, bg.next id⟩
  · exact netStep_effect.begun pl shut bg (Bool.and_eq_true_iff.mp net).1 un
  · exact ⟨shut, bg.next id⟩
  have eff : LoopEffect b s ev (loopStep b s ev) := loopStep_effect
  exact ⟨shut.of_eq (eff.later pl.frames).closed, eff.begun pl bg reads⟩

lemma step_backing (pl : Plain s) (shut : Sealed fl k s) (inv : Backing b fl h k s) (un : Unasked s ev)
    (reads : ReadsFrom fl s ev) (lt : fl.length < 2 ^ 64) :
    Sealed fl k (step b s ev) ∧ Backing b fl h k (step b s ev) := by
  unfold step
  split_ifs with _ _ net
  · exact ⟨shut, inv⟩
  · exact netStep_effect.backing pl shut inv (Bool.and_eq_true_iff.mp net).1 un
  · exact ⟨shut, inv⟩
  have eff : LoopEffect b s ev (loopStep b s ev) := loopStep_effect
  have later := eff.later pl.frames
  refine ⟨shut.of_eq later.closed, ?_⟩
  cases inv with
  | begun bg => exact (eff.begun pl bg fun _ => reads).backing
  | streams c start size st live id running owner others str fits =>
    exact eff.streams pl live id running owner others str fits lt reads
  | gone dead known =>
    refine .gone (fun a c' live' => ?_) (later.next ▸ known)
    obtain ⟨c, old, id, -⟩ := later.conns a c' live'
    exact id ▸ dead a c old

/-! ## Before the request -/

lemma Plain.boot : Plain boot :=
  ⟨fun _ _ live => (by cases live), rfl, rfl, rfl, fun _ _ live => (by cases live),
    fun _ _ _ _ live => (by cases live)⟩

structure Fresh (fl : Bytes) (h : Addr) (k : Nat) (s : Server) : Prop where
  plain : Plain s
  shut : Sealed fl k s
  begun : Begun h k s
  quiet : s.stack.filter Frame.ofBackup = []

lemma fresh_reach (rch : Reach (step b) Unasked boot s) : Fresh fl h k s := by
  refine rch.invariant ⟨.boot, fun _ _ mem => (by cases mem), ⟨⟨rfl, rfl, rfl, fun _ _ live => (by cases live)⟩,
    fun _ _ live => (by cases live), .inl rfl, fun some => absurd rfl some⟩, rfl⟩ fun s ev fr un => ?_
  obtain ⟨shut, next⟩ := step_begun (b := b) fr.plain fr.shut fr.begun un fun some => absurd fr.quiet some
  rw [Begun.Next, if_pos fr.quiet] at next
  exact ⟨step_plain fr.plain un.1, shut, next.1, next.2⟩

lemma request_backing (fr : Fresh fl h c.pcb.id s) (e : Env) {seg : Segment} (live : s.conns h = some c)
    (asked : route seg.data = .backup) :
    Sealed fl c.pcb.id (step b s (.recv h e seg)) ∧ Backing b fl h c.pcb.id (step b s (.recv h e seg)) := by
  have bg := fr.begun
  unfold step
  split_ifs with _ _ net
  · exact ⟨fr.shut, .begun bg⟩
  · have run := (Bool.and_eq_true_iff.mp net).1
    rw [netStep, s.onConn_some live]
    have keeps : Keeps (s.work h c) (httpdRecv b e seg.data (s.work h c)).1 := .recv
    have eff : Effect b ⟨!e.dataOk, some (route seg.data)⟩ (s.work h c)
        (httpdRecv b e seg.data (s.work h c)) := httpdRecv_effect
    obtain aside | ⟨-, -, t, total, call, zero, pos, eq⟩ := eff.aside (bg.idle.conns h c live).1
      (by simp [Server.work, bg.idle.free]) (fr.plain.state h c live) fr.plain.done (by simp [asked])
    · exact (bg.commit fr.plain fr.shut run live eff keeps aside).imp_right Begun.Next.backing
    · rw [eq]
      refine ⟨fr.shut, .begun ⟨⟨bg.idle.free, bg.idle.chunked, bg.idle.chunkBusy, fun a c' live' => ?_⟩,
        fun _ _ _ => run, .inr ⟨call, b.readPhase call, zero, pos, ?_⟩,
        fun _ => ⟨((s.work h c).touch t).hs, Function.update_self .., rfl⟩⟩⟩
      · obtain ⟨rfl, rfl⟩ | ⟨-, old⟩ := commit_conns live rfl a c' live'
        · exact bg.idle.conns a c live
        · exact bg.idle.conns a c' old
      · rw [commit_stack_call, List.filter_cons_of_pos rfl, fr.quiet]
        rfl
  · exact ⟨fr.shut, .begun bg⟩
  · exact ⟨fr.shut, .begun bg⟩

/-! ## The stream of a backup -/

def Undivided (fl : Bytes) (s : Server) (ev : Event) : Prop := Unasked s ev ∧ ReadsFrom fl s ev

instance (fl : Bytes) (s : Server) (ev : Event) : Decidable (Undivided fl s ev) :=
  inferInstanceAs (Decidable (_ ∧ _))

structure Streamed (fl : Bytes) (k : Nat) (s : Server) : Prop where
  live : ∀ a c start size, s.conns a = some c → c.pcb.id = k → c.trail.body = some (start, size) →
    c.pcb.out.drop start <+: fl.take size
  closed : ∀ pcb trail start size, (pcb, trail) ∈ s.hist.closed → pcb.id = k →
    trail.body = some (start, size) →
    pcb.out.drop start = fl.take size ∧ (pcb.out.drop start).length = size

/-- A backup requested where nobody else asks for an upload or a backup is sent as the flash holds it. -/
theorem backup_streams (b : Board) (fl : Flash) (s₀ s : Server) (h : Addr) (c₀ : Conn) (e : Env) (seg : Segment)
    (before : Reach (step b) Unasked boot s₀) (live : s₀.conns h = some c₀) (asked : route seg.data = .backup)
    (after : Reach (step b) (Undivided fl.bytes) (step b s₀ (.recv h e seg)) s) :
    Streamed fl.bytes c₀.pcb.id s := by
  have fr : Fresh fl.bytes h c₀.pcb.id s₀ := fresh_reach before
  have noUpload : s₀.asks (.recv h e seg) ≠ some .upload := by
    simp [Server.asks, asked]
  obtain ⟨pl, shut, inv⟩ := after.invariant
    (I := fun s => Plain s ∧ Sealed fl.bytes c₀.pcb.id s ∧ Backing b fl.bytes h c₀.pcb.id s)
    ⟨step_plain fr.plain noUpload, request_backing fr e live asked⟩ (by
      rintro s ev ⟨pl, shut, inv⟩ ok
      exact ⟨step_plain pl ok.1.1, step_backing pl shut inv ok.1 ok.2 fl.length_lt⟩)
  constructor
  · intro a c start size live' id body
    cases inv with
    | begun bg => cases (bg.idle.conns a c live').2.symm.trans body
    | streams c' start' size' st here id' _ _ _ str _ =>
      obtain rfl := pl.unique a h c c' live' here (id.trans id'.symm)
      obtain rfl := Option.some.inj (live'.symm.trans here)
      obtain ⟨rfl, rfl⟩ := Prod.mk.inj (Option.some.inj (body.symm.trans str.body))
      exact str.sent
    | gone dead known => exact absurd id (dead a c live')
  · intro pcb trail start size mem id body
    obtain ⟨eq, le⟩ := shut pcb trail mem id start size body
    exact ⟨eq, by rw [eq, List.length_take, Nat.min_eq_left le]⟩

end

def chunks : List Event :=
  [.readReturns { now := 0, tcp := [⟨1000, true, true⟩] } ⟨[7], some 1, []⟩,
    .sent 1 { now := 0, tcp := [⟨1000, false, true⟩] }, .pollCb 1 { now := 0, tcp := [⟨1000, true, true⟩] },
    .sent 1 { now := 0 }, .mainPoll, .readReturns { now := 0 } ⟨[8], some 1, []⟩,
    .returns { now := 0, tcp := [⟨1000, true, true⟩] } true]

theorem backup_streams_chunks :
    ((runAll (step sampleBoard) (step sampleBoard sampleServer (.recv 1 { now := 0 } sampleLarge))
      chunks).conns 1).any (fun c => c.trail.body.any fun x => c.pcb.out.drop x.1 = [7, 8]) = true ∧
    Streamed [7, 8, 9] 0 (runAll (step sampleBoard)
      (step sampleBoard sampleServer (.recv 1 { now := 0 } sampleLarge)) chunks) := by
  have run : Along (step sampleBoard) (Undivided [7, 8, 9])
      (step sampleBoard sampleServer (.recv 1 { now := 0 } sampleLarge)) chunks := by decide +kernel
  have before : Reach (step sampleBoard) Unasked boot sampleServer := .tail .refl ⟨by rintro ⟨⟩, by rintro ⟨⟩⟩
  exact ⟨by decide +kernel, backup_streams sampleBoard ⟨[7, 8, 9], by decide⟩ sampleServer _ 1 _
    { now := 0 } sampleLarge before rfl (by decide) (run.reach .refl)⟩

end ResQBoot.Failsafe
