import ResQBoot.Lib.Machine
import ResQBoot.Failsafe.Server

/-!
# Handing over a chunk

`backup_chunk_next` reads a chunk, lets the network run, and hands the chunk to whatever connection `hs_global` points
to then. The frames carry the connection that owned the backup when the read began.
-/

namespace ResQBoot.Failsafe

def TouchesOnly (owner : Option Nat) (s s' : Server) : Prop :=
  ∀ a c, s.conns a = some c → some c.pcb.id ≠ owner →
    ∃ c', s'.conns a = some c' ∧ c'.dataptr = c.dataptr ∧ c'.upload = c.upload ∧
      c'.pcb.out = c.pcb.out

def OwnedBy (owner : Option Nat) (s : Server) : Prop :=
  ∀ a c, s.hsGlobal = some a → s.conns a = some c → some c.pcb.id = owner

structure Ineffective (bk : Backup) (c : Conn) : Prop where
  dataptr : c.dataptr = ramPtr bk.dataAddr
  upload : c.upload = bk.dataSize
  nothing : bk.dataSize = 0 ∨ bk.dataAddr = 0

def HandedBack (owner : Option Nat) (s : Server) : Prop :=
  ∀ a c, s.hsGlobal = some a → s.conns a = some c → some c.pcb.id = owner ∨
    Ineffective s.backup c

section
variable {b : Board} {s : Server} {owner : Option Nat} {a : Addr} {c : Conn}

def Server.loaded (s : Server) (c : Conn) : Conn :=
  { c with dataptr := ramPtr s.backup.dataAddr, upload := s.backup.dataSize }

lemma TouchesOnly.of_conns {s' : Server} (eq : s'.conns = s.conns) : TouchesOnly owner s s' :=
  fun a c live _ => ⟨c, by rw [eq]; exact live, rfl, rfl, rfl⟩

lemma chunkWaitDone_conns (e : Env) (owned : s.hsGlobal = some a) (live : s.conns a = some c) :
    (chunkWaitDone e s).conns = Function.update s.conns a (some (sendLoop s.mem e.tcp (s.loaded c))) := by
  unfold chunkWaitDone
  simp only [Server.withOwner, owned, live]
  rfl

lemma chunkWaitDone_idle (e : Env) (free : ∀ a c, s.hsGlobal = some a → s.conns a ≠ some c) :
    (chunkWaitDone e s).conns = s.conns := by
  refine Server.withOwner_cases (P := fun s' => s'.conns = s.conns) (fun _ => rfl) (fun _ _ _ => rfl)
    fun a c owned live => absurd live (free a c owned)

lemma Ineffective.sendLoop (ineff : Ineffective s.backup c) (t : List TcpAnswer) :
    sendLoop s.mem t (s.loaded c) = c := by
  have same : s.loaded c = c := by
    rw [Server.loaded, ← ineff.dataptr, ← ineff.upload]
  rw [same]
  obtain empty | null := ineff.nothing
  · exact sendLoop_empty _ _ _ (ineff.upload.trans empty)
  · refine sendLoop_null _ _ _ (ineff.dataptr.trans ?_)
    simp [ramPtr, null]

lemma handover_iff : (∀ e, TouchesOnly owner s (chunkWaitDone e s)) ↔ HandedBack owner s := by
  constructor
  · intro only a c owned live
    by_contra other
    rw [not_or] at other
    -- TCP takes nothing: pointer and counter are those of the chunk
    obtain ⟨c₀, live₀, ptr, len, -⟩ := only { now := 0 } a c live other.1
    rw [chunkWaitDone_conns _ owned live, Function.update_self] at live₀
    cases live₀
    refine other.2 ⟨ptr.symm, len.symm, ?_⟩
    -- TCP takes one byte: there is none to take
    by_contra some
    rw [not_or] at some
    obtain ⟨c₁, live₁, -, len₁, -⟩ :=
      only { now := 0, tcp := [⟨1, true, true⟩] } a c live other.1
    rw [chunkWaitDone_conns _ owned live, Function.update_self] at live₁
    cases live₁
    have len : s.backup.dataSize = c.upload := len
    have one : min s.backup.dataSize 1 = 1 := by omega
    simp [sendLoop, Server.loaded, ramPtr, some, Conn.accept, one, ← len] at len₁
    omega
  · intro back e a c live other
    by_cases owned : ∃ x d, s.hsGlobal = some x ∧ s.conns x = some d
    · obtain ⟨x, d, owned, there⟩ := owned
      rw [chunkWaitDone_conns e owned there, Function.update_apply]
      split_ifs with here
      · subst here
        cases live.symm.trans there
        have ineff := (back a c owned live).resolve_left other
        exact ⟨c, by rw [ineff.sendLoop], rfl, rfl, rfl⟩
      · exact ⟨c, live, rfl, rfl, rfl⟩
    · refine TouchesOnly.of_conns (chunkWaitDone_idle e fun x d h1 h2 => ?_) a c live other
      exact owned ⟨x, d, h1, h2⟩

lemma readDone_iff : (∀ now r, TouchesOnly owner s (chunkReadDone b now owner r s)) ↔
    OwnedBy owner s := by
  constructor
  · intro only a c owned live
    by_contra other
    obtain ⟨c', live', -⟩ := only 0 ⟨[], none, []⟩ a c live other
    have gone : (chunkReadDone b 0 owner ⟨[], none, []⟩ s).conns a = none := by
      simp [chunkReadDone, FlashResult.count, Server.withOwner, Server.stored, Server.setBackup, owned,
        live, httpdCloseConn, httpdStateReset, Server.work]
    cases gone.symm.trans live'
  · intro back now r a c live other
    unfold chunkReadDone
    dsimp only
    split_ifs
    · refine Server.withOwner_cases
        (P := fun s' => ∃ c', s'.conns a = some c' ∧ c'.dataptr = c.dataptr ∧ c'.upload = c.upload ∧
          c'.pcb.out = c.pcb.out)
        (fun _ => ⟨c, live, rfl, rfl, rfl⟩) (fun _ _ _ => ⟨c, live, rfl, rfl, rfl⟩)
        fun x d owned there => ?_
      have ne : a ≠ x := by
        rintro rfl
        cases live.symm.trans there
        exact other (back a c owned live)
      exact ⟨c, (Function.update_of_ne ne ..).trans live, rfl, rfl, rfl⟩
    · simp only [extendBuilt]
      split_ifs with owned
      · exact absurd (back a c owned live) other
      · exact ⟨c, live, rfl, rfl, rfl⟩

end

/-- **Chunk hand-over.** At the end of the wait of `backup_chunk_next`, whatever has happened inside it,
the hand-over touches only the connection that owned the backup when the read began exactly when the
chunk comes back to that connection; and the return of the read touches only that connection exactly
when it is still the owner. -/
theorem chunk_touches_iff (b : Board) (s : Server) (run : s.crashed = false) (owner : Option Nat)
    (rest : List Frame) :
    (s.stack = .chunkWait owner :: rest →
      ((∀ e ok, TouchesOnly owner s (step b s (.returns e ok))) ↔ HandedBack owner s)) ∧
    (∀ call p, s.stack = .chunkRead call p owner :: rest → p ≠ .poll →
      ((∀ e r, TouchesOnly owner s (step b s (.readReturns e r))) ↔ OwnedBy owner s)) := by
  refine ⟨fun top => ?_, fun call p top ready => ?_⟩
  · have returns (e : Env) (ok : Bool) : step b s (.returns e ok) =
        chunkWaitDone e { s with stack := rest } := by
      simp [step, run, Event.isNet, loopStep, top, Frame.isRead, resumeFrame]
    have iff : (∀ e, TouchesOnly owner s (chunkWaitDone e { s with stack := rest })) ↔
      HandedBack owner s := handover_iff (s := { s with stack := rest })
    rw [← iff]
    exact ⟨fun only e => returns e true ▸ only e true, fun only e ok => returns e ok ▸ only e⟩
  · have returns (e : Env) (r : FlashResult) : step b s (.readReturns e r) =
        chunkReadDone b e.now owner r { s with stack := rest } := by
      simp [step, run, Event.isNet, loopStep, top, Frame.isRead, Frame.phase, ready, readReturns]
    have iff : (∀ now r, TouchesOnly owner s (chunkReadDone b now owner r { s with stack := rest })) ↔
      OwnedBy owner s := readDone_iff (s := { s with stack := rest })
    rw [← iff]
    exact ⟨fun only now r => returns { now := now } r ▸ only { now := now } r,
      fun only e r => returns e r ▸ only e.now r⟩

def sampleLarge : Segment :=
  ⟨bytes "GET /backup?part=rootfs&flash=nand&size=400000000 HTTP/1.0\r\n\r\n", by decide⟩

def waiting : List Event :=
  [.accept 0 (some 1), .recv 1 { now := 0 } sampleLarge,
    .readReturns { now := 0, tcp := [⟨1000, true, true⟩] } ⟨[7], some 1, []⟩,
    .sent 1 { now := 0, tcp := [⟨1000, true, true⟩] }, .sent 1 { now := 0 }, .mainPoll,
    .readReturns { now := 0 } ⟨[8], some 1, []⟩]

theorem chunk_touches_waiting :
    (runAll (step sampleBoard) boot waiting).stack = [.chunkWait (some 0)] ∧
    ∀ e ok, TouchesOnly (some 0) (runAll (step sampleBoard) boot waiting)
      (step sampleBoard (runAll (step sampleBoard) boot waiting) (.returns e ok)) := by
  have top : (runAll (step sampleBoard) boot waiting).stack = [.chunkWait (some 0)] := by
    decide +kernel
  have run : (runAll (step sampleBoard) boot waiting).crashed = false := by decide +kernel
  have global : (runAll (step sampleBoard) boot waiting).hsGlobal = some 1 := by decide +kernel
  have id : ((runAll (step sampleBoard) boot waiting).conns 1).map (·.pcb.id) = some 0 := by
    decide +kernel
  have back : HandedBack (some 0) (runAll (step sampleBoard) boot waiting) := by
    intro a c owned live
    cases global.symm.trans owned
    rw [live] at id
    exact .inl id
  exact ⟨top, ((chunk_touches_iff sampleBoard _ run (some 0) []).1 top).mpr back⟩

def replaced : List Event :=
  waiting ++ [.fin 1 { now := 0 }, .accept 0 (some 2), .recv 2 { now := 0 } sampleFirst]

/-- The hand-over overwrites the count of received bytes of an upload that began during the wait. -/
theorem count_lost :
    (runAll (step sampleBoard) boot replaced).stack = [.chunkWait (some 0)] ∧
    ((runAll (step sampleBoard) boot replaced).conns 2).map (fun c => (c.pcb.id, c.upload)) =
      some (1, 100) ∧
    ((step sampleBoard (runAll (step sampleBoard) boot replaced)
      (.returns { now := 0 } true)).conns 2).map (fun c => (c.pcb.id, c.upload)) = some (1, 0) := by
  decide +kernel

end ResQBoot.Failsafe
