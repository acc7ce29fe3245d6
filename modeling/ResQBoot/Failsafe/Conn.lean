import ResQBoot.Failsafe.Handlers

/-!
# A callback at work on its connection

What the callbacks share. A callback is a function on `Work`: the globals, the devices, the memories, and the
connection `hs` it was called for, which `Server.commit` puts back according to its `Fate`. The LED calls, progress
output and the flash-type caches are left out: nothing modelled reads them.
-/

namespace ResQBoot.Failsafe

structure Work where
  g : Globals
  dev : Devices
  mem : Region → Mem
  h : Addr
  hs : Conn

inductive Fate where
  | keep
  | freed
  | call (f : Frame)
  deriving DecidableEq, Repr

def Server.work (s : Server) (h : Addr) (c : Conn) : Work :=
  { g := s.toGlobals, dev := s.dev, mem := s.mem, h := h, hs := c }

def Server.commit (s : Server) (r : Work × Fate) : Server :=
  { s with
    toGlobals := r.1.g
    dev := r.1.dev
    mem := r.1.mem
    conns := Function.update s.conns r.1.h (if r.2 = .freed then none else some r.1.hs)
    stack := match r.2 with
      | .call f => f :: s.stack
      | _ => s.stack }

structure TcpAnswer where
  sndbuf : Nat
  first : Bool
  second : Bool
  deriving DecidableEq, Repr

structure Env where
  now : UInt32
  dataOk : Bool := true
  boundaryOk : Bool := true
  tcp : List TcpAnswer := []
  deriving DecidableEq, Repr

def httpdStateReset (now : UInt32) (w : Work) : Work :=
  { w with
    hs := { w.hs with
      state := .none
      lastActivity := now
      dataptr := .null
      upload := 0
      uploadTotal := 0
      ownsGlobal := false }
    g := if w.hs.ownsGlobal then
        { w.g with
          hsGlobal := none
          upload := { done := w.g.upload.done, failed := w.g.upload.failed }
          backup := {}
          boundaryValue := none }
      else w.g }

def httpdResetUploadState (g : Globals) : Globals :=
  { g with upload := {}, uploadPending := false, uploadHs := none }

def httpdDiscardPendingUpload (g : Globals) : Globals :=
  { g with
    uploadPending := false
    upload := { g.upload with done := false, failed := false }
    uploadHs := none
    upgradeStatus := 0
    hist := { g.hist with discarded := g.hist.discarded ++ [g.hist.completed.length] } }

def tcpMss : Nat := 1446

def Conn.accept (m : Region → Mem) (c : Conn) (n : Nat) : Conn :=
  { c with
    dataptr := c.dataptr.add n
    upload := c.upload - n
    pcb := { c.pcb with out := c.pcb.out ++ c.dataptr.deref m n } }

def sendLoop (m : Region → Mem) : List TcpAnswer → Conn → Conn
  | [], c => c
  | a :: rest, c =>
    if c.upload = 0 ∨ a.sndbuf = 0 then c
    else
      let n := min c.upload a.sndbuf
      if a.first ∧ c.dataptr ≠ .null then sendLoop m rest (c.accept m n)
      else if tcpMss < n then
        if a.second ∧ c.dataptr ≠ .null then sendLoop m rest (c.accept m (min tcpMss c.upload)) else c
      else c

def httpdSendData (e : Env) (w : Work) : Work :=
  { w with hs := sendLoop w.mem e.tcp w.hs }

def httpdSendStatic (e : Env) (p : Ptr) (n : Nat) (w : Work) : Work :=
  httpdSendData e
    { w with hs := { w.hs with
        state := .fileRequest
        dataptr := p
        upload := n
        trail := { w.hs.trail with built := p.deref w.mem n } } }

def httpdSendText (e : Env) (t : Bytes) (w : Work) : Work :=
  httpdSendStatic e (.text t 0) t.length w

def Answer.stored (a : Answer) (m : Region → Mem) : Region → Mem :=
  match a.store with
  | some (r, t) => Function.update m r ((m r).write 0 t)
  | none => m

def Work.apply (e : Env) (a : Answer) (w : Work) : Work :=
  let w : Work := { w with
    dev := a.dev
    g := { w.g with crashed := w.g.crashed || a.crash }
    mem := a.stored w.mem }
  match a.reply with
  | some (p, n) => httpdSendStatic e p n w
  | none => w

def httpdCloseConn (now : UInt32) (w : Work) : Work × Fate :=
  (httpdStateReset now w, .freed)

@[simp] lemma apply_mem (e : Env) (a : Answer) (w : Work) : (w.apply e a).mem = a.stored w.mem := by
  unfold Work.apply
  dsimp only
  split <;> rfl

lemma Answer.stored_other {a : Answer} {r : Region} (other : ∀ t, a.store ≠ some (r, t))
    (m : Region → Mem) : a.stored m r = m r := by
  cases eq : a.store with
  | none => simp only [Answer.stored, eq]
  | some x =>
    obtain ⟨r', t⟩ := x
    have ne : r ≠ r' := fun same => other t (same ▸ eq)
    simp only [Answer.stored, eq, Function.update_of_ne ne]

/-! ## What sending leaves alone -/

section
variable (m : Region → Mem) (t : List TcpAnswer) (c : Conn)

lemma sendLoop_induction {P : Conn → Prop} (acc : ∀ c n, c.dataptr ≠ .null → n ≤ c.upload → P c →
    P (c.accept m n)) : ∀ (t : List TcpAnswer) (c : Conn), P c → P (sendLoop m t c) := by
  intro t
  induction t with
  | nil => exact fun _ hc => hc
  | cons a rest ih =>
    intro c hc
    rw [sendLoop]
    dsimp only
    split_ifs with _ first _ second
    · exact hc
    · exact ih _ (acc _ _ first.2 (Nat.min_le_left _ _) hc)
    · exact ih _ (acc _ _ second.2 (Nat.min_le_right _ _) hc)
    · exact hc
    · exact hc

@[simp] lemma sendLoop_state : (sendLoop m t c).state = c.state :=
  sendLoop_induction m (P := fun d => d.state = c.state) (fun _ _ _ _ h => h) t c rfl

@[simp] lemma sendLoop_ownsGlobal : (sendLoop m t c).ownsGlobal = c.ownsGlobal :=
  sendLoop_induction m (P := fun d => d.ownsGlobal = c.ownsGlobal) (fun _ _ _ _ h => h) t c rfl

@[simp] lemma sendLoop_id : (sendLoop m t c).pcb.id = c.pcb.id :=
  sendLoop_induction m (P := fun d => d.pcb.id = c.pcb.id) (fun _ _ _ _ h => h) t c rfl

@[simp] lemma sendLoop_trail : (sendLoop m t c).trail = c.trail :=
  sendLoop_induction m (P := fun d => d.trail = c.trail) (fun _ _ _ _ h => h) t c rfl

@[simp] lemma sendData_state (e : Env) (w : Work) : (httpdSendData e w).hs.state = w.hs.state :=
  sendLoop_state ..

@[simp] lemma sendData_owns (e : Env) (w : Work) :
    (httpdSendData e w).hs.ownsGlobal = w.hs.ownsGlobal := sendLoop_ownsGlobal ..

@[simp] lemma sendData_trail (e : Env) (w : Work) : (httpdSendData e w).hs.trail = w.hs.trail :=
  sendLoop_trail ..

@[simp] lemma sendStatic_state (e : Env) (p : Ptr) (n : Nat) (w : Work) :
    (httpdSendStatic e p n w).hs.state = .fileRequest := sendData_state ..

@[simp] lemma sendStatic_owns (e : Env) (p : Ptr) (n : Nat) (w : Work) :
    (httpdSendStatic e p n w).hs.ownsGlobal = w.hs.ownsGlobal := sendData_owns ..

lemma Ptr.deref_split (p : Ptr) {n u : Nat} (le : n ≤ u) : p.deref m n ++ (p.add n).deref m (u - n) = p.deref m u := by
  obtain ⟨d, rfl⟩ := Nat.exists_eq_add_of_le le
  cases p with
  | null => rfl
  | text t off => simp [Ptr.deref, Ptr.add, List.take_add, List.drop_drop]
  | mem r a => simp [Ptr.deref, Ptr.add, Mem.read_add]

lemma sendLoop_stream : (sendLoop m t c).pcb.out ++
    (sendLoop m t c).dataptr.deref m (sendLoop m t c).upload = c.pcb.out ++ c.dataptr.deref m c.upload := by
  refine sendLoop_induction m (P := fun d => d.pcb.out ++ d.dataptr.deref m d.upload =
    c.pcb.out ++ c.dataptr.deref m c.upload) (fun d n _ le eq => ?_) t c rfl
  rw [← eq, ← Ptr.deref_split m d.dataptr le]
  simp [Conn.accept]

lemma sendLoop_out : c.pcb.out <+: (sendLoop m t c).pcb.out :=
  sendLoop_induction m (P := fun d => c.pcb.out <+: d.pcb.out)
    (fun _ _ _ _ pre => pre.trans (List.prefix_append _ _)) t c (List.prefix_refl _)

lemma sendLoop_region {r : Region} (at' : ∃ a, c.dataptr = .mem r a) : ∃ a, (sendLoop m t c).dataptr = .mem r a := by
  refine sendLoop_induction m (P := fun d => ∃ a, d.dataptr = .mem r a) (fun d n _ _ h => ?_) t c at'
  obtain ⟨a, eq⟩ := h
  exact ⟨a + n, by simp [Conn.accept, eq, Ptr.add]⟩

lemma sendLoop_null (null : c.dataptr = .null) : sendLoop m t c = c := by
  cases t with
  | nil => rfl
  | cons a rest => simp [sendLoop, null]

lemma sendLoop_empty (empty : c.upload = 0) : sendLoop m t c = c := by
  cases t with
  | nil => rfl
  | cons a rest => simp [sendLoop, empty]

end

/-! ## Committing a callback -/

lemma update_conns {conns : Addr → Option Conn} {a x : Addr} {v : Option Conn} {c : Conn}
    (live : Function.update conns a v x = some c) : (x = a ∧ v = some c) ∨ (x ≠ a ∧ conns x = some c) := by
  rw [Function.update_apply] at live
  split_ifs at live with here
  · exact .inl ⟨here, live⟩
  · exact .inr ⟨here, live⟩

section
variable (s : Server) (w : Work) (f : Fate)

@[simp] lemma commit_dev : (s.commit (w, f)).dev = w.dev := rfl

@[simp] lemma commit_stack_call (fr : Frame) : (s.commit (w, .call fr)).stack = fr :: s.stack := rfl

@[simp] lemma commit_conns_keep : (s.commit (w, .keep)).conns = Function.update s.conns w.h (some w.hs) :=
  rfl

@[simp] lemma commit_conns_freed : (s.commit (w, .freed)).conns = Function.update s.conns w.h none :=
  rfl

@[simp] lemma commit_conns_call (fr : Frame) :
    (s.commit (w, .call fr)).conns = Function.update s.conns w.h (some w.hs) := rfl

end

end ResQBoot.Failsafe
