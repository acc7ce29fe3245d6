import Mathlib.Data.List.Infix
import ResQBoot.Failsafe.Commands
import ResQBoot.Failsafe.Requests
import ResQBoot.Failsafe.UploadStore

/-!
# Requests in segments

A request that is no upload is dealt with when its first segment arrives, and what follows is not looked at. A first
segment of one byte makes the server drop the connection, and the command of a `POST /webterm/cmd` has to stand in the
segment that has the path.
-/

namespace ResQBoot.Failsafe

def refused (data : Bytes) : Bool :=
  route data = .bad || route data = .file && (data.length < 6 ||
    !(13 ≤ data.length && hasAt data 4 (bytes "/cgi-bin/")) && (requestPath data).isNone)

def Splits (data : Bytes) (ds : List Segment) : Prop := (ds.map Segment.data).flatten = data ∧ ∀ d ∈ ds, d.data ≠ []

def sendAll (b : Board) (s : Server) (h : Addr) (e : Env) (ds : List Segment) : Server :=
  deliver b s h (ds.map fun d => (e, d))

def Server.drop (s : Server) (h : Addr) (c : Conn) (now : UInt32) : Server :=
  s.commit (httpdCloseConn now ((s.work h c).touch now))

def Server.Confirmed (s : Server) (h : Addr) : Prop :=
  ∃ c, s.conns h = some c ∧ hasAt c.trail.built 9 (bytes "200") = true

structure Server.NewAt (s : Server) (h : Addr) (c : Conn) : Prop where
  run : s.crashed = false
  net : s.netEnabled = true
  live : s.conns h = some c
  state : c.state = .none
  silent : c.trail.built = []

/-! ## Fronts of a request -/

section Fronts

variable {d data : Bytes} {k off i : Nat} {lit : Bytes}

lemma hasAt_front (sub : d <+: data) (yes : hasAt d off lit = true) : hasAt data off lit = true := by
  rw [hasAt, List.isPrefixOf_iff_prefix] at yes ⊢
  exact yes.trans (List.IsPrefix.drop sub off)

lemma getD_front (sub : d <+: data) {x : UInt8} (yes : d.getD i 0 = x) (some_ : x ≠ 0) : data.getD i 0 = x := by
  obtain ⟨rest, rfl⟩ := sub
  have inside : i < d.length := by
    by_contra out
    rw [List.getD_eq_getElem?_getD, List.getElem?_eq_none (by omega), Option.getD_none] at yes
    exact some_ yes.symm
  rwa [List.getD_eq_getElem?_getD, List.getElem?_append_left inside, ← List.getD_eq_getElem?_getD]

lemma not_post (get : hasAt data 0 (bytes "GET") = true) : hasAt data 0 (bytes "POST") = false := by
  refine Bool.eq_false_iff.mpr fun post => ?_
  rw [hasAt, List.isPrefixOf_iff_prefix] at get post
  have sub : bytes "GET" <+: bytes "POST" := List.prefix_of_prefix_length_le get post (by decide)
  exact absurd sub (by decide)

lemma route_fileFront (sub : d <+: data) (file : route data = .file) : route d = .bad ∨ route d = .file := by
  -- what the whole does not have, its front does not have
  have no {off : Nat} {lit : Bytes} (lacks : ¬ hasAt data off lit = true) : ¬ hasAt d off lit = true :=
    fun yes => lacks (hasAt_front sub yes)
  have noEnd {off i : Nat} {lit : Bytes} (lacks : ¬ (hasAt data off lit && decide (data.getD i 0 = 32)) = true) :
      ¬ (hasAt d off lit && decide (d.getD i 0 = 32)) = true := by
    rw [Bool.and_eq_true, decide_eq_true_eq] at lacks ⊢
    exact fun yes => lacks ⟨hasAt_front sub yes.1, getD_front sub yes.2 (by decide)⟩
  unfold route at file
  split_ifs at file with get web status parts backup about mac led btn post
  rw [Bool.and_eq_true] at get
  have post : ¬ (hasAt d 0 (bytes "POST") && isHttpMethodSeparator (d.getD 4 0)) = true := by
    rw [Bool.and_eq_true]
    exact fun yes => absurd (hasAt_front sub yes.1) (by rw [not_post get.1]; exact Bool.false_ne_true)
  unfold route
  rw [if_neg (no web), if_neg (no status), if_neg (noEnd parts), if_neg (no backup), if_neg (noEnd about),
    if_neg (noEnd mac), if_neg (no led), if_neg (noEnd btn), if_neg post]
  split_ifs
  · exact .inr rfl
  · exact .inl rfl

lemma refused_front (sub : d <+: data) (file : route data = .file) (no : refused data = true) : refused d = true := by
  obtain bad | front := route_fileFront sub file
  · simp [refused, bad]
  have path (none_ : requestPath data = none) : requestPath d = none := by
    rw [requestPath, Option.map_eq_none_iff, List.findIdx?_eq_none_iff] at none_ ⊢
    exact fun x mem => none_ x (((List.IsPrefix.drop sub 4).take 26).subset mem)
  have le := sub.length_le
  simp only [refused, file, front, reduceCtorEq, decide_false, decide_true, Bool.false_or, Bool.true_and,
    Bool.or_eq_true, Bool.and_eq_true, Bool.not_eq_true', Bool.and_eq_false_iff, decide_eq_true_eq,
    decide_eq_false_iff_not, Option.isNone_iff_eq_none] at no ⊢
  rcases no with short | ⟨short | other, none_⟩
  · exact .inl (by omega)
  · exact .inr ⟨.inl (by omega), path none_⟩
  · exact .inr ⟨.inr (Bool.eq_false_iff.mpr fun yes => by rw [hasAt_front sub yes] at other; cases other), path none_⟩

section

variable (large : 30 ≤ k)
include large

lemma hasAt_take (inside : off + lit.length ≤ 30) :
    hasAt (data.take k) off lit = hasAt data off lit := by
  rw [hasAt, hasAt, List.drop_take, Bool.eq_iff_iff, List.isPrefixOf_iff_prefix, List.isPrefixOf_iff_prefix,
    List.prefix_take_iff]
  exact and_iff_left (by omega)

lemma getD_take (inside : i < 30) : (data.take k).getD i 0 = data.getD i 0 := by
  rw [List.getD_eq_getElem?_getD, List.getD_eq_getElem?_getD, List.getElem?_take_of_lt (by omega)]

lemma route_take : route (data.take k) = route data := by
  unfold route
  simp (disch := decide) only [hasAt_take large, getD_take large]

lemma understood_take : understood (data.take k) = understood data := by
  unfold understood webtermKnown webtermCommon
  rw [route_take large]
  simp (disch := decide) only [hasAt_take large]

lemma refused_take : refused (data.take k) = refused data := by
  have path : requestPath (data.take k) = requestPath data := by
    have window : ((data.take k).drop 4).take 26 = (data.drop 4).take 26 := by
      rw [List.drop_take, List.take_take, Nat.min_eq_left (by omega)]
    rw [requestPath, requestPath, window]
    cases found : ((data.drop 4).take 26).findIdx? isHttpWhitespace with
    | none => rfl
    | some i =>
      have low : i < 26 := by
        have inside := (List.findIdx?_eq_some_iff_findIdx_eq.mp found).1
        rw [List.length_take] at inside
        omega
      rw [Option.map_some, Option.map_some, List.drop_take, List.take_take, Nat.min_eq_left (by omega)]
  have short : decide ((data.take k).length < 6) = decide (data.length < 6) := by
    rw [decide_eq_decide, List.length_take]
    omega
  have long : decide (13 ≤ (data.take k).length) = decide (13 ≤ data.length) := by
    rw [decide_eq_decide, List.length_take]
    omega
  unfold refused
  rw [route_take large, path, short, long]
  simp (disch := decide) only [hasAt_take large]

end

end Fronts

/-! ## Dropped requests -/

section Refused

variable {b : Board} {e : Env} {d data : Bytes} {w : Work} {dev : Devices}

lemma fileRequest_none_iff : httpdHandleFileRequest b dev d = none ↔ (d.length < 6 ||
    !(13 ≤ d.length && hasAt d 4 (bytes "/cgi-bin/")) && (requestPath d).isNone) = true := by
  rw [httpdHandleFileRequest]
  split_ifs with short cgi
  · simp [short]
  · simp [short, cgi]
  · simp [short, cgi]

lemma httpdRequest_refused (no : refused d = true) : httpdRequest b e d w = httpdCloseConn e.now w := by
  rw [refused, Bool.or_eq_true, Bool.and_eq_true, decide_eq_true_eq, decide_eq_true_eq] at no
  rcases no with bad | ⟨file, none_⟩
  · simp only [httpdRequest, bad, answer]
  · simp only [httpdRequest, file, answer, fileRequest_none_iff.mpr none_]

def Work.Held (r : Work × Fate) : Prop :=
  (∃ f, r.2 = .call f) ∨ r.2 = .keep ∧ (r.1.g.crashed = true ∨ r.1.hs.state = .fileRequest)

lemma apply_held {g : Globals} {r : Route} {a : Answer} (found : answer b g dev d r = some a)
    (known : (r ≠ .webterm || webtermKnown d) = true) : Work.Held (w.apply e a, .keep) := by
  refine .inr ⟨rfl, ?_⟩
  cases crash : a.crash with
  | true =>
    refine .inl ?_
    simp [apply_crashed, crash]
  | false =>
    have reply : a.reply.isSome = true := (answer_reply found crash).trans known
    obtain ⟨x, eq⟩ := Option.isSome_iff_exists.mp reply
    refine .inr ?_
    simp [Work.apply, eq]

lemma httpdRequest_held (other : route d ≠ .upload) (yes : refused d = false) (known : understood d = true) :
    Work.Held (httpdRequest b e d w) := by
  rw [refused, Bool.or_eq_false_iff, decide_eq_false_iff_not] at yes
  obtain ⟨good, page⟩ := yes
  rw [understood] at known
  cases path : route d <;> simp only [path] at known <;> simp only [httpdRequest, path]
  case upload => exact absurd path other
  case bad => exact absurd path good
  case backup =>
    unfold httpdHandleBackup
    split_ifs
    · exact .inr ⟨rfl, .inr (by simp [httpdSendText])⟩
    · split
      · exact .inr ⟨rfl, .inr (by simp [httpdSendText])⟩
      · exact .inl ⟨_, rfl⟩
  case file =>
    rw [path, decide_eq_true rfl, Bool.true_and] at page
    cases found : answer b w.g w.dev d .file with
    | none =>
      rw [fileRequest_none_iff.mp found] at page
      cases page
    | some a => exact apply_held found known
  all_goals exact apply_held (b := b) (g := w.g) (d := d) rfl known

end Refused

/-! ## Runs -/

section Runs

variable {b : Board} {s t : Server} {h : Addr} {c : Conn} {e : Env}

lemma deliver_cons (x : Env × Segment) (segs : List (Env × Segment)) :
    deliver b s h (x :: segs) = deliver b (step b s (.recv h x.1 x.2)) h segs := rfl

lemma deliver_absent (gone : s.conns h = none) (segs : List (Env × Segment)) : deliver b s h segs = s := by
  induction segs with
  | nil => rfl
  | cons x rest ih => rw [deliver_cons, step_recv_absent gone, ih]

variable {data : Bytes} {d : Segment}

lemma sendAll_refused (new : s.NewAt h c) (no : e.dataOk = false ∨ refused d.data = true)
    (ds : List Segment) : sendAll b s h e (d :: ds) = s.drop h c e.now := by
  have recv : httpdRecv b e d.data (s.work h c) = httpdCloseConn e.now ((s.work h c).touch e.now) := by
    by_cases ok : e.dataOk = true
    · rw [recv_new ok new.state, httpdRequest_refused (no.resolve_left (by simp [ok]))]
    · exact recv_lost ok
  rw [sendAll, List.map_cons, deliver_cons, step_recv new.run new.net new.live, recv]
  exact deliver_absent (Function.update_self ..) _

def inBytes (data : Bytes) : List Segment := data.map fun x => ⟨[x], Nat.one_lt_two_pow (by decide)⟩

lemma inBytes_splits (data : Bytes) : Splits data (inBytes data) := by
  constructor
  · rw [inBytes, List.map_map, ← List.flatMap_def]
    exact List.flatMap_singleton' data
  · rintro d mem
    obtain ⟨x, -, rfl⟩ := List.mem_map.mp mem
    exact List.cons_ne_nil _ _

def Kept (s : Server) (h : Addr) (t : Server) : Prop :=
  s.stack.length < t.stack.length ∨ ∃ c, t.conns h = some c ∧ (t.crashed = true ∨ c.state = .fileRequest)

lemma commit_stack_le (s : Server) (r : Work × Fate) : s.stack.length ≤ (s.commit r).stack.length := by
  obtain ⟨w, f⟩ := r
  cases f <;> simp [Server.commit]

lemma Kept.next (kept : Kept s h t) (ok : e.dataOk = true) (d : Segment) : Kept s h (step b t (.recv h e d)) := by
  cases run : t.crashed with
  | true =>
    have stays : step b t (.recv h e d) = t := deliver_stopped (.inl run) [(e, d)]
    rwa [stays]
  | false =>
    cases net : t.netEnabled with
    | false =>
      have stays : step b t (.recv h e d) = t := deliver_stopped (.inr net) [(e, d)]
      rwa [stays]
    | true =>
      cases live : t.conns h with
      | none => rwa [step_recv_absent live]
      | some c =>
        rw [step_recv run net live]
        obtain called | ⟨c', live', answered⟩ := kept
        · exact .inl (Nat.lt_of_lt_of_le called (commit_stack_le ..))
        obtain rfl : c = c' := Option.some.inj (live.symm.trans live')
        have state : c.state = .fileRequest := answered.resolve_left (by simp [run])
        rw [recv_answered ok state]
        exact .inr ⟨_, Function.update_self .., .inr state⟩

lemma Kept.run (kept : Kept s h t) (ok : e.dataOk = true) (ds : List Segment) : Kept s h (sendAll b t h e ds) := by
  induction ds generalizing t with
  | nil => exact kept
  | cons d ds ih => exact ih (kept.next ok d)

lemma Kept.ne_drop (kept : Kept s h t) : t ≠ s.drop h c e.now := by
  rintro rfl
  obtain called | ⟨c', live, -⟩ := kept
  · exact absurd called (Nat.lt_irrefl _)
  · have gone : (s.drop h c e.now).conns h = none := Function.update_self ..
    cases gone.symm.trans live

lemma first_kept (new : s.NewAt h c) (ok : e.dataOk = true) (other : route d.data ≠ .upload)
    (yes : refused d.data = false) (known : understood d.data = true) : Kept s h (step b s (.recv h e d)) := by
  have recv : httpdRecv b e d.data (s.work h c) = httpdRequest b e d.data ((s.work h c).touch e.now) :=
    recv_new ok new.state
  have here : (httpdRecv b e d.data (s.work h c)).1.h = h := Keeps.recv.h
  have held : Work.Held (httpdRecv b e d.data (s.work h c)) := by
    rw [recv]
    exact httpdRequest_held other yes known
  rw [step_recv new.run new.net new.live]
  generalize httpdRecv b e d.data (s.work h c) = r at here held
  obtain ⟨w, f⟩ := r
  obtain rfl : w.h = h := here
  obtain ⟨f', rfl : f = _⟩ | ⟨rfl : f = _, answered⟩ := held
  · exact .inl (by simp)
  · exact .inr ⟨w.hs, by simp, answered⟩

def longFirst (data : Bytes) : List Segment :=
  ⟨data.take (2 ^ 16 - 1), by rw [List.length_take]; omega⟩ :: inBytes (data.drop (2 ^ 16 - 1))

lemma longFirst_splits (some_ : data ≠ []) : Splits data (longFirst data) := by
  obtain ⟨whole, all⟩ := inBytes_splits (data.drop (2 ^ 16 - 1))
  constructor
  · rw [longFirst, List.map_cons, List.flatten_cons, whole]
    exact List.take_append_drop ..
  · rw [longFirst, List.forall_mem_cons]
    refine ⟨fun empty => some_ ?_, all⟩
    exact (List.take_eq_nil_iff.mp empty).resolve_left (by decide)

lemma refused_byte (x : UInt8) : refused [x] = true := by
  have short {lit : Bytes} (long : 1 < lit.length) : hasAt [x] 0 lit = false := by
    refine Bool.eq_false_iff.mpr fun yes => ?_
    rw [hasAt, List.isPrefixOf_iff_prefix] at yes
    exact absurd yes.length_le (Nat.not_le.mpr long)
  have get : hasAt [x] 0 (bytes "GET") = false := short (by decide)
  have post : hasAt [x] 0 (bytes "POST") = false := short (by decide)
  simp [refused, route, get, post]

lemma Splits.first {ds : List Segment} (sp : Splits data ds) (some_ : data ≠ []) :
    ∃ d rest, ds = d :: rest ∧ d.data <+: data := by
  obtain ⟨rfl, -⟩ := sp
  cases ds with
  | nil => exact absurd rfl some_
  | cons d rest => exact ⟨d, rest, rfl, List.prefix_append ..⟩

lemma longFirst_kept (new : s.NewAt h c) (ok : e.dataOk = true) (other : route data ≠ .upload)
    (yes : refused data = false) (known : understood data = true) :
    sendAll b s h e (longFirst data) ≠ s.drop h c e.now := by
  have large : 30 ≤ 2 ^ 16 - 1 := by decide
  have first : Kept s h (step b s (.recv h e ⟨data.take (2 ^ 16 - 1), by rw [List.length_take]; omega⟩)) := by
    refine first_kept new ok ?_ ?_ ?_
    · rwa [route_take large]
    · rwa [refused_take large]
    · rwa [understood_take large]
  exact (first.run ok _).ne_drop

lemma unknown_kept (new : s.NewAt h c) (ok : e.dataOk = true) (d : Segment) (unknown : understood d.data = false) :
    sendAll b s h e [d] ≠ s.drop h c e.now := by
  rw [understood, Bool.or_eq_false_iff, decide_eq_false_iff_not, not_not] at unknown
  have recv : httpdRecv b e d.data (s.work h c) =
      (((s.work h c).touch e.now).apply e (httpdHandleWebterm s.dev s.isRunning d.data), .keep) := by
    rw [recv_new ok new.state]
    simp only [httpdRequest, unknown.1, answer]
    rfl
  have here : (httpdRecv b e d.data (s.work h c)).1.h = h := Keeps.recv.h
  have live : (sendAll b s h e [d]).conns h ≠ none := by
    have one : sendAll b s h e [d] = step b s (.recv h e d) := rfl
    rw [recv] at here
    rw [one, step_recv new.run new.net new.live, recv, commit_conns_keep, Function.update_apply, if_pos here.symm]
    exact Option.some_ne_none _
  have gone : (s.drop h c e.now).conns h = none := Function.update_self ..
  intro eq
  rw [eq] at live
  exact live gone

lemma splits_equal_iff (new : s.NewAt h c) (other : route data ≠ .upload) (good : route data ≠ .bad) :
    (∀ ds ds', Splits data ds → Splits data ds' → sendAll b s h e ds = sendAll b s h e ds') ↔
      e.dataOk = false ∨ refused data = true ∨ (understood data = false ∧ 2 ^ 16 ≤ data.length ∧
        ∀ ds, Splits data ds → sendAll b s h e ds = s.drop h c e.now) := by
  have some_ : data ≠ [] := by
    rintro rfl
    exact good rfl
  have equal (all : ∀ ds, Splits data ds → sendAll b s h e ds = s.drop h c e.now) :
      ∀ ds ds', Splits data ds → Splits data ds' → sendAll b s h e ds = sendAll b s h e ds' :=
    fun ds ds' sp sp' => (all ds sp).trans (all ds' sp').symm
  constructor
  · intro same
    -- byte by byte the connection is dropped
    have all (ds : List Segment) (sp : Splits data ds) : sendAll b s h e ds = s.drop h c e.now := by
      refine (same ds (inBytes data) sp (inBytes_splits data)).trans ?_
      obtain ⟨x, rest, rfl⟩ := List.exists_cons_of_ne_nil some_
      exact sendAll_refused new (.inr (refused_byte x)) _
    cases ok : e.dataOk with
    | false => exact .inl rfl
    | true =>
      refine .inr ?_
      cases yes : refused data with
      | true => exact .inl rfl
      | false =>
        have unknown : understood data = false :=
          Bool.eq_false_iff.mpr fun known => longFirst_kept new ok other yes known (all _ (longFirst_splits some_))
        refine .inr ⟨unknown, ?_, all⟩
        by_contra short
        have one : Splits data [⟨data, by omega⟩] := ⟨List.append_nil _, by simpa using some_⟩
        exact unknown_kept new ok ⟨data, by omega⟩ unknown (all _ one)
  · rintro (fails | no | ⟨-, -, all⟩)
    · refine equal fun ds sp => ?_
      obtain ⟨d, rest, rfl, -⟩ := sp.first some_
      exact sendAll_refused new (.inl fails) rest
    · have file : route data = .file := by
        rw [refused, Bool.or_eq_true, decide_eq_true_eq, Bool.and_eq_true, decide_eq_true_eq] at no
        exact (no.resolve_left good).1
      refine equal fun ds sp => ?_
      obtain ⟨d, rest, rfl, sub⟩ := sp.first some_
      exact sendAll_refused new (.inr (refused_front sub file no)) rest
    · exact equal all

end Runs

/-! ## Commands -/

section Commands

variable {b : Board} {s : Server} {h : Addr} {c : Conn} {e : Env} {d data : Bytes} {w : Work} {f : Fate}
  {Q : Work → Prop}

structure Over (Q : Work → Prop) (r : Work × Fate) : Prop where
  well : r.1.g.crashed = false
  holds : Q r.1
  fate : r.2 = .freed ∨ r.2 = .keep ∧ r.1.hs.state = .fileRequest

def Lasting (Q : Work → Prop) : Prop := ∀ w now, Q w → Q (w.touch now) ∧ Q (httpdStateReset now w)

lemma reset_crashed (now : UInt32) (w : Work) : (httpdStateReset now w).g.crashed = w.g.crashed := by
  unfold httpdStateReset
  dsimp only
  split <;> rfl

lemma Over.drop (last : Lasting Q) (run : w.g.crashed = false) (holds : Q w) : Over Q (httpdCloseConn e.now w) :=
  ⟨(reset_crashed ..).trans run, (last _ _ holds).2, .inl rfl⟩

lemma Over.recv (last : Lasting Q) (done : Over Q (w, .keep)) : Over Q (httpdRecv b e d w) := by
  have state : w.hs.state = .fileRequest := by
    obtain freed | ⟨-, state⟩ := done.fate
    · cases freed
    · exact state
  have touched := (last _ e.now done.holds).1
  by_cases ok : e.dataOk = true
  · rw [recv_answered ok state]
    exact ⟨done.well, touched, .inr ⟨rfl, state⟩⟩
  · rw [recv_lost ok]
    exact .drop last done.well touched

lemma Over.sane (done : Over Q (w, f)) : w.g.crashed = false ∧ (f = .keep ∨ f = .freed) :=
  ⟨done.well, done.fate.symm.imp_left And.left⟩

lemma Over.run (last : Lasting Q) (tr : Tracks h (Over Q) s) (segs : List (Env × Segment)) :
    Tracks h (Over Q) (deliver b s h segs) := by
  induction segs generalizing s with
  | nil => exact tr
  | cons x rest ih =>
    exact ih (tr.step x.1 x.2 (fun w f now => now.sane) (fun w now => now.recv last) fun w gone => gone)

def Unconfirmed (w : Work) : Prop := hasAt w.hs.trail.built 9 (bytes "200") = false

lemma unconfirmed_lasting : Lasting Unconfirmed := fun _ _ un => ⟨un, un⟩

variable {seg : Segment} {P P' : Work × Fate → Prop}

lemma Tracks.unconfirmed (tr : Tracks h P s) (un : ∀ w, P (w, .keep) → Unconfirmed w) : ¬ s.Confirmed h := by
  rintro ⟨c, live, yes⟩
  obtain ⟨c', live', holds⟩ | ⟨gone, -⟩ := tr.holds
  · obtain rfl : c = c' := Option.some.inj (live.symm.trans live')
    cases yes.symm.trans (un _ holds)
  · cases live.symm.trans gone

structure Listening (r : Work × Fate) : Prop where
  well : r.1.g.crashed = false
  fate : r.2 = .keep
  state : r.1.hs.state = .none
  silent : Unconfirmed r.1

lemma Listening.sane (wait : Listening (w, f)) : w.g.crashed = false ∧ (f = .keep ∨ f = .freed) :=
  ⟨wait.well, .inl wait.fate⟩

lemma Listening.fails (wait : Listening (w, .keep)) (fails : e.dataOk = false) :
    Over Unconfirmed (httpdRecv b e d w) := by
  rw [recv_lost (by simp [fails])]
  exact .drop unconfirmed_lasting wait.well wait.silent

lemma Listening.refused (wait : Listening (w, .keep)) (no : refused d = true) :
    Over Unconfirmed (httpdRecv b e d w) := by
  cases ok : e.dataOk with
  | false => exact wait.fails ok
  | true =>
    rw [recv_new ok wait.state, httpdRequest_refused no]
    exact .drop unconfirmed_lasting wait.well wait.silent

lemma Server.NewAt.listens (new : s.NewAt h c) : Listening (s.work h c, .keep) := by
  refine ⟨new.run, rfl, new.state, ?_⟩
  have built : (s.work h c).hs.trail.built = [] := new.silent
  rw [Unconfirmed, built]
  decide

lemma Server.NewAt.listening (new : s.NewAt h c) : Tracks h Listening s :=
  ⟨new.run, new.net, .inl ⟨c, new.live, new.listens⟩⟩

lemma fronts : ∀ n < 17, route ((bytes "POST /webterm/cmd").take n) = .bad ∨
    route ((bytes "POST /webterm/cmd").take n) = .upload ∧
      httpdParseContentLength ((bytes "POST /webterm/cmd").take n) = none ∨
    route ((bytes "POST /webterm/cmd").take n) = .webterm ∧
      webtermKnown ((bytes "POST /webterm/cmd").take n) = false ∧ 13 ≤ n := by
  decide

lemma command_front (command : isCommand data = true) (sub : d <+: data) (part : isCommand d = false) :
    d = (bytes "POST /webterm/cmd").take d.length ∧ d.length < 17 := by
  rw [isCommand, hasAt, List.drop_zero, List.isPrefixOf_iff_prefix] at command
  have long : (bytes "POST /webterm/cmd").length = 17 := by decide
  obtain inside | beyond := List.prefix_or_prefix_of_prefix sub command
  · refine ⟨List.prefix_iff_eq_take.mp inside, ?_⟩
    by_contra full
    obtain rfl := inside.eq_of_length_le (by omega)
    rw [isCommand, hasAt, List.drop_zero, List.isPrefixOf_iff_prefix.mpr List.prefix_rfl] at part
    cases part
  · rw [isCommand, hasAt, List.drop_zero, List.isPrefixOf_iff_prefix.mpr beyond] at part
    cases part

lemma Listening.unknown (wait : Listening (w, .keep)) (ok : e.dataOk = true) (web : route d = .webterm)
    (unknown : webtermKnown d = false) : Listening (httpdRecv b e d w) := by
  have reply : (httpdHandleWebterm (w.touch e.now).dev (w.touch e.now).g.isRunning d).reply = none := by
    rw [← Option.isNone_iff_eq_none, ← Option.not_isSome, httpdHandleWebterm_reply, unknown]
    rfl
  have returns : (httpdHandleWebterm (w.touch e.now).dev (w.touch e.now).g.isRunning d).crash = false := by
    rw [httpdHandleWebterm]
    cases webtermAnswer (w.touch e.now).dev.term (w.touch e.now).g.isRunning d with
    | mk term text => cases text <;> rfl
  rw [recv_new ok wait.state]
  simp only [httpdRequest, web, answer, Work.apply, reply, returns, Bool.or_false]
  exact ⟨wait.well, rfl, wait.state, wait.silent⟩

lemma Listening.front (wait : Listening (w, .keep)) (command : isCommand data = true) (sub : d <+: data)
    (part : isCommand d = false) :
    Over Unconfirmed (httpdRecv b e d w) ∨ 13 ≤ d.length ∧ Listening (httpdRecv b e d w) := by
  cases ok : e.dataOk with
  | false => exact .inl (wait.fails ok)
  | true =>
    obtain ⟨eq, short⟩ := command_front command sub part
    have cases_ := fronts d.length short
    rw [← eq] at cases_
    obtain bad | ⟨upload, none_⟩ | ⟨web, unknown, long⟩ := cases_
    · exact .inl (wait.refused (by simp [Failsafe.refused, bad]))
    · refine .inl ?_
      rw [recv_new ok wait.state]
      simp only [httpdRequest, upload, httpdStartUpload, none_]
      split_ifs
      · refine ⟨wait.well, ?_, .inr ⟨rfl, by simp [httpdSendText]⟩⟩
        simp only [Unconfirmed, httpdSendText, httpdSendStatic, sendData_trail, Ptr.deref]
        decide
      · exact .drop unconfirmed_lasting wait.well wait.silent
    · exact .inr ⟨long, wait.unknown ok web unknown⟩

lemma refused_letter {x : UInt8} (get : x ≠ 71) (post : x ≠ 80) (t : Bytes) : refused (x :: t) = true := by
  have other {lit : Bytes} {y : UInt8} {l : Bytes} (eq : lit = y :: l) (ne : x ≠ y) : hasAt (x :: t) 0 lit = false := by
    refine Bool.eq_false_iff.mpr fun yes => ?_
    rw [eq, hasAt, List.drop_zero, List.isPrefixOf_iff_prefix, List.cons_prefix_cons] at yes
    exact ne yes.1.symm
  have noGet : hasAt (x :: t) 0 (bytes "GET") = false := other (y := 71) (l := bytes "ET") (by decide) get
  have noPost : hasAt (x :: t) 0 (bytes "POST") = false := other (y := 80) (l := bytes "OST") (by decide) post
  simp [refused, route, noGet, noPost]

lemma tails : ∀ n < 17, 13 ≤ n → ∃ x ∈ (bytes "POST /webterm/cmd").drop n |>.head?, x ≠ 71 ∧ x ≠ 80 := by
  decide

lemma refused_tail (command : isCommand data = true) {d' rest : Bytes} (eq : d ++ d' ++ rest = data)
    (part : isCommand d = false) (long : 13 ≤ d.length) (some_ : d' ≠ []) : refused d' = true := by
  obtain ⟨-, short⟩ := command_front command ⟨d' ++ rest, by rw [← eq, List.append_assoc]⟩ part
  obtain ⟨x, head, get, post⟩ := tails d.length short long
  rw [isCommand, hasAt, List.drop_zero, List.isPrefixOf_iff_prefix] at command
  obtain ⟨y, t, rfl⟩ := List.exists_cons_of_ne_nil some_
  obtain ⟨more, text⟩ := command
  have len : (bytes "POST /webterm/cmd").length = 17 := by decide
  have here : (data.drop d.length).head? = some y := by
    rw [← eq, List.append_assoc, List.drop_left]
    rfl
  have there : (data.drop d.length).head? = some x := by
    rw [← text, List.drop_append_of_le_length (by omega), List.head?_append, Option.mem_def.mp head]
    rfl
  obtain rfl : x = y := Option.some.inj (there.symm.trans here)
  exact refused_letter get post t

lemma Tracks.mono (tr : Tracks h P s) (imp : ∀ r, P r → P' r) : Tracks h P' s := by
  obtain ⟨c, live, yes⟩ | ⟨gone, c, yes⟩ := tr.holds
  · exact ⟨tr.run, tr.net, .inl ⟨c, live, imp _ yes⟩⟩
  · exact ⟨tr.run, tr.net, .inr ⟨gone, c, imp _ yes⟩⟩

lemma Tracks.or (tr : Tracks h (fun r => P r ∨ P' r) s) : Tracks h P s ∨ Tracks h P' s := by
  obtain ⟨c, live, yes | yes⟩ | ⟨gone, c, yes | yes⟩ := tr.holds
  · exact .inl ⟨tr.run, tr.net, .inl ⟨c, live, yes⟩⟩
  · exact .inr ⟨tr.run, tr.net, .inl ⟨c, live, yes⟩⟩
  · exact .inl ⟨tr.run, tr.net, .inr ⟨gone, c, yes⟩⟩
  · exact .inr ⟨tr.run, tr.net, .inr ⟨gone, c, yes⟩⟩

lemma fails_unconfirmed (new : s.NewAt h c) (fails : e.dataOk = false) (rest : List (Env × Segment))
    (k : Nat) : ¬ (deliver b s h (((e, seg) :: rest).take k)).Confirmed h := by
  cases k with
  | zero => exact new.listening.unconfirmed fun w wait => wait.silent
  | succ k =>
    have first : Tracks h (Over Unconfirmed) (step b s (.recv h e seg)) :=
      new.listening.step e seg (fun w f done => done.sane) (fun w wait => wait.fails fails) fun w wait => by
        cases wait.fate
    rw [List.take_succ_cons, deliver_cons]
    exact (Over.run unconfirmed_lasting first _).unconfirmed fun w done => done.holds

lemma part_unconfirmed (new : s.NewAt h c) {rest : List (Env × Segment)}
    (command : isCommand data = true) (whole : (segBytes ((e, seg) :: rest)).flatten = data)
    (full : ∀ x ∈ rest, x.2.data ≠ []) (part : isCommand seg.data = false) (k : Nat) :
    ¬ (deliver b s h (((e, seg) :: rest).take k)).Confirmed h := by
  have sub : seg.data <+: data := ⟨(segBytes rest).flatten, whole⟩
  cases k with
  | zero => exact new.listening.unconfirmed fun w wait => wait.silent
  | succ k =>
    have first : Tracks h (fun r => Over Unconfirmed r ∨ 13 ≤ seg.data.length ∧ Listening r)
        (step b s (.recv h e seg)) := by
      refine new.listening.step e seg ?_ (fun w wait => wait.front command sub part) fun w wait => ?_
      · rintro w f (done | ⟨-, wait⟩)
        · exact done.sane
        · exact wait.sane
      · cases wait.fate
    rw [List.take_succ_cons, deliver_cons]
    obtain done | wait := first.or
    · exact (Over.run unconfirmed_lasting done _).unconfirmed fun w done => done.holds
    have long : 13 ≤ seg.data.length := by
      obtain ⟨_, -, yes⟩ | ⟨-, _, yes⟩ := wait.holds
      · exact yes.1
      · exact yes.1
    cases rest with
    | nil =>
      rw [List.take_nil]
      exact wait.unconfirmed fun w yes => yes.2.silent
    | cons x rest =>
      cases k with
      | zero => exact wait.unconfirmed fun w yes => yes.2.silent
      | succ k =>
        have eq : seg.data ++ x.2.data ++ (segBytes rest).flatten = data := by
          rw [List.append_assoc]
          exact whole
        have no := refused_tail command eq part long (full x (by simp))
        have next : Tracks h (Over Unconfirmed) (step b (step b s (.recv h e seg)) (.recv h x.1 x.2)) :=
          wait.step x.1 x.2 (fun w f done => done.sane) (fun w yes => yes.2.refused no) fun w yes => by
            cases yes.2.fate
        rw [List.take_succ_cons, deliver_cons]
        exact (Over.run unconfirmed_lasting next _).unconfirmed fun w done => done.holds

/-! ## The queued line -/

lemma takeWhile_sub {q : UInt8 → Bool} {a l : Bytes} (sub : a <+: l) : a.takeWhile q <+: l.takeWhile q := by
  obtain ⟨rest, rfl⟩ := sub
  rw [List.takeWhile_append]
  split_ifs with all
  · rw [(List.takeWhile_prefix q).eq_of_length all]
    exact List.prefix_append _ _
  · exact List.prefix_refl _

lemma parsed_front {cmd : Bytes} (parsed : webtermParsePostBody d = some cmd) :
    cmd <+: firstLine d ∧ (find (bytes "\r\n\r\n") d).isSome = true := by
  rw [webtermParsePostBody] at parsed
  cases at_ : strstr d 0 (bytes "\r\n\r\n") with
  | none =>
    rw [at_] at parsed
    cases parsed
  | some p =>
    have found := (strstr_zero_iff.mp at_).1
    simp only [at_] at parsed
    split_ifs at parsed
    cases parsed
    refine ⟨?_, by rw [found]; rfl⟩
    simp only [firstLine, httpBody, found]
    exact takeWhile_sub ((List.takeWhile_prefix _).trans (List.take_prefix ..))

lemma firstLine_front (sub : d <+: data) (ended : (find (bytes "\r\n\r\n") d).isSome = true) :
    firstLine d <+: firstLine data := by
  obtain ⟨p, found⟩ := Option.isSome_iff_exists.mp ended
  obtain ⟨rest, rfl⟩ := sub
  have whole := find_append rest found
  simp only [firstLine, httpBody, found, whole]
  exact takeWhile_sub ((List.prefix_append d rest).drop (p + 4))

lemma parsed_iff (sub : d <+: data) :
    webtermParsePostBody d = some (firstLine data) ↔ Storable d ∧ firstLine d = firstLine data := by
  rw [← webtermParsePostBody_iff]
  constructor
  · intro parsed
    obtain ⟨front, ended⟩ := parsed_front parsed
    have eq : firstLine d = firstLine data :=
      (firstLine_front sub ended).eq_of_length_le front.length_le
    exact ⟨by rw [eq]; exact parsed, eq⟩
  · rintro ⟨parsed, eq⟩
    rw [parsed, eq]

lemma apply_command (command : isCommand d = true) (running : Bool) :
    (w.apply e (httpdHandleWebterm w.dev running d)).hs.state = .fileRequest ∧
      (w.apply e (httpdHandleWebterm w.dev running d)).g.crashed = w.g.crashed := by
  have verdict := webtermAnswer_command w.dev.term running command
  rw [httpdHandleWebterm]
  cases answered : webtermAnswer w.dev.term running d with
  | mk term text =>
    rw [answered] at verdict
    obtain rfl : text = some (webtermVerdict true) := verdict
    exact ⟨by simp [Answer.printed, Work.apply], by simp [apply_crashed, Answer.printed]⟩

structure Commanded (t : Webterm) (data : Bytes) (r : Work × Fate) : Prop extends
    Over (fun w => w.dev.term = (webtermAnswer t true data).1) r where
  fate_keep : r.2 = .keep
  confirmed : hasAt r.1.hs.trail.built 9 (bytes "200") = true

lemma Listening.command (wait : Listening (w, .keep)) (running : w.g.isRunning = true) (ok : e.dataOk = true)
    (command : isCommand d = true) : Commanded w.dev.term d (httpdRecv b e d w) := by
  have running' : (w.touch e.now).g.isRunning = true := running
  obtain ⟨-, built⟩ := apply_verdict (w := w.touch e.now) (e := e) command true
  obtain ⟨answered, crashed⟩ := apply_command (w := w.touch e.now) (e := e) command true
  rw [recv_new ok wait.state]
  simp only [httpdRequest, route_command command, answer, running']
  refine ⟨⟨crashed.trans wait.well, ?_, .inr ⟨rfl, answered⟩⟩, rfl, ?_⟩
  · rw [apply_dev, httpdHandleWebterm_term]
    rfl
  · rw [built]
    decide

lemma command_confirmed (new : s.NewAt h c) (ok : e.dataOk = true) (command : isCommand seg.data = true)
    (rest : List (Env × Segment)) : (step b s (.recv h e seg)).Confirmed h ∧
      (deliver b s h ((e, seg) :: rest)).dev.term = (webtermAnswer s.dev.term true seg.data).1 := by
  have running : s.isRunning = true := by
    have net := new.net
    rw [Server.netEnabled, Bool.and_eq_true] at net
    exact net.1
  have done : Commanded s.dev.term seg.data (httpdRecv b e seg.data (s.work h c)) :=
    new.listens.command running ok command
  have first : Tracks h (Commanded s.dev.term seg.data) (step b s (.recv h e seg)) := by
    rw [step_recv new.run new.net new.live]
    exact .commit (c := c) new.net Keeps.recv done.well (.inl done.fate_keep) done
  constructor
  · obtain ⟨c', live, done⟩ | ⟨-, c', done⟩ := first.holds
    · exact ⟨c', live, done.confirmed⟩
    · cases done.fate_keep
  · have later := Over.run (b := b) (fun w now yes => ⟨yes, yes⟩) (first.mono fun r done => done.toOver) rest
    obtain ⟨c', -, done⟩ | ⟨-, c', done⟩ := later.holds
    · exact done.holds
    · exact done.holds

end Commands

/-- The segments of a request that is no upload have the same effect in all segmentations exactly if the server drops
its connection in any case: it cannot store a segment, refuses the request, or the request is one the terminal does not
know and too long for one segment. A command that is answered with a 200 is queued exactly if its first line is in the
segment with its path and fits, or stood in the slot before. -/
theorem request_splits_iff (b : Board) (s : Server) (h : Addr) (c : Conn) (new : s.NewAt h c) (e : Env) (data : Bytes) :
    (route data ≠ .upload → route data ≠ .bad →
      ((∀ ds ds', Splits data ds → Splits data ds' → sendAll b s h e ds = sendAll b s h e ds') ↔
        e.dataOk = false ∨ refused data = true ∨ (understood data = false ∧ 2 ^ 16 ≤ data.length ∧
          ∀ ds, Splits data ds → sendAll b s h e ds = s.drop h c e.now))) ∧
    (isCommand data = true → ∀ (seg : Segment) (rest : List (Env × Segment)),
      (segBytes ((e, seg) :: rest)).flatten = data → (∀ x ∈ rest, x.2.data ≠ []) →
      (((∃ k, (deliver b s h (((e, seg) :: rest).take k)).Confirmed h) →
          (deliver b s h ((e, seg) :: rest)).dev.term.jobs.2 = some (firstLine data)) ↔
        e.dataOk = false ∨ isCommand seg.data = false ∨ (Storable seg.data ∧ firstLine seg.data = firstLine data) ∨
          (webtermParsePostBody seg.data = none ∧ s.dev.term.jobs.2 = some (firstLine data)))) := by
  refine ⟨splits_equal_iff new, fun command seg rest whole full => ?_⟩
  have sub : seg.data <+: data := ⟨(segBytes rest).flatten, whole⟩
  cases ok : e.dataOk with
  | false =>
    refine iff_of_true ?_ (.inl rfl)
    rintro ⟨k, yes⟩
    exact absurd yes (fails_unconfirmed new ok rest k)
  | true =>
    cases path : isCommand seg.data with
    | false =>
      refine iff_of_true ?_ (.inr (.inl rfl))
      rintro ⟨k, yes⟩
      exact absurd yes (part_unconfirmed new command whole full path k)
    | true =>
      obtain ⟨confirmed, term⟩ := command_confirmed (b := b) new ok path rest
      have some_ : ∃ k, (deliver b s h (((e, seg) :: rest).take k)).Confirmed h := ⟨1, confirmed⟩
      rw [term, webtermAnswer_jobs, path, ← parsed_iff sub]
      cases parsed : webtermParsePostBody seg.data with
      | none | some cmd => simp [some_]

def commandWhole : Segment := ⟨postLine (bytes "version"), by decide⟩

def commandHead : Segment := ⟨postLine [], by decide⟩

def commandBody : Segment := ⟨bytes "version", by decide⟩

/-- The segmentations of the command differ, and in one segment it is queued. -/
theorem request_splits_command : ∃ c, sampleServer.NewAt 1 c ∧
    ¬ (∀ ds ds', Splits commandWhole.data ds → Splits commandWhole.data ds' →
      sendAll sampleBoard sampleServer 1 { now := 0 } ds = sendAll sampleBoard sampleServer 1 { now := 0 } ds') ∧
    ((∃ k, (deliver sampleBoard sampleServer 1 ([({ now := 0 }, commandWhole)].take k)).Confirmed 1) →
      (deliver sampleBoard sampleServer 1 [({ now := 0 }, commandWhole)]).dev.term.jobs.2 =
        some (firstLine commandWhole.data)) := by
  obtain ⟨c, live⟩ : ∃ c, sampleServer.conns 1 = some c := ⟨_, rfl⟩
  have new : sampleServer.NewAt 1 c := by
    cases live
    exact ⟨rfl, rfl, rfl, rfl, rfl⟩
  have both := request_splits_iff sampleBoard sampleServer 1 c new { now := 0 } commandWhole.data
  refine ⟨c, new, fun same => ?_, ?_⟩
  · have no : refused commandWhole.data = false ∧ understood commandWhole.data = true := by decide
    rcases (both.1 (by decide) (by decide)).mp same with fails | yes | ⟨unknown, -⟩
    · cases fails
    · cases no.1.symm.trans yes
    · cases no.2.symm.trans unknown
  · refine (both.2 (by decide) commandWhole [] (List.append_nil _) (by simp)).mpr (.inr (.inr (.inl ⟨?_, rfl⟩)))
    exact (webtermParsePostBody_iff _).mp (by decide)

/-- In one segment the command is answered with a 200 and queued; with the body in a segment of its own it is answered
with the same 200 and not queued. -/
theorem command_split :
    commandHead.data ++ commandBody.data = commandWhole.data ∧
    (sendAll sampleBoard sampleServer 1 { now := 0 } [commandWhole]).Confirmed 1 ∧
    (sendAll sampleBoard sampleServer 1 { now := 0 } [commandWhole]).dev.term.jobs.2 = some (bytes "version") ∧
    (sendAll sampleBoard sampleServer 1 { now := 0 } [commandHead, commandBody]).Confirmed 1 ∧
    (sendAll sampleBoard sampleServer 1 { now := 0 } [commandHead, commandBody]).dev.term.jobs.2 = none := by
  refine ⟨by decide, ⟨_, rfl, ?_⟩, by decide, ⟨_, rfl, ?_⟩, by decide⟩
  · decide
  · decide

end ResQBoot.Failsafe
