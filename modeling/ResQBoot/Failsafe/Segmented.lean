import ResQBoot.Failsafe.FormPost
import ResQBoot.Failsafe.UploadRun

/-!
# A form in segments

The form of `FormPost`, cut into segments in any way. The length and the boundary are looked for in the first segment
only, and the start of the file in the first and the second.
-/

namespace ResQBoot.Failsafe

structure Server.IdleAt (s : Server) (h : Addr) : Prop where
  run : s.crashed = false
  net : s.netEnabled = true
  pending : s.uploadPending = false
  owner : s.hsGlobal = none
  new : ∃ c, s.conns h = some c ∧ c.state = .none

def FormPost.filePiece (p : FormPost) : List Bytes → Option Bytes
  | [] => none
  | d :: rest =>
    if p.frontEnd ≤ d.length then some (d.drop p.frontEnd)
    else rest.head?.bind fun d' =>
      if d.length ≤ p.head.length ∧ p.frontEnd ≤ d.length + d'.length then some (d'.drop (p.frontEnd - d.length)) else none

def FormPost.Located (p : FormPost) (b : Board) (ds : List Bytes) : Prop :=
  ∃ more t, p.filePiece ds = some more ∧ p.Finds more t ∧ t.Accepts b p.file.length

/-! ## The first segment -/

section First

variable {b : Board} {e : Env} {p : FormPost} {d : Bytes} {w : Work}

lemma opening_requestLine : ∃ rest, linesText p.opening = bytes "POST / HTTP/1.1\r\n" ++ rest := by
  have first : ∃ ls, p.opening = requestLine :: ls := by
    rw [FormPost.opening, FormPost.upToLength, FormPost.upToType]
    split <;> exact ⟨_, rfl⟩
  obtain ⟨ls, eq⟩ := first
  have line : bytes "POST / HTTP/1.1\r\n" = requestLine.1 ++ [13, 10] := by decide
  refine ⟨linesText ls, ?_⟩
  rw [eq, line]
  simp [linesText]

lemma route_requestLine (rest : Bytes) : route (bytes "POST / HTTP/1.1\r\n" ++ rest) = .upload := by
  simp (disch := decide) only [route, hasAt_append]
  rfl

lemma route_announced (all : p.Announced d) : route d = .upload := by
  obtain ⟨more, rfl⟩ := all
  obtain ⟨rest, line⟩ := opening_requestLine (p := p)
  rw [line, List.append_assoc]
  exact route_requestLine _

lemma route_front (front : d <+: p.text) : route d = .upload ∨ route d = .bad := by
  have cuts : ∀ n < 17, route ((bytes "POST / HTTP/1.1\r\n").take n) = .upload ∨
      route ((bytes "POST / HTTP/1.1\r\n").take n) = .bad := by decide
  have len : (bytes "POST / HTTP/1.1\r\n").length = 17 := by decide
  obtain ⟨rest, line⟩ := opening_requestLine (p := p)
  have first : bytes "POST / HTTP/1.1\r\n" <+: p.text :=
    (line ▸ List.prefix_append _ rest : bytes "POST / HTTP/1.1\r\n" <+: linesText p.opening).trans p.text_announced
  by_cases short : d.length < 17
  · rw [List.prefix_iff_eq_take.mp (List.prefix_of_prefix_length_le front first (by omega))]
    exact cuts _ short
  · obtain ⟨more, rfl⟩ := List.prefix_of_prefix_length_le first front (by omega)
    exact .inl (route_requestLine more)

structure Closes (e : Env) (w : Work) (r : Work × Fate) (w' : Work) : Prop where
  closed : r = httpdCloseConn e.now w'
  crashed : w'.g.crashed = w.g.crashed
  hist : w'.g.hist = w.g.hist
  target : w'.g.target = w.g.target

lemma start_closes (front : d <+: p.text) (idle : w.busy = false) (missing : ¬ (e.boundaryOk = true ∧ p.Announced d)) :
    ∃ w', Closes e w (httpdStartUpload b e d w) w' := by
  rw [httpdStartUpload, idle, if_neg Bool.false_ne_true]
  dsimp only
  cases length : httpdParseContentLength d with
  | none => exact ⟨w.resetUpload, rfl, rfl, rfl, rfl⟩
  | some n =>
    dsimp only
    cases boundary : httpdParseBoundary e.boundaryOk d with
    | none => exact ⟨w.resetUpload.takeOver n, rfl, rfl, rfl, rfl⟩
    | some v =>
      obtain ⟨memory, type, -⟩ := (FormPost.parseBoundary_iff front _ v).mp boundary
      have line := ((FormPost.parseLength_iff front n).mp length).1
      exact absurd ⟨memory, (p.announced_iff d).mpr ⟨line, type⟩⟩ missing

def FormPost.begun (p : FormPost) (b : Board) (w : Work) : Work :=
  httpdInitUploadRam b ((w.resetUpload.takeOver p.body.length).setBoundary p.delimiter)

lemma start_begun (front : d <+: p.text) (idle : w.busy = false) (memory : e.boundaryOk = true) (all : p.Announced d)
    {w' : Work} {v : Bool} (search : httpdFindandstoreFirstchunk b d (p.begun b w) = (w', v)) :
    httpdStartUpload b e d w = if v then fileStarted e w' else (w'.setFound false, .keep) := by
  obtain ⟨line, type⟩ := (p.announced_iff d).mp all
  have length := (FormPost.parseLength_iff front _).mpr ⟨line, rfl⟩
  have boundary := (FormPost.parseBoundary_iff front _ _).mpr ⟨memory, type, rfl⟩
  rw [FormPost.begun] at search
  rw [httpdStartUpload, idle, if_neg Bool.false_ne_true]
  simp only [length, boundary, search]
  cases v <;> rfl

lemma recv_first (new : w.hs.state = .none) (copied : e.dataOk = true) (upload : route d = .upload) :
    httpdRecv b e d w = httpdStartUpload b e d (w.touch e.now) := by
  simp only [recv_new copied new, httpdRequest, upload]

lemma first_closes (front : d <+: p.text) (idle : w.busy = false) (new : w.hs.state = .none)
    (missing : ¬ (e.dataOk = true ∧ e.boundaryOk = true ∧ p.Announced d)) :
    ∃ w', Closes e w (httpdRecv b e d w) w' := by
  by_cases copied : e.dataOk = true
  · obtain upload | bad := route_front front
    · rw [recv_first new copied upload]
      obtain ⟨w', c⟩ := start_closes (b := b) (w := w.touch e.now) front idle fun both => missing ⟨copied, both⟩
      exact ⟨w', { c with }⟩
    · simp only [recv_new copied new, httpdRequest, bad, answer]
      exact ⟨w.touch e.now, rfl, rfl, rfl, rfl⟩
  · rw [recv_lost copied]
    exact ⟨w.touch e.now, rfl, rfl, rfl, rfl⟩

lemma first_spoiled (front : d <+: p.text) (run : w.g.crashed = false) (idle : w.busy = false)
    (new : w.hs.state = .none) (missing : ¬ (e.dataOk = true ∧ e.boundaryOk = true ∧ p.Announced d)) :
    Spoiled b p.delimiter w.g.hist.completed (httpdRecv b e d w) := by
  obtain ⟨w', c⟩ := first_closes (b := b) front idle new missing
  rw [c.closed]
  exact .dropped (by simpa [c.crashed] using run) (by simp [c.hist])

end First

/-! ## The search for the file -/

section Search

variable {b : Board} {e : Env} {p : FormPost} {d : Bytes} {w : Work} {done : List Completed} {t : UploadType} {st k : Nat}

structure FormPost.Looking (p : FormPost) (b : Board) (done : List Completed) (w : Work) : Prop
    extends Waiting b p.delimiter w where
  going : w.g.upload.failed = false
  length : w.hs.uploadTotal = p.body.length
  same : w.g.hist.completed = done

lemma FormPost.begun_looking (run : w.g.crashed = false) (short : p.delimiter.length < 2 ^ 16 + 2) :
    p.Looking b w.g.hist.completed (p.begun b w) :=
  { waiting_init p.body.length run short with going := rfl, length := rfl, same := rfl }

def FormPost.overhead (p : FormPost) (k : Nat) : Nat := k + 4 + p.delimiter.length + 6

lemma FormPost.Looking.starts (look : p.Looking b done w) (short : d.length < 2 ^ 16)
    (part : filePart p.delimiter d = some (t, st, k)) (enough : p.overhead k ≤ p.body.length) :
    ∃ w', httpdFindandstoreFirstchunk b d w = (w', true) ∧
      Taken b p.delimiter done (p.body.length - p.overhead k) (t.Sized b (p.body.length - p.overhead k))
        (d.drop (st + k + 4)) (fileStarted e w') := by
  rw [findandstore_some look.bound part]
  generalize target : selectTarget w.g.target t.type (cstr (d.drop st)) = tg
  have wait : Waiting b p.delimiter (w.setTarget tg) := { look.of_eq rfl rfl rfl, look.toWaiting with }
  have total : (w.setTarget tg).hs.uploadTotal = p.body.length := look.length
  have same : (w.setTarget tg).g.hist.completed = done := look.same
  have type : (w.setTarget tg).g.target.upgradeType = t.type := by
    rw [← target]
    rfl
  obtain ⟨w', eq, tk⟩ : ∃ w', startFile b t (p.overhead k) (d.drop (st + k + 4)) (w.setTarget tg) = (w', true) ∧
      Taken b p.delimiter (w.setTarget tg).g.hist.completed ((w.setTarget tg).hs.uploadTotal - p.overhead k)
        (t.Sized b ((w.setTarget tg).hs.uploadTotal - p.overhead k)) (d.drop (st + k + 4)) (fileStarted e w') :=
    startFile_taken wait look.going type (by omega) (by rw [List.length_drop]; omega)
  rw [total, same] at tk
  exact ⟨w', eq, tk⟩

lemma FormPost.Looking.small (look : p.Looking b done w) (part : filePart p.delimiter d = some (t, st, k))
    (small : p.body.length < p.overhead k) :
    ∃ tg, httpdFindandstoreFirstchunk b d w = ((w.setTarget tg).fail, false) := by
  rw [findandstore_some look.bound part]
  have total (tg : Target) : (w.setTarget tg).hs.uploadTotal = p.body.length := look.length
  refine ⟨selectTarget w.g.target t.type (cstr (d.drop st)), ?_⟩
  rw [startFile, if_pos (by rw [total]; exact small)]

section First

variable (front : d <+: p.text) (run : w.g.crashed = false) (idle : w.busy = false) (new : w.hs.state = .none)
  (copied : e.dataOk = true) (memory : e.boundaryOk = true) (all : p.Announced d) (short : d.length < 2 ^ 16)

include front run memory all short in
lemma first_looking : p.Looking b w.g.hist.completed (p.begun b (w.touch e.now)) := by
  obtain ⟨-, type⟩ := (p.announced_iff d).mp all
  have boundary := (FormPost.parseBoundary_iff front _ _).mpr ⟨memory, type, rfl⟩
  exact FormPost.begun_looking (w := w.touch e.now) run (parseBoundary_spec short boundary).2

include front run idle new copied memory all short

omit run short in
lemma first_search {w' : Work} {v : Bool}
    (search : httpdFindandstoreFirstchunk b d (p.begun b (w.touch e.now)) = (w', v)) :
    httpdRecv b e d w = if v then fileStarted e w' else (w'.setFound false, .keep) := by
  rw [recv_first new copied (route_announced all)]
  exact start_begun (w := w.touch e.now) front idle memory all search

lemma first_none (none_ : filePart p.delimiter d = none) :
    ∃ w', httpdRecv b e d w = (w', .keep) ∧ p.Looking b w.g.hist.completed w' := by
  have look : p.Looking b w.g.hist.completed (p.begun b (w.touch e.now)) := first_looking front run memory all short
  obtain ⟨tg, search⟩ := findandstore_none (b := b) look.bound none_
  rw [first_search front idle new copied memory all search]
  exact ⟨_, rfl, { look.of_eq rfl rfl rfl, look with }⟩

lemma first_starts (part : filePart p.delimiter d = some (t, st, k)) (enough : p.overhead k ≤ p.body.length) :
    Taken b p.delimiter w.g.hist.completed (p.body.length - p.overhead k) (t.Sized b (p.body.length - p.overhead k))
      (d.drop (st + k + 4)) (httpdRecv b e d w) := by
  have look : p.Looking b w.g.hist.completed (p.begun b (w.touch e.now)) := first_looking front run memory all short
  obtain ⟨w', search, tk⟩ := look.starts (e := e) short part enough
  rw [first_search front idle new copied memory all search]
  exact tk

lemma first_small (part : filePart p.delimiter d = some (t, st, k)) (small : p.body.length < p.overhead k) :
    Spoiled b p.delimiter w.g.hist.completed (httpdRecv b e d w) := by
  have look : p.Looking b w.g.hist.completed (p.begun b (w.touch e.now)) := first_looking front run memory all short
  obtain ⟨tg, search⟩ := look.small part small
  rw [first_search front idle new copied memory all search]
  exact .failing { look.of_eq rfl rfl rfl with
    failed := rfl, waiting := fun _ => { look.of_eq rfl rfl rfl, look.toWaiting with } } look.same

end First

/-! ## The second segment -/

section Second

variable (look : p.Looking b done w)

include look

lemma second_lost (missing : ¬ (e.dataOk = true ∧ ∃ t st k, filePart p.delimiter d = some (t, st, k) ∧
    p.overhead k ≤ p.body.length)) : Spoiled b p.delimiter done (httpdRecv b e d w) := by
  have run := look.run
  have same := look.same
  have look' : p.Looking b done (w.touch e.now) := { look.of_eq rfl rfl rfl, look with }
  by_cases copied : e.dataOk = true
  · have search : ∃ w', httpdFindandstoreFirstchunk b d (w.touch e.now) = (w', false) ∧ w'.g.crashed = false ∧
        w'.g.hist.completed = done := by
      cases part : filePart p.delimiter d with
      | none =>
        obtain ⟨tg, eq⟩ := findandstore_none (b := b) look'.bound part
        exact ⟨_, eq, run, same⟩
      | some x =>
        obtain ⟨t, st, k⟩ := x
        have small : p.body.length < p.overhead k := by
          by_contra enough
          exact missing ⟨copied, t, st, k, part, by omega⟩
        obtain ⟨tg, eq⟩ := look'.small part small
        exact ⟨_, eq, run, same⟩
    obtain ⟨w', search, run, same⟩ := search
    rw [recv_looking copied look.state look.found search]
    exact .dropped (by simpa using run) (by simpa using same)
  · rw [recv_lost copied]
    exact .dropped (by simpa using run) (by simpa using same)

lemma second_starts (short : d.length < 2 ^ 16) (copied : e.dataOk = true)
    (part : filePart p.delimiter d = some (t, st, k)) (enough : p.overhead k ≤ p.body.length) :
    Taken b p.delimiter done (p.body.length - p.overhead k) (t.Sized b (p.body.length - p.overhead k))
      (d.drop (st + k + 4)) (httpdRecv b e d w) := by
  have look' : p.Looking b done (w.touch e.now) := { look.of_eq rfl rfl rfl, look with }
  obtain ⟨w', search, tk⟩ := look'.starts (e := e) short part enough
  rw [recv_looking copied look.state look.found search]
  exact tk

end Second

end Search

/-! ## The whole request -/

section Whole

variable {b : Board} {s s' : Server} {h : Addr} {p : FormPost} {x d : Bytes} {rest : List (Env × Segment)}
  {t : UploadType} {st k : Nat}

lemma text_drop : p.text.drop p.frontEnd = p.file ++ p.closing := by
  have text : p.text = p.head ++ p.front ++ (p.file ++ p.closing) := by
    rw [FormPost.text, Form.body, List.append_assoc]
  rw [text, FormPost.frontEnd, ← List.length_append, List.drop_left]

lemma started_accepted_iff (cut : x ++ d ++ (segBytes rest).flatten = p.text)
    (part : filePart p.delimiter d = some (t, st, k)) (enough : p.overhead k ≤ p.body.length)
    (some_ : ∀ y ∈ rest, y.2.data ≠ [])
    (tr : Tracks h (Taken b p.delimiter s.hist.completed (p.body.length - p.overhead k)
      (t.Sized b (p.body.length - p.overhead k)) (d.drop (st + k + 4))) s') :
    Accepted b s (deliver b s' h rest) p.file ↔
      p.Right x st k ∧ t.Accepts b p.file.length ∧ ∀ y ∈ rest, y.1.dataOk = true := by
  have late := FormPost.filePart_late cut part
  have inside := filePart_le part
  have body := p.length_body
  have whole : x.length + d.length + (segBytes rest).flatten.length = p.head.length + p.body.length := by
    have len := congrArg List.length cut
    rwa [List.length_append, List.length_append, FormPost.text, List.length_append] at len
  have len : (d.drop (st + k + 4)).length = d.length - (st + k + 4) := List.length_drop
  rw [FormPost.overhead] at enough tr
  have run := Taken.run tr (by omega) some_
  have exact_ : p.body.length - (k + 4 + p.delimiter.length + 6) = p.file.length ∧
      (d.drop (st + k + 4) ++ (segBytes rest).flatten).length =
        p.body.length - (k + 4 + p.delimiter.length + 6) + p.delimiter.length + 6 ↔ p.Right x st k := by
    rw [List.length_append, FormPost.Right]
    omega
  rw [Taken.accepted_iff run (by rw [List.length_append]; omega), ← and_assoc, exact_, UploadType.Accepts]
  · constructor
    · rintro ⟨right, ⟨sized, copied⟩, fits⟩
      obtain ⟨total, -⟩ := exact_.mpr right
      rw [total] at sized fits
      exact ⟨right, ⟨sized, fits⟩, copied⟩
    · rintro ⟨right, ⟨sized, fits⟩, copied⟩
      obtain ⟨total, -⟩ := exact_.mpr right
      rw [total]
      exact ⟨right, ⟨sized, copied⟩, fits⟩
  · intro total all
    obtain ⟨start, ends⟩ := exact_.mp ⟨total, all⟩
    have payload : d.drop (st + k + 4) ++ (segBytes rest).flatten = p.file ++ p.closing := by
      rw [← text_drop, ← cut, List.append_assoc, FormPost.frontEnd, ← start, ← ends,
        show x.length + st + (k + 4) = x.length + (st + k + 4) by omega, List.drop_length_add_append,
        List.drop_append_of_le_length inside]
    rw [payload, total, List.take_left]

lemma located_first {y : Bytes} {ds : List Bytes} (cut : [] ++ d ++ y = p.text)
    (part : filePart p.delimiter d = some (t, st, k)) :
    p.Located b (d :: ds) ↔ p.Right [] st k ∧ t.Accepts b p.file.length := by
  have inside := filePart_le part
  have late := FormPost.filePart_late cut part
  rw [FormPost.Located, FormPost.filePiece]
  by_cases all : p.frontEnd ≤ d.length
  · have right := FormPost.filePart_right_iff cut
    simp only [part, Option.some.injEq, Prod.mk.injEq, List.length_nil, Nat.zero_le, true_and, Nat.zero_add, Nat.sub_zero,
      all] at right
    rw [if_pos all]
    constructor
    · rintro ⟨more, t', eq, finds, takes⟩
      cases eq
      obtain ⟨st', k', ⟨rfl, rfl, rfl⟩, here⟩ := (right t').mpr finds
      exact ⟨here, takes⟩
    · rintro ⟨here, takes⟩
      exact ⟨_, t, rfl, (right t).mp ⟨st, k, ⟨rfl, rfl, rfl⟩, here⟩, takes⟩
  · -- the part lies behind the head, so the segment has something of the body
    rw [if_neg all]
    refine iff_of_false ?_ ?_
    · rintro ⟨more, t', eq, -⟩
      obtain ⟨d', -, eq⟩ := Option.bind_eq_some_iff.mp eq
      split at eq
      · rename_i early
        rw [List.length_nil] at late
        omega
      · cases eq
    · rintro ⟨⟨start, ends⟩, -⟩
      rw [List.length_nil] at start
      rw [FormPost.frontEnd] at all
      omega

lemma not_finds {y : Bytes} (cut : [] ++ d ++ y = p.text) (none_ : filePart p.delimiter d = none)
    (all : p.frontEnd ≤ d.length) : ¬ p.Finds (d.drop p.frontEnd) t := by
  intro finds
  have right := FormPost.filePart_right_iff cut t
  rw [List.length_nil, Nat.sub_zero, Nat.zero_add] at right
  obtain ⟨st, k, part, -⟩ := right.mpr ⟨Nat.zero_le _, all, finds⟩
  rw [none_] at part
  cases part

lemma located_second {d' y : Bytes} {ds : List Bytes} (cut : d ++ d' ++ y = p.text)
    (none_ : filePart p.delimiter d = none) :
    p.Located b (d :: d' :: ds) ↔
      ∃ t st k, filePart p.delimiter d' = some (t, st, k) ∧ p.Right d st k ∧ t.Accepts b p.file.length := by
  have four := p.length_front
  rw [FormPost.Located, FormPost.filePiece]
  by_cases all : p.frontEnd ≤ d.length
  · have whole : [] ++ d ++ (d' ++ y) = p.text := by rw [← cut, List.nil_append, List.append_assoc]
    rw [if_pos all]
    refine iff_of_false ?_ ?_
    · rintro ⟨more, t, eq, finds, -⟩
      cases eq
      exact not_finds whole none_ all finds
    · rintro ⟨t, st, k, -, ⟨start, -⟩, -⟩
      rw [FormPost.frontEnd] at all
      omega
  · have right := FormPost.filePart_right_iff cut
    rw [if_neg all]
    simp only [List.head?_cons, Option.bind_some, Option.ite_none_right_eq_some, Option.some.injEq]
    constructor
    · rintro ⟨more, t, ⟨⟨early, reach⟩, rfl⟩, finds, takes⟩
      obtain ⟨st, k, part, here⟩ := (right t).mpr ⟨early, reach, finds⟩
      exact ⟨t, st, k, part, here, takes⟩
    · rintro ⟨t, st, k, part, here, takes⟩
      obtain ⟨early, reach, finds⟩ := (right t).mp ⟨st, k, part, here⟩
      exact ⟨_, t, ⟨⟨early, reach⟩, rfl⟩, finds, takes⟩

lemma located_alone (cut : [] ++ d ++ [] = p.text) (none_ : filePart p.delimiter d = none) : ¬ p.Located b [d] := by
  rintro ⟨more, t, eq, finds, -⟩
  rw [FormPost.filePiece] at eq
  split at eq
  · rename_i all
    cases eq
    exact not_finds cut none_ all finds
  · cases eq

lemma FormPost.Right.enough (right : p.Right x st k) : p.overhead k ≤ p.body.length := by
  have body := p.length_body
  have ends := right.2
  rw [FormPost.overhead]
  omega

section Idle

variable {e : Env} {seg : Segment} {c : Conn} (idle : s.IdleAt h) (live : s.conns h = some c) (new : c.state = .none)
  (copied : e.dataOk = true) (memory : e.boundaryOk = true) (all : p.Announced seg.data)

include idle in
lemma idle_busy : (s.work h c).busy = false := by simp [Work.busy, Server.work, idle.pending, idle.owner]

include idle live in
lemma idle_tracks : Tracks h (fun r => r = (s.work h c, .keep)) s := ⟨idle.run, idle.net, .inl ⟨c, live, rfl⟩⟩

include idle live new copied memory all

lemma first_accepted_iff (cut : [] ++ seg.data ++ (segBytes rest).flatten = p.text) (some_ : ∀ y ∈ rest, y.2.data ≠ [])
    (part : filePart p.delimiter seg.data = some (t, st, k)) :
    Accepted b s (deliver b (step b s (.recv h e seg)) h rest) p.file ↔
      p.Right [] st k ∧ t.Accepts b p.file.length ∧ ∀ y ∈ rest, y.1.dataOk = true := by
  have front : seg.data <+: p.text := ⟨_, cut⟩
  have start := idle_tracks idle live
  by_cases enough : p.overhead k ≤ p.body.length
  · have first := first_starts (b := b) (w := s.work h c) front idle.run (idle_busy idle) new copied memory all
      seg.length_lt part enough
    have tr := start.step (b := b) e seg (fun _ _ tk => Taken.sane tk) (by rintro w ⟨⟩; exact first) (by rintro w ⟨⟩)
    exact started_accepted_iff cut part enough some_ tr
  · have first := first_small (b := b) (w := s.work h c) front idle.run (idle_busy idle) new copied memory all
      seg.length_lt part (by omega)
    have tr := start.step (b := b) e seg (fun _ _ sp => Spoiled.sane sp) (by rintro w ⟨⟩; exact first) (by rintro w ⟨⟩)
    refine iff_of_false (Spoiled.refused (Spoiled.run tr rest)) ?_
    rintro ⟨right, -⟩
    exact enough right.enough

lemma first_looks (front : seg.data <+: p.text) (none_ : filePart p.delimiter seg.data = none) :
    Tracks h (fun r => ∃ w, r = (w, .keep) ∧ p.Looking b s.hist.completed w) (step b s (.recv h e seg)) := by
  obtain ⟨w', eq, look⟩ := first_none (b := b) (w := s.work h c) front idle.run (idle_busy idle) new copied memory all
    seg.length_lt none_
  refine (idle_tracks idle live).step e seg ?_ ?_ (by rintro w ⟨⟩)
  · rintro w f ⟨w, ⟨⟩, look⟩
    exact ⟨look.run, .inl rfl⟩
  · rintro w ⟨⟩
    exact ⟨w', eq, look⟩

end Idle

lemma second_accepted_iff {e : Env} {seg : Segment}
    (tr : Tracks h (fun r => ∃ w, r = (w, .keep) ∧ p.Looking b s.hist.completed w) s')
    (cut : x ++ seg.data ++ (segBytes rest).flatten = p.text) (some_ : ∀ y ∈ rest, y.2.data ≠ []) :
    Accepted b s (deliver b (step b s' (.recv h e seg)) h rest) p.file ↔
      e.dataOk = true ∧ (∀ y ∈ rest, y.1.dataOk = true) ∧
        ∃ t st k, filePart p.delimiter seg.data = some (t, st, k) ∧ p.Right x st k ∧ t.Accepts b p.file.length := by
  by_cases found : e.dataOk = true ∧ ∃ t st k, filePart p.delimiter seg.data = some (t, st, k) ∧
      p.overhead k ≤ p.body.length
  · obtain ⟨copied, t, st, k, part, enough⟩ := found
    have next : Tracks h (Taken b p.delimiter s.hist.completed (p.body.length - p.overhead k)
        (t.Sized b (p.body.length - p.overhead k)) (seg.data.drop (st + k + 4))) (step b s' (.recv h e seg)) := by
      refine tr.step e seg (fun _ _ tk => tk.sane) ?_ ?_
      · rintro w ⟨w, ⟨⟩, look⟩
        exact second_starts look seg.length_lt copied part enough
      · rintro w ⟨w, ⟨⟩, -⟩
    rw [started_accepted_iff cut part enough some_ next]
    constructor
    · rintro ⟨right, takes, others⟩
      exact ⟨copied, others, t, st, k, part, right, takes⟩
    · rintro ⟨-, others, t', st', k', part', right, takes⟩
      obtain ⟨rfl, rfl, rfl⟩ : t = t' ∧ st = st' ∧ k = k' := by simpa using part.symm.trans part'
      exact ⟨right, takes, others⟩
  · have next : Tracks h (Spoiled b p.delimiter s.hist.completed) (step b s' (.recv h e seg)) := by
      refine tr.step e seg (fun _ _ sp => sp.sane) ?_ ?_
      · rintro w ⟨w, ⟨⟩, look⟩
        exact second_lost look found
      · rintro w ⟨w, ⟨⟩, -⟩
    refine iff_of_false (Spoiled.refused (Spoiled.run next rest)) ?_
    rintro ⟨copied, -, t, st, k, part, right, -⟩
    exact found ⟨copied, t, st, k, part, right.enough⟩

end Whole

/-- The form is sent to an idle server in any segments. The upload completes, with the exact length of the file and the
file in RAM, exactly if every segment could be copied, the first one has the lines that announce the length and the
boundary (and there was memory for that), the front of the body lies in one segment as `filePiece` says, and the search
for the file in that segment ends at the file, for a type that takes its size. -/
theorem form_accepted_iff (b : Board) (s : Server) (h : Addr) (idle : s.IdleAt h) (p : FormPost)
    (segs : List (Env × Segment)) (cut : (segBytes segs).flatten = p.text) (some_ : ∀ x ∈ segs, x.2.data ≠ []) :
    Accepted b s (deliver b s h segs) p.file ↔
      (∀ x ∈ segs, x.1.dataOk = true) ∧ (∀ x ∈ segs.head?, x.1.boundaryOk = true ∧ p.Announced x.2.data) ∧
        p.Located b (segBytes segs) := by
  cases segs with
  | nil =>
    have len := congrArg List.length cut
    simp [FormPost.text, FormPost.head, segBytes] at len
  | cons x rest =>
    obtain ⟨e, seg⟩ := x
    obtain ⟨c, live, new⟩ := idle.new
    have whole : [] ++ seg.data ++ (segBytes rest).flatten = p.text := by rw [← cut]; simp [segBytes]
    have front : seg.data <+: p.text := ⟨_, whole⟩
    have others : ∀ y ∈ rest, y.2.data ≠ [] := fun y mem => some_ y (List.mem_cons_of_mem _ mem)
    have run : deliver b s h ((e, seg) :: rest) = deliver b (step b s (.recv h e seg)) h rest := rfl
    have datas : segBytes ((e, seg) :: rest) = seg.data :: segBytes rest := rfl
    rw [run, datas]
    simp only [List.forall_mem_cons, List.head?_cons, Option.mem_some_iff, forall_eq']
    by_cases given : e.dataOk = true ∧ e.boundaryOk = true ∧ p.Announced seg.data
    · obtain ⟨copied, memory, all⟩ := given
      cases part : filePart p.delimiter seg.data with
      | some y =>
        obtain ⟨t, st, k⟩ := y
        rw [first_accepted_iff idle live new copied memory all whole others part, located_first whole part]
        constructor
        · rintro ⟨right, takes, later⟩
          exact ⟨⟨copied, later⟩, ⟨memory, all⟩, right, takes⟩
        · rintro ⟨⟨-, later⟩, -, right, takes⟩
          exact ⟨right, takes, later⟩
      | none =>
        have look := first_looks (b := b) idle live new copied memory all front part
        cases rest with
        | nil =>
          refine iff_of_false ?_ fun right => located_alone whole part right.2.2
          obtain ⟨c', -, w', eq, looking⟩ | ⟨-, c', w', ⟨⟩, -⟩ := look.holds
          obtain rfl := (Prod.mk.inj eq).1
          exact not_accepted looking.same
        | cons y rest =>
          obtain ⟨e', seg'⟩ := y
          have next : seg.data ++ seg'.data ++ (segBytes rest).flatten = p.text := by rw [← whole]; simp [segBytes]
          have run : deliver b (step b s (.recv h e seg)) h ((e', seg') :: rest) =
              deliver b (step b (step b s (.recv h e seg)) (.recv h e' seg')) h rest := rfl
          have datas : segBytes ((e', seg') :: rest) = seg'.data :: segBytes rest := rfl
          rw [run, datas, second_accepted_iff look next fun y mem => others y (List.mem_cons_of_mem _ mem),
            located_second next part, List.forall_mem_cons]
          constructor
          · rintro ⟨copied', later, found⟩
            exact ⟨⟨copied, copied', later⟩, ⟨memory, all⟩, found⟩
          · rintro ⟨⟨-, copied', later⟩, -, found⟩
            exact ⟨copied', later, found⟩
    · have first := first_spoiled (b := b) (w := s.work h c) front idle.run (idle_busy idle) new given
      have tr := (idle_tracks idle live).step (b := b) e seg (fun _ _ sp => Spoiled.sane sp) (by rintro w ⟨⟩; exact first)
        (by rintro w ⟨⟩)
      refine iff_of_false (Spoiled.refused (Spoiled.run tr rest)) ?_
      rintro ⟨⟨copied, -⟩, announced, -⟩
      exact given ⟨copied, announced⟩

/-! ## A form of 184 bytes -/

def cdtEntry : UploadType := ⟨bytes "name=\"cdt\"", .cdt, some Board.cdtSize⟩

def sampleForm : FormPost where
  boundary := ⟨bytes "X", by decide⟩
  fields := [⟨⟨bytes "auto_reboot", by decide⟩, bytes "1"⟩]
  entry := cdtEntry
  known := by simp [uploadTypes, cdtEntry]
  filename := ⟨bytes "a", by decide⟩
  extra := []
  file := List.replicate 184 7
  before := [⟨bytes "Host: 192.168.1.1", by decide⟩]
  between := []
  after := []
  typeFirst := false
  short := by decide +kernel
  oneLength := by decide
  oneBoundary := by decide
  apart := by decide +kernel

def sampleFront (n : Nat) (short : n < 2 ^ 16) : Segment := ⟨sampleForm.text.take n, by rw [List.length_take]; omega⟩

def sampleBack (n : Nat) : Segment :=
  ⟨sampleForm.text.drop n, by
    have : sampleForm.text.length < 2 ^ 16 := by decide +kernel
    rw [List.length_drop]
    omega⟩

def sampleCut (n : Nat) (short : n < 2 ^ 16) : List (Env × Segment) :=
  [({ now := 0 }, sampleFront n short), ({ now := 0 }, sampleBack n)]

lemma sampleForm_length : sampleForm.file.length = 184 := List.length_replicate

lemma sampleServer_idle : sampleServer.IdleAt 1 := ⟨rfl, rfl, rfl, rfl, _, rfl, rfl⟩

lemma sampleCut_text (n : Nat) (short : n < 2 ^ 16) : (segBytes (sampleCut n short)).flatten = sampleForm.text := by
  simp [sampleCut, sampleFront, sampleBack, segBytes]

lemma sampleCut_found : ∃ more t, sampleForm.filePiece (segBytes (sampleCut 300 (by decide))) = some more ∧
    sampleForm.Finds more t ∧ t.tooBig sampleBoard 184 = false ∧ t.type = .cdt := by
  have search : (findUploadType (cstr (sampleForm.front ++ List.replicate 67 7))).map (fun t =>
      (fileHeaderEnd t (cstr (sampleForm.front ++ List.replicate 67 7)), t.tooBig sampleBoard 184, t.type)) =
      some (some (sampleForm.front.length - 4), false, .cdt) := by decide +kernel
  obtain ⟨t, type, eq⟩ := Option.map_eq_some_iff.mp search
  obtain ⟨ends, fits, cdt⟩ : _ ∧ _ ∧ _ := by simpa using eq
  exact ⟨List.replicate 67 7, t, by decide +kernel, ⟨type, ends⟩, fits, cdt⟩

theorem form_accepted_sample : Accepted sampleBoard sampleServer
    (deliver sampleBoard sampleServer 1 (sampleCut 300 (by decide))) sampleForm.file := by
  refine (form_accepted_iff sampleBoard sampleServer 1 sampleServer_idle sampleForm _ (sampleCut_text _ _)
    (by decide +kernel)).mpr ⟨by decide +kernel, by decide +kernel, ?_⟩
  obtain ⟨more, t, piece, finds, fits, cdt⟩ := sampleCut_found
  refine ⟨more, t, piece, finds, ?_⟩
  rw [sampleForm_length]
  exact ⟨⟨fits, by rw [cdt]; decide⟩, by decide⟩

/-- Cut behind the first delimiter of the body, the upload does not complete. -/
theorem form_refused : sampleServer.IdleAt 1 ∧ sampleForm.entry.Accepts sampleBoard sampleForm.file.length ∧
    (segBytes (sampleCut 130 (by decide))).flatten = sampleForm.text ∧
    (∀ x ∈ sampleCut 130 (by decide), x.2.data ≠ [] ∧ x.1.dataOk = true ∧ x.1.boundaryOk = true) ∧
    ¬ Accepted sampleBoard sampleServer (deliver sampleBoard sampleServer 1 (sampleCut 130 (by decide)))
      sampleForm.file := by
  refine ⟨sampleServer_idle, ?_, sampleCut_text _ _, by decide +kernel, not_accepted (by decide +kernel)⟩
  rw [sampleForm_length]
  exact ⟨⟨by decide, by decide⟩, by decide⟩

end ResQBoot.Failsafe
