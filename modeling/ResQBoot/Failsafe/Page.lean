import ResQBoot.Lib.Text
import ResQBoot.Failsafe.Transcript

/-!
# The terminal page

The script of `term.html` beside the terminal that it shows. Output is captured, and other clients make requests, at
any time between its two requests.
-/

namespace ResQBoot.Failsafe

structure Page where
  lastSeq : Nat := 0
  asked : Option Nat := none
  text : Bytes := []

structure Display where
  term : Webterm
  log : Transcript
  page : Page
  shown : Nat

inductive PageEvent where
  | output (o : Output)
  | request (data : Bytes)
  | status
  | data

def statusRequest (rest : Bytes) : Bytes := bytes "GET /webterm/status" ++ 32 :: rest

def dataRequest (rest : Bytes) (lastSeq : Nat) : Bytes :=
  bytes "GET /webterm/data?since=" ++ (decimal lastSeq ++ 32 :: rest)

def Page.onStatus (p : Page) (response : Bytes) : Page :=
  let seq := parseInt (httpBody response)
  if seq ≠ p.lastSeq then { p with asked := some seq } else p

def Page.onData (p : Page) (seq : Nat) (response : Bytes) : Page :=
  { lastSeq := seq, asked := none, text := p.text ++ httpBody response }

def requestOutputs (data : Bytes) : List Output :=
  if !(hasAt data 0 (bytes "GET ") || hasAt data 0 (bytes "POST ")) then []
  else
    let isPost := !hasAt data 0 (bytes "GET ")
    let path := if isPost then 5 else 4
    if !hasAt data path (bytes "/webterm/") then []
    else
      let path := path + 9
      if hasAt data path (bytes "cmd") then
        if isPost then
          match webtermParsePostBody data with
          | some cmd => [.puts (bytes "> " ++ cmd ++ [10])]
          | none => []
        else []
      else if hasAt data path (bytes "abort") then []
      else if hasAt data path (bytes "reset") then [.reset]
      else if isPost then []
      else if hasAt data path (bytes "status") then [.flush]
      else if hasAt data path (bytes "data") then [.flush]
      else []

def pageStep (rest : Bytes) (s : Display) : PageEvent → Display
  | .output o => { s with term := o.run s.term, log := o.log s.log }
  | .request data =>
    { s with
      term := (webtermAnswer s.term true data).1
      log := runAll Output.log s.log (requestOutputs data) }
  | .status =>
    match s.page.asked with
    | some _ => s
    | none =>
      let (term, response) := webtermAnswer s.term true (statusRequest rest)
      { s with
        term := term
        log := s.log.flushPending
        page := s.page.onStatus (response.getD []) }
  | .data =>
    match s.page.asked with
    | none => s
    | some seq =>
      let (term, response) := webtermAnswer s.term true (dataRequest rest s.page.lastSeq)
      { term := term
        log := s.log.flushPending
        page := s.page.onData seq (response.getD [])
        shown := s.log.flushPending.flushed.length }

def Display.start (buffer : Mem) : Display :=
  ⟨{ ready := true, buffer := buffer }, {}, {}, 0⟩

def Faithful (s : Display) : Prop := s.page.text = s.log.flushed.take s.shown

def Bounded (s : Display) : PageEvent → Prop
  | .output o => o ≠ .reset
  | .request data => .reset ∉ requestOutputs data
  | .status => True
  | .data => s.log.flushPending.flushed.length < s.shown + (webtermBufferSize - 1) ∧
      s.log.flushPending.flushed.length < 2 ^ 31

def Steady (s : Display) : PageEvent → Prop
  | .output _ => True
  | .request _ => True
  | .status => True
  | .data => s.page.asked = none ∨ s.page.lastSeq = s.shown ∧ 0 ∉ s.log.flushPending.flushed

/-! ## The requests and answers as text -/

lemma httpBody_webterm {ctype body : Bytes} {k : Nat}
    (header : find (bytes "\r\n\r\n") (webtermResponse 200 ctype []) = some k)
    (length : (webtermResponse 200 ctype []).length = k + 4) :
    httpBody (webtermResponse 200 ctype body) = body := by
  have text : webtermResponse 200 ctype body = webtermResponse 200 ctype [] ++ body := by
    rw [webtermResponse, webtermResponse, List.append_nil]
  rw [httpBody, text, find_append body header]
  simp only
  rw [← length, List.drop_left]

lemma webtermAnswer_status (t : Webterm) (rest : Bytes) : webtermAnswer t true (statusRequest rest) = (t.flushPending,
        some (webtermResponse 200 (bytes "text/plain") (decimal t.flushPending.outputSeq))) := by
  simp (disch := decide) only [webtermAnswer, statusRequest, hasAt_append]
  rfl

lemma dataRequest_since (rest : Bytes) (n : Nat) : strstr (dataRequest rest n) 13 (bytes "?since=") = some 17 ∧
      (dataRequest rest n).drop 24 = decimal n ++ 32 :: rest := by
  have head : find (bytes "?since=") ((bytes "GET /webterm/data?since=").drop 13) = some 4 := by
    decide
  have text : cstr ((dataRequest rest n).drop 13) =
      (bytes "GET /webterm/data?since=").drop 13 ++ cstr (decimal n ++ 32 :: rest) := by
    rw [dataRequest, List.drop_append_of_le_length (by decide), cstr_append _ (by decide)]
  refine ⟨?_, ?_⟩
  · rw [strstr, text, find_append _ head]
    rfl
  · rw [dataRequest]
    exact List.drop_left' (by decide)

lemma simpleStrtol_decimal (n : Nat) (small : n < 2 ^ 31) (rest : Bytes) :
    simpleStrtol (cstr (decimal n ++ 32 :: rest)) = n := by
  have plain : 0 ∉ decimal n := fun mem => absurd (decimal_isDigit mem) (by decide)
  have text : cstr (decimal n ++ 32 :: rest) = decimal n ++ 32 :: cstr rest := by
    rw [cstr_append _ plain]
    rfl
  rw [text, simpleStrtol.eq_def]
  split
  · rename_i t minus
    cases digits : decimal n with
    | nil => exact absurd digits (decimal_ne_nil n)
    | cons d ds =>
      rw [digits, List.cons_append] at minus
      have digit : isDigit d = true := decimal_isDigit (n := n) (by rw [digits]; exact List.mem_cons_self)
      rw [(List.cons.inj minus).1] at digit
      cases digit
  · rw [simpleStrto_decimal, Nat.mod_eq_of_lt (by omega)]
    exact Int.bmod_eq_of_le_mul_two (by omega) (by omega)

lemma webtermAnswer_data (t : Webterm) (rest : Bytes) {n : Nat} (small : n < 2 ^ 31) :
    webtermAnswer t true (dataRequest rest n) =
      (t.flushPending, some (webtermResponse 200 (bytes "text/plain; charset=utf-8")
        (cstr (t.flushPending.getOutput webtermBufferSize n)))) := by
  have get : hasAt (bytes "GET /webterm/data?since=") 0 (bytes "GET ") = true := by decide
  obtain ⟨since, text⟩ := dataRequest_since rest n
  rw [dataRequest] at since text ⊢
  simp (disch := decide) only [webtermAnswer, hasAt_append, get, Bool.not_true, Bool.false_eq_true, if_false,
    Nat.reduceAdd, since, text, simpleStrtol_decimal n small rest]
  rfl

/-! ## Steps -/

section Steps

variable {t : Webterm} {c : Transcript}

lemma Shows.executeCommand (sh : Shows t c) (cmd : Bytes) :
    Shows (t.executeCommand true cmd) ((Output.puts (bytes "> " ++ cmd ++ [10])).log c) := by
  have clear : Shows { t with abortRequested := false } c :=
    { sh with }
  have sh' := clear.puts (bytes "> " ++ cmd ++ [10])
  rw [Webterm.executeCommand, if_pos rfl]
  exact { sh' with }

lemma Shows.request (sh : Shows t c) (data : Bytes) :
    Shows (webtermAnswer t true data).1 (runAll Output.log c (requestOutputs data)) := by
  have abort : Shows { t with abortRequested := true } c :=
    { sh with }
  rw [webtermAnswer, requestOutputs]
  split
  · exact sh
  cases (!hasAt data 0 (bytes "GET ")) with
  | true =>
    simp only [if_true]
    split
    · exact sh
    split
    · cases webtermParsePostBody data with
      | some cmd => exact sh.executeCommand cmd
      | none => exact sh
    · split
      · exact abort
      · split
        · exact sh.reset
        · exact sh
  | false =>
    simp only [Bool.false_eq_true, if_false]
    split
    · exact sh
    split
    · exact sh
    split
    · exact sh
    split
    · exact sh.reset
    split
    · exact sh.flushPending
    · split
      · exact sh.flushPending
      · exact sh

lemma flushPending_grows (c : Transcript) : c.flushed <+: c.flushPending.flushed := by
  rw [Transcript.flushPending]
  split
  · exact List.prefix_rfl
  · exact List.prefix_append _ _

lemma addChar_grows (c : Transcript) (ch : UInt8) : c.flushed <+: (c.addChar ch).flushed := by
  rw [Transcript.addChar]
  split
  · split
    · exact List.prefix_rfl
    · exact flushPending_grows { c with prevCharWasCr := ch = 13 }
  · simp only
    split
    · exact List.prefix_append _ _
    · exact List.prefix_rfl

lemma log_grows (c : Transcript) {o : Output} (keeps : o ≠ .reset) : c.flushed <+: (o.log c).flushed := by
  cases o with
  | puts str =>
    rw [Output.log]
    generalize cstr str = text
    induction text generalizing c with
    | nil => exact List.prefix_rfl
    | cons ch text ih => exact (addChar_grows c ch).trans (ih _)
  | putc ch => exact addChar_grows c ch
  | flush => exact flushPending_grows c
  | reset => exact absurd rfl keeps

lemma logs_grow {os : List Output} (keeps : .reset ∉ os) :
    ∀ c : Transcript, c.flushed <+: (runAll Output.log c os).flushed := by
  induction os with
  | nil => exact fun c => List.prefix_rfl
  | cons o os ih =>
    intro c
    have first : o ≠ .reset := fun same => keeps (by rw [same]; exact List.mem_cons_self)
    exact (log_grows c first).trans (ih (fun mem => keeps (List.mem_cons_of_mem _ mem)) _)

end Steps

structure Display.Sound (s : Display) : Prop where
  shows_ : Shows s.term s.log
  last : s.page.lastSeq ≤ s.shown
  inside : s.shown ≤ s.log.flushed.length
  asked : ∀ seq, s.page.asked = some seq → s.shown ≤ seq ∧ seq ≤ s.log.flushed.length
  plain : 0 ∉ s.page.text

section Protocol

variable {rest : Bytes} {s : Display} {t : Webterm} {c : Transcript}

lemma Display.Sound.grow (sound : s.Sound) {term : Webterm} {log : Transcript} (sh : Shows term log)
    (grows : s.log.flushed <+: log.flushed) : Display.Sound { s with term := term, log := log } where
  shows_ := sh
  last := sound.last
  inside := sound.inside.trans grows.length_le
  asked seq eq := ⟨(sound.asked seq eq).1, (sound.asked seq eq).2.trans grows.length_le⟩
  plain := sound.plain

lemma Display.Sound.faithful_grow (sound : s.Sound) {log : Transcript} (grows : s.log.flushed <+: log.flushed) :
    s.page.text = log.flushed.take s.shown ↔ Faithful s := by
  obtain ⟨more, eq⟩ := grows
  rw [Faithful, ← eq, List.take_append_of_le_length sound.inside]

lemma pageStep_status (rest : Bytes) (sh : Shows s.term s.log) (idle : s.page.asked = none) : pageStep rest s .status =
      { s with
        term := s.term.flushPending
        log := s.log.flushPending
        page := if s.log.flushPending.flushed.length ≠ s.page.lastSeq then
          { s.page with asked := some s.log.flushPending.flushed.length } else s.page } := by
  have body (n : Nat) : httpBody (webtermResponse 200 (bytes "text/plain") (decimal n)) = decimal n :=
    httpBody_webterm (k := 85) (by decide) (by decide)
  simp only [pageStep, idle, webtermAnswer_status, Option.getD_some, Page.onStatus, body, parseInt_decimal,
    sh.flushPending.seq]

def newOutput (flushed : Bytes) (since : Nat) : Bytes :=
  cstr (flushed.rtake (min (min (flushed.length - since) (min flushed.length webtermBufferSize))
    (webtermBufferSize - 1)))

lemma pageStep_data (rest : Bytes) (sh : Shows s.term s.log) {seq : Nat} (asked : s.page.asked = some seq)
    (small : s.page.lastSeq < 2 ^ 31) :
    pageStep rest s .data =
      { term := s.term.flushPending
        log := s.log.flushPending
        page := ⟨seq, none, s.page.text ++ newOutput s.log.flushPending.flushed s.page.lastSeq⟩
        shown := s.log.flushPending.flushed.length } := by
  have flushed := sh.flushPending
  have body : httpBody (webtermResponse 200 (bytes "text/plain; charset=utf-8")
      (cstr (s.term.flushPending.getOutput webtermBufferSize s.page.lastSeq))) =
      newOutput s.log.flushPending.flushed s.page.lastSeq := by
    rw [httpBody_webterm (k := 100) (by decide +kernel) (by decide +kernel), flushed.getOutput,
      flushed.seq, flushed.count, Int.toNat_natCast, newOutput]
  simp only [pageStep, asked, webtermAnswer_data _ _ small, Option.getD_some, Page.onData, body]

lemma Display.Sound.small (sound : s.Sound) (bounded : Bounded s .data) : s.page.lastSeq < 2 ^ 31 := by
  have := sound.last
  have := sound.inside
  have := (flushPending_grows s.log).length_le
  have := bounded.2
  omega

lemma pageStep_sound (s : Display) (e : PageEvent) (sound : s.Sound) (bounded : Bounded s e) :
    (pageStep rest s e).Sound := by
  cases e with
  | output o => exact sound.grow (sound.shows_.output o) (log_grows _ bounded)
  | request data => exact sound.grow (sound.shows_.request data) (logs_grow bounded _)
  | status =>
    cases asked : s.page.asked with
    | some seq =>
      rw [pageStep, asked]
      exact sound
    | none =>
      have flushed := sound.shows_.flushPending
      have grown := sound.grow flushed (flushPending_grows _)
      rw [pageStep_status rest sound.shows_ asked]
      split
      · refine ⟨flushed, sound.last, grown.inside, ?_, sound.plain⟩
        rintro _ ⟨⟩
        exact ⟨grown.inside, Nat.le_refl _⟩
      · exact grown
  | data =>
    cases asked : s.page.asked with
    | none =>
      rw [pageStep, asked]
      exact sound
    | some seq =>
      have grows := flushPending_grows s.log
      rw [pageStep_data rest sound.shows_ asked (sound.small bounded)]
      refine ⟨sound.shows_.flushPending, (sound.asked seq asked).2.trans grows.length_le, Nat.le_refl _,
        by rintro _ ⟨⟩, ?_⟩
      rw [List.mem_append, not_or]
      exact ⟨sound.plain, zero_not_mem_cstr _⟩

end Protocol

lemma append_cstr_iff {l : Bytes} {shown last n : Nat} (le : last ≤ shown) (inside : shown ≤ l.length)
    (bounded : l.length < shown + (n - 1)) (plain : 0 ∉ l.take shown) :
    l.take shown ++ cstr (l.rtake (min (min (l.length - last) (min l.length n)) (n - 1))) = l ↔
      last = shown ∧ 0 ∉ l := by
  generalize len_eq : min (min (l.length - last) (min l.length n)) (n - 1) = len
  constructor
  · intro eq
    have rest : cstr (l.rtake len) = l.drop shown := by
      have whole := eq.trans (List.take_append_drop shown l).symm
      exact List.append_cancel_left whole
    have plain' : 0 ∉ l := by
      rw [← List.take_append_drop shown l, List.mem_append, not_or, ← rest]
      exact ⟨plain, zero_not_mem_cstr _⟩
    rw [cstr_eq_self (l := l.rtake len) fun mem => plain' (List.mem_of_mem_drop mem)] at rest
    have length := congrArg List.length rest
    rw [List.rtake, List.length_drop, List.length_drop] at length
    exact ⟨by omega, plain'⟩
  · rintro ⟨rfl, plain'⟩
    have whole : l.length - len = last := by omega
    rw [cstr_eq_self (l := l.rtake len) fun mem => plain' (List.mem_of_mem_drop mem), List.rtake, whole,
      List.take_append_drop]

lemma pageStep_faithful {rest : Bytes} (s : Display) (e : PageEvent) (sound : s.Sound)
    (faithful : Faithful s) (bounded : Bounded s e) : Faithful (pageStep rest s e) ↔ Steady s e := by
  cases e with
  | output o =>
    refine iff_of_true ?_ trivial
    exact (sound.faithful_grow (log_grows _ bounded)).mpr faithful
  | request data =>
    refine iff_of_true ?_ trivial
    exact (sound.faithful_grow (logs_grow bounded _)).mpr faithful
  | status =>
    refine iff_of_true ?_ trivial
    cases asked : s.page.asked with
    | some seq =>
      rw [pageStep, asked]
      exact faithful
    | none =>
      have grown := (sound.faithful_grow (flushPending_grows s.log)).mpr faithful
      rw [pageStep_status rest sound.shows_ asked]
      split <;> exact grown
  | data =>
    rw [Steady]
    cases asked : s.page.asked with
    | none =>
      rw [pageStep, asked]
      exact iff_of_true faithful (.inl rfl)
    | some seq =>
      have grows := flushPending_grows s.log
      have text : s.page.text = s.log.flushPending.flushed.take s.shown :=
        (sound.faithful_grow grows).mpr faithful
      have plain := sound.plain
      rw [text] at plain
      rw [pageStep_data rest sound.shows_ asked (sound.small bounded), Faithful]
      simp only [reduceCtorEq, false_or, List.take_length]
      rw [text]
      exact append_cstr_iff sound.last (sound.inside.trans grows.length_le) bounded.1 plain

/-- Over every interleaving of output, requests of others and the polls of the page, without a reset and
with fewer bytes between two polls than the ring holds but one, the text of the page is the flushed
stream up to its last answer, exactly when every data answer but the last of a run was built for the
same stream as the status answer before it, and the stream has no NUL. -/
theorem display_faithful_iff (rest : Bytes) (buffer : Mem) (evs : List PageEvent)
    (bounded : Along (pageStep rest) Bounded (.start buffer) evs) :
    (∀ init, init <+: evs → Faithful (runAll (pageStep rest) (.start buffer) init)) ↔
      Along (pageStep rest) Steady (.start buffer) evs :=
  along_iff_prefixes pageStep_sound pageStep_faithful evs (.start buffer)
    ⟨shows_init buffer, Nat.le_refl _, Nat.le_refl _, by rintro _ ⟨⟩, List.not_mem_nil⟩ rfl bounded

def onePoll : List PageEvent := [.output (.puts (bytes "a\n")), .status, .data]

theorem display_faithful_one :
    Along (pageStep []) Bounded (.start fun _ => 0) onePoll ∧
      Faithful (runAll (pageStep []) (.start fun _ => 0) onePoll) := by
  have bounded : Along (pageStep []) Bounded (.start fun _ => 0) onePoll :=
    ⟨by rintro ⟨⟩, trivial, ⟨by decide, by decide⟩, trivial⟩
  have steady : Along (pageStep []) Steady (.start fun _ => 0) onePoll :=
    ⟨trivial, trivial, .inr ⟨by decide, by decide⟩, trivial⟩
  exact ⟨bounded, (display_faithful_iff [] _ onePoll bounded).mpr steady onePoll List.prefix_rfl⟩

def lineBetween : List PageEvent :=
  [.output (.puts (bytes "a\n")), .status, .output (.puts (bytes "b\n")), .data, .status, .data]

theorem display_shows_twice :
    Along (pageStep []) Bounded (.start fun _ => 0) lineBetween ∧
      (runAll (pageStep []) (.start fun _ => 0) lineBetween).log.flushed = bytes "a\nb\n" ∧
      (runAll (pageStep []) (.start fun _ => 0) lineBetween).page.text = bytes "a\nb\nb\n" := by
  refine ⟨⟨by rintro ⟨⟩, trivial, by rintro ⟨⟩, ⟨?_, ?_⟩, trivial, ⟨?_, ?_⟩, trivial⟩, ?_, ?_⟩
  all_goals decide +kernel

end ResQBoot.Failsafe
