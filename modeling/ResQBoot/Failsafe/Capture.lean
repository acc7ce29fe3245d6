import ResQBoot.Failsafe.Transcript

/-!
# The captured lines

What becomes of the characters that the web terminal captures. CR, LF and an explicit flush are breaks. The text
between two breaks is kept, in lines of at most 255 characters, and is ended by one newline if a break follows;
nothing is kept of breaks without text between them.
-/

namespace ResQBoot.Failsafe

/-- A character, or an explicit flush. -/
abbrev Captured := Option UInt8

def Captured.output : Captured → Output
  | some c => .putc c
  | none => .flush

def isBreak : Captured → Bool
  | some c => c = 10 || c = 13
  | none => true

def wrap (s : Bytes) : Bytes :=
  if s.length ≤ 255 then s else s.take 255 ++ 10 :: wrap (s.drop 255)
  termination_by s.length
  decreasing_by simp only [List.length_drop]; omega

def joined : List Bytes → Bytes
  | [] => []
  | [s] => wrap s
  | s :: rest => (if s = [] then [] else wrap s ++ [10]) ++ joined rest

def captured (input : List Captured) : Bytes := joined ((input.splitOnP isBreak).map (List.filterMap id))

section Captured

variable {line : Bytes} {input : List Captured}

lemma wrap_short (short : line.length ≤ 255) : wrap line = line := by rw [wrap, if_pos short]

lemma wrap_full {s : Bytes} (full : line.length = 255) (more : s ≠ []) : wrap (line ++ s) = line ++ 10 :: wrap s := by
  have pos := List.length_pos_iff.mpr more
  rw [wrap, if_neg (by rw [List.length_append]; omega), List.take_left' full, List.drop_left' full]

lemma joined_cons (s : Bytes) {rest : List Bytes} (more : rest ≠ []) :
    joined (s :: rest) = (if s = [] then [] else wrap s ++ [10]) ++ joined rest := by
  cases rest with
  | nil => exact absurd rfl more
  | cons t rest => rfl

def Unbroken (line : Bytes) : Prop := ∀ c ∈ line, isBreak (some c) = false

lemma Unbroken.map (plain : Unbroken line) : ∀ x ∈ line.map some, isBreak x = false := by
  intro x mem
  obtain ⟨c, here, rfl⟩ := List.mem_map.mp mem
  exact plain c here

lemma filterMap_line : (line.map some).filterMap id = line := by simp

section

variable (plain : Unbroken line)
include plain

lemma captured_line (short : line.length ≤ 255) : captured (line.map some) = line := by
  rw [captured, List.splitOnP_eq_singleton plain.map, List.map_singleton, filterMap_line, joined, wrap_short short]

lemma captured_break {x : Captured} (short : line.length ≤ 255) (ends : isBreak x = true) :
    captured (line.map some ++ x :: input) = (if line = [] then [] else line ++ [10]) ++ captured input := by
  rw [captured, List.splitOnP_append_cons_of_forall_mem plain.map x ends, List.map_cons, joined_cons _ (by simp [List.splitOnP_ne_nil]),
    filterMap_line, wrap_short short]
  rfl

lemma splitOnP_plain : (line.map some ++ input).splitOnP isBreak =
    (input.splitOnP isBreak).modifyHead (line.map some ++ ·) := by
  induction line with
  | nil => exact (congrFun List.modifyHead_id _).symm
  | cons c line ih =>
    rw [List.map_cons, List.cons_append, List.splitOnP_cons_eq_if_modifyHead, if_neg (by simp [plain c List.mem_cons_self]),
      ih fun c mem => plain c (List.mem_cons_of_mem _ mem), List.modifyHead_modifyHead]
    rfl

lemma captured_full {c : UInt8} (full : line.length = 255) (char : isBreak (some c) = false) :
    captured (line.map some ++ some c :: input) = line ++ 10 :: captured (some c :: input) := by
  rw [captured, captured, splitOnP_plain plain, List.splitOnP_cons_eq_if_modifyHead, if_neg (by simp [char])]
  cases parts : input.splitOnP isBreak with
  | nil => exact absurd parts (List.splitOnP_ne_nil _ _)
  | cons s rest =>
    have text : (some c :: s).filterMap id = c :: s.filterMap id := rfl
    simp only [List.modifyHead_cons, List.map_cons, List.filterMap_append, filterMap_line, text]
    have more : c :: s.filterMap id ≠ [] := List.cons_ne_nil _ _
    cases rest with
    | nil => exact wrap_full full more
    | cons t rest =>
      have two : (t :: rest).map (List.filterMap id) ≠ [] := List.cons_ne_nil _ _
      rw [joined_cons _ two, joined_cons _ two, if_neg (List.append_ne_nil_of_right_ne_nil _ more), if_neg more,
        wrap_full full more]
      simp only [List.append_assoc, List.cons_append]

end

end Captured

structure Pending (c : Transcript) : Prop where
  plain : Unbroken c.line
  short : c.line.length ≤ 255
  cr : c.prevCharWasCr = true → c.line = []

section Run

variable {c : Transcript}

lemma flushPending_spec (cr : Bool) :
    let c' := ({ c with prevCharWasCr := cr } : Transcript).flushPending
    c'.line = [] ∧ c'.flushed = c.flushed ++ if c.line = [] then [] else c.line ++ [10] := by
  by_cases empty : c.line = []
  · simp [Transcript.flushPending, empty]
  · simp [Transcript.flushPending, Transcript.flushLine, empty]

lemma pending_empty {c : Transcript} (empty : c.line = []) : Pending c :=
  ⟨by rw [empty]; exact fun _ mem => absurd mem List.not_mem_nil, by rw [empty]; exact Nat.zero_le _, fun _ => empty⟩

lemma log_captured (pending : Pending c) (x : Captured) (input : List Captured) :
    Pending (x.output.log c) ∧ (x.output.log c).flushed ++ captured ((x.output.log c).line.map some ++ input) =
      c.flushed ++ captured (c.line.map some ++ x :: input) := by
  have ended (cr : Bool) (ends : isBreak x = true) :
      let c' := ({ c with prevCharWasCr := cr } : Transcript).flushPending
      Pending c' ∧ c'.flushed ++ captured (c'.line.map some ++ input) =
        c.flushed ++ captured (c.line.map some ++ x :: input) := by
    obtain ⟨empty, flushed⟩ := flushPending_spec (c := c) cr
    refine ⟨pending_empty empty, ?_⟩
    rw [captured_break pending.plain pending.short ends, empty, flushed, List.append_assoc]
    rfl
  cases x with
  | none => exact ended c.prevCharWasCr rfl
  | some ch =>
    simp only [Captured.output, Output.log, Transcript.addChar]
    by_cases newline : ch = 10 ∨ ch = 13
    · have ends : isBreak (some ch) = true := by simpa [isBreak] using newline
      rw [if_pos newline]
      by_cases second : ch = 10 ∧ c.prevCharWasCr
      · -- The LF of a CR LF, with the line flushed.
        have empty := pending.cr second.2
        rw [if_pos second]
        refine ⟨pending_empty empty, ?_⟩
        have rest : captured (some ch :: input) = captured input :=
          captured_break (fun _ mem => absurd mem List.not_mem_nil) (Nat.zero_le 255) ends
        rw [empty]
        exact congrArg (c.flushed ++ ·) rest.symm
      · rw [if_neg second]
        exact ended (ch = 13) ends
    · have char : isBreak (some ch) = false := by simpa [isBreak] using newline
      rw [if_neg newline]
      simp only
      by_cases full : webtermLineSize - 1 ≤ c.line.length
      · rw [if_pos full]
        have whole : c.line.length = 255 := Nat.le_antisymm pending.short full
        refine ⟨⟨fun d mem => ?_, by simp [Transcript.flushLine], fun cr => (by cases cr)⟩, ?_⟩
        · obtain rfl := List.mem_singleton.mp mem
          exact char
        · rw [captured_full pending.plain whole char]
          simp [Transcript.flushLine]
      · rw [if_neg full]
        refine ⟨⟨fun d mem => ?_, ?_, fun cr => (by cases cr)⟩, by simp⟩
        · rcases List.mem_append.mp mem with old | new
          · exact pending.plain d old
          · obtain rfl := List.mem_singleton.mp new
            exact char
        · have room : c.line.length < 255 := Nat.not_le.mp full
          rw [List.length_append, List.length_singleton]
          exact room

lemma run_captured (input : List Captured) (pending : Pending c) :
    let c' := runAll Output.log c (input.map Captured.output)
    Pending c' ∧ c'.flushed ++ c'.line = c.flushed ++ captured (c.line.map some ++ input) := by
  induction input generalizing c with
  | nil =>
    refine ⟨pending, ?_⟩
    rw [List.append_nil, captured_line pending.plain pending.short]
    rfl
  | cons x input ih =>
    obtain ⟨next, step⟩ := log_captured pending x input
    obtain ⟨last, run⟩ := ih next
    exact ⟨last, run.trans step⟩

end Run

/-- For every sequence of characters and flushes, what has been flushed to the ring and the pending line are together
what is to be captured of it, and the pending line has at most 255 characters. The ring shows the flushed bytes. -/
theorem capture_exact (buffer : Mem) (input : List Captured) :
    let t := runAll Output.run { ready := true, buffer := buffer } (input.map Captured.output)
    let c := runAll Output.log {} (input.map Captured.output)
    Shows t c ∧ c.flushed ++ t.line = captured input ∧ t.line.length ≤ 255 := by
  intro t c
  have shows : Shows t c := Shows.runs _ (shows_init buffer)
  obtain ⟨pending, all⟩ := run_captured (c := {}) input (pending_empty rfl)
  rw [shows.line]
  exact ⟨shows, all, pending.short⟩

end ResQBoot.Failsafe
