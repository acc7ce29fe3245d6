import ResQBoot.Lib.Ring
import ResQBoot.Lib.Machine
import ResQBoot.Failsafe.Webterm

/-!
# The output ring as a stream

A `Transcript` is the stream of the lines that have been flushed since the last reset, and the line that is being
captured. `Shows` relates it to the ring of `webterm.c`.
-/

namespace ResQBoot.Failsafe

structure Transcript where
  flushed : Bytes := []
  line : Bytes := []
  prevCharWasCr : Bool := false

namespace Transcript

def flushLine (c : Transcript) : Transcript := { c with flushed := c.flushed ++ (c.line ++ [10]), line := [] }

def flushPending (c : Transcript) : Transcript := if c.line.isEmpty then c else c.flushLine

def addChar (c : Transcript) (ch : UInt8) : Transcript :=
  if ch = 10 ∨ ch = 13 then
    if ch = 10 ∧ c.prevCharWasCr then { c with prevCharWasCr := false }
    else ({ c with prevCharWasCr := ch = 13 } : Transcript).flushPending
  else
    let c : Transcript := { c with prevCharWasCr := false }
    let c := if webtermLineSize - 1 ≤ c.line.length then c.flushLine else c
    { c with line := c.line ++ [ch] }

end Transcript

inductive Output where
  | puts (str : Bytes)
  | putc (c : UInt8)
  | flush
  | reset

def Output.run (t : Webterm) : Output → Webterm
  | .puts str => t.captureOutput str
  | .putc c => t.addChar c
  | .flush => t.flushPending
  | .reset => t.reset

def Output.log (c : Transcript) : Output → Transcript
  | .puts str => (cstr str).foldl Transcript.addChar c
  | .putc ch => c.addChar ch
  | .flush => c.flushPending
  | .reset => {}

structure Shows (t : Webterm) (c : Transcript) : Prop where
  ready : t.ready = true
  line : t.line = c.line
  cr : t.prevCharWasCr = c.prevCharWasCr
  short : c.line.length < webtermLineSize
  seq : t.outputSeq = c.flushed.length
  count : t.count = min c.flushed.length webtermBufferSize
  head : t.head = c.flushed.length % webtermBufferSize
  tail : t.tail = (c.flushed.length - t.count) % webtermBufferSize
  cells : Ring.Holds webtermBufferSize t.buffer c.flushed

namespace Shows

variable {t : Webterm} {c : Transcript}

lemma bufferSize_pos : 0 < webtermBufferSize := by decide

lemma batchCopy_buffer (t : Webterm) (src : Bytes) :
    (t.batchCopy src).buffer = Ring.push webtermBufferSize t.buffer t.head src := by
  simp only [Webterm.batchCopy, Ring.push]
  split
  · rfl
  · rename_i whole
    rw [List.drop_eq_nil_of_le (by omega)]
    funext x
    simp [Mem.write]

section

variable (sh : Shows t c)
include sh

lemma batchCopy_head {src : Bytes} (fits : src.length < webtermBufferSize) :
    (t.batchCopy src).head = (c.flushed.length + src.length) % webtermBufferSize := by
  have below := Nat.mod_lt c.flushed.length bufferSize_pos
  rw [Ring.add_mod_of_lt _ fits]
  simp only [Webterm.batchCopy, sh.head]
  split
  · rename_i wraps
    rw [if_neg (by omega)]
    omega
  rename_i whole
  have first : min src.length (webtermBufferSize - c.flushed.length % webtermBufferSize) = src.length := by
    omega
  rw [first]
  by_cases room : c.flushed.length % webtermBufferSize + src.length < webtermBufferSize
  · rw [if_pos room, Nat.mod_eq_of_lt room]
    split <;> omega
  · have full : c.flushed.length % webtermBufferSize + src.length = webtermBufferSize := by omega
    rw [if_neg room, if_pos (by omega), full, Nat.mod_self, Nat.sub_self]

lemma batchCopy_count (src : Bytes) :
    (t.batchCopy src).count = min (c.flushed.length + src.length) webtermBufferSize := by
  simp only [Webterm.batchCopy, sh.count]
  omega

lemma batchCopy_tail (src : Bytes) : (t.batchCopy src).tail =
      (c.flushed.length + src.length - (t.batchCopy src).count) % webtermBufferSize := by
  have count := sh.count
  rw [sh.batchCopy_count src]
  simp only [Webterm.batchCopy, sh.tail]
  split
  · rename_i full
    have moved : c.flushed.length - t.count + (t.count + src.length - webtermBufferSize) =
        c.flushed.length + src.length - min (c.flushed.length + src.length) webtermBufferSize := by omega
    rw [Nat.add_sub_assoc (by omega), Nat.mod_add_mod, moved]
  · have stays : c.flushed.length - t.count =
        c.flushed.length + src.length - min (c.flushed.length + src.length) webtermBufferSize := by omega
    rw [stays]

lemma flushLine : Shows t.flushLine c.flushLine := by
  have fits : (c.line ++ [10]).length < webtermBufferSize := by
    have := sh.short
    simp only [List.length_append, List.length_singleton]
    exact Nat.lt_of_le_of_lt (Nat.succ_le_of_lt this) (by decide)
  have length : c.flushLine.flushed.length = c.flushed.length + (c.line ++ [10]).length :=
    List.length_append
  have copied : t.flushLine = { t.batchCopy (c.line ++ [10]) with line := [] } := by
    rw [Webterm.flushLine, sh.line]
  rw [copied]
  constructor
  · exact sh.ready
  · rfl
  · exact sh.cr
  · exact Nat.zero_lt_succ _
  · rw [length, ← sh.seq]
    rfl
  · rw [length]
    exact sh.batchCopy_count _
  · rw [length]
    exact sh.batchCopy_head fits
  · rw [length]
    exact sh.batchCopy_tail _
  · change Ring.Holds _ (t.batchCopy (c.line ++ [10])).buffer _
    rw [batchCopy_buffer, sh.head]
    exact sh.cells.push bufferSize_pos (Nat.le_of_lt fits)

lemma flushPending : Shows t.flushPending c.flushPending := by
  rw [Webterm.flushPending, Transcript.flushPending, sh.line]
  split
  · exact sh
  · exact sh.flushLine

lemma setCr (cr : Bool) : Shows { t with prevCharWasCr := cr } { c with prevCharWasCr := cr } :=
  ⟨sh.ready, sh.line, rfl, sh.short, sh.seq, sh.count, sh.head, sh.tail, sh.cells⟩

lemma extendLine (ch : UInt8) (room : c.line.length < webtermLineSize - 1) :
    Shows { t with line := t.line ++ [ch] } { c with line := c.line ++ [ch] } := by
  refine ⟨sh.ready, ?_, sh.cr, ?_, sh.seq, sh.count, sh.head, sh.tail, sh.cells⟩
  · rw [sh.line]
  · simp only [List.length_append, List.length_singleton]
    omega

lemma addChar (ch : UInt8) : Shows (t.addChar ch) (c.addChar ch) := by
  rw [Webterm.addChar, Transcript.addChar, if_neg (by simp [sh.ready])]
  simp only [sh.cr]
  split
  · split
    · exact sh.setCr false
    · exact (sh.setCr _).flushPending
  have plain := sh.setCr false
  have same : webtermLineSize - 1 ≤ t.line.length ↔ webtermLineSize - 1 ≤ c.line.length := by
    rw [sh.line]
  by_cases full : webtermLineSize - 1 ≤ c.line.length
  · simp only [same.mpr full, full, if_true]
    exact plain.flushLine.extendLine ch (Nat.zero_lt_succ _)
  · simp only [mt same.mp full, full, if_false]
    exact plain.extendLine ch (Nat.lt_of_not_le full)

lemma puts (str : Bytes) : Shows (t.captureOutput str) ((cstr str).foldl Transcript.addChar c) := by
  rw [Webterm.captureOutput]
  generalize cstr str = text
  induction text generalizing t c with
  | nil => exact sh
  | cons ch text ih => exact ih (sh.addChar ch)

lemma reset : Shows t.reset {} := by
  rw [Webterm.reset, if_pos sh.ready]
  exact ⟨sh.ready, rfl, rfl, by decide, rfl, rfl, rfl, rfl, Ring.Holds.nil _⟩

lemma output (o : Output) : Shows (o.run t) (o.log c) := by
  cases o with
  | puts str => exact sh.puts str
  | putc ch => exact sh.addChar ch
  | flush => exact sh.flushPending
  | reset => exact sh.reset

end

lemma runs (evs : List Output) : ∀ {t c}, Shows t c → Shows (runAll Output.run t evs) (runAll Output.log c evs) := by
  induction evs with
  | nil => exact fun sh => sh
  | cons o evs ih => exact fun sh => ih (sh.output o)

lemma head_eq (sh : Shows t c) : t.head = (t.tail + t.count) % webtermBufferSize := by
  have count := sh.count
  rw [sh.tail, Nat.mod_add_mod, sh.head]
  congr 1
  omega

lemma contents (sh : Shows t c) : Ring.pull webtermBufferSize t.buffer t.tail t.count = c.flushed.rtake t.count := by
  have count := sh.count
  rw [sh.tail]
  exact sh.cells.pull bufferSize_pos (by omega) (by omega)

lemma getOutput (sh : Shows t c) (size : Nat) (since : Int) : t.getOutput size since =
      c.flushed.rtake (min (min (t.outputSeq - since.toNat) t.count) (size - 1)) := by
  have count := sh.count
  rw [Webterm.getOutput, sh.ready]
  simp only [Bool.not_true, Bool.false_eq_true, false_or]
  split
  · rename_i empty
    have none : min (min (t.outputSeq - since.toNat) t.count) (size - 1) = 0 := by omega
    rw [none, List.rtake_zero]
  generalize len_eq : min (min (t.outputSeq - since.toNat) t.count) (size - 1) = len
  have start : (t.tail + (t.count - len)) % webtermBufferSize = (c.flushed.length - len) % webtermBufferSize := by
    rw [sh.tail, Nat.mod_add_mod]
    congr 1
    omega
  rw [start]
  exact sh.cells.pull bufferSize_pos (by omega) (by omega)

end Shows

lemma shows_init (buffer : Mem) : Shows { ready := true, buffer := buffer } {} :=
  ⟨rfl, rfl, rfl, by decide, rfl, rfl, rfl, rfl, Ring.Holds.nil _⟩

/-- After every sequence of output, flushes and resets the ring holds the last bytes of the stream that
has been flushed since the last reset, in order, and `webterm_get_output` returns the last of them, as
many as have been flushed since `since`, are there and fit. -/
theorem ring_refines (buffer : Mem) (evs : List Output) :
    let t := runAll Output.run { ready := true, buffer := buffer } evs
    let flushed := (runAll Output.log {} evs).flushed
    t.head = (t.tail + t.count) % webtermBufferSize ∧ t.count = min webtermBufferSize flushed.length ∧
      (List.range t.count).map (fun i => t.buffer ((t.tail + i) % webtermBufferSize)) = flushed.rtake t.count ∧
      t.outputSeq = flushed.length ∧
      ∀ (size : Nat) (since : Int),
        t.getOutput size since = flushed.rtake (min (min (t.outputSeq - since.toNat) t.count) (size - 1)) ∧
          (t.outputSeq ≤ since → t.getOutput size since = []) := by
  intro t flushed
  have sh : Shows t (runAll Output.log {} evs) := Shows.runs evs (shows_init buffer)
  have count := sh.count
  refine ⟨sh.head_eq, by rw [sh.count, Nat.min_comm], ?_, sh.seq, fun size since => ⟨sh.getOutput size since, ?_⟩⟩
  · rw [← sh.contents, sh.tail, Ring.pull_eq _ _ Shows.bufferSize_pos (by omega)]
    simp only [Nat.mod_add_mod]
  · intro old
    have none : t.outputSeq - since.toNat = 0 := by omega
    rw [sh.getOutput, none, Nat.zero_min, Nat.zero_min, List.rtake_zero]

end ResQBoot.Failsafe
