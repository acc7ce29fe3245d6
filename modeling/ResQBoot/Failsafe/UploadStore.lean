import ResQBoot.Lib.Machine
import ResQBoot.Failsafe.Frame

/-!
# Storing an upload

What a segment of an upload leaves in RAM: the upload is waiting for its file (`Waiting`), receiving it with the RAM
holding the bytes so far (`Receiving`), marked failed (`Failing`), or over. Pointers do not wrap: DRAM ends 64 KiB below
2 ^ 32 at the latest, and a segment is shorter than 64 KiB.
-/

namespace ResQBoot.Failsafe

variable {b : Board} {boundary payload data : Bytes} {t : UploadType} {e n : Nat} {m : Mem}

/-! ## The start of the file -/

def filePart (boundary data : Bytes) : Option (UploadType × Nat × Nat) :=
  (strstr data 0 boundary).bind fun st =>
    (findUploadType (cstr (data.drop st))).bind fun t =>
      (fileHeaderEnd t (cstr (data.drop st))).map fun e => (t, st, e)

def fileStart (boundary data : Bytes) : Option Nat :=
  (filePart boundary data).map fun p => p.2.1 + p.2.2 + 4

lemma length_cstr_le (d : Bytes) : (cstr d).length ≤ d.length :=
  (List.takeWhile_prefix _).length_le

lemma fileHeaderEnd_le {start : Bytes}
    (h : fileHeaderEnd t start = some e) : e + 4 ≤ start.length := by
  unfold fileHeaderEnd at h
  split at h
  · simp at h
  rename_i k _
  obtain ⟨j, hj, rfl⟩ := Option.map_eq_some_iff.mp h
  have le := find_le hj
  have len : blankLine.length = 4 := by decide
  simp only [List.length_drop] at le
  omega

lemma filePart_le {st : Nat}
    (h : filePart boundary data = some (t, st, e)) : st + e + 4 ≤ data.length := by
  simp only [filePart, Option.bind_eq_some_iff, Option.map_eq_some_iff, Prod.mk.injEq] at h
  obtain ⟨st', -, t', -, e', he, rfl, rfl, rfl⟩ := h
  have h1 := fileHeaderEnd_le he
  have h2 := length_cstr_le (data.drop st')
  simp only [List.length_drop] at h2
  omega

lemma findandstore_none {w : Work}
    (bd : w.g.boundaryValue = some boundary) (none : filePart boundary data = none) :
    ∃ tg, httpdFindandstoreFirstchunk b data w = (w.setTarget tg, false) := by
  simp only [filePart, Option.bind_eq_none_iff, Option.map_eq_none_iff] at none
  cases hst : strstr data 0 boundary with
  | none => exact ⟨w.g.target, by simp only [httpdFindandstoreFirstchunk, bd, hst]; rfl⟩
  | some st =>
    cases ht : findUploadType (cstr (data.drop st)) with
    | none => exact ⟨w.g.target, by simp only [httpdFindandstoreFirstchunk, bd, hst, ht]; rfl⟩
    | some t =>
      have he := none st hst t ht
      exact ⟨selectTarget w.g.target t.type (cstr (data.drop st)),
        by simp only [httpdFindandstoreFirstchunk, bd, hst, ht, he]⟩

lemma findandstore_some {w : Work} {st : Nat}
    (bd : w.g.boundaryValue = some boundary) (some : filePart boundary data = some (t, st, e)) :
    httpdFindandstoreFirstchunk b data w = startFile b t (e + 4 + boundary.length + 6) (data.drop (st + e + 4))
        (w.setTarget (selectTarget w.g.target t.type (cstr (data.drop st)))) := by
  have le := filePart_le some
  simp only [filePart, Option.bind_eq_some_iff, Option.map_eq_some_iff, Prod.mk.injEq] at some
  obtain ⟨st', hst, t', ht, e', he, rfl, rfl, rfl⟩ := some
  have lt : ¬ data.length ≤ st' + e' := by omega
  simp only [httpdFindandstoreFirstchunk, bd, hst, ht, he, lt, if_false]

/-! ## Arithmetic of the upload area -/

lemma Board.ramEnd_lt (b : Board) : b.ramEnd + 2 ^ 16 ≤ 2 ^ 32 := by
  have h1 := b.sdramEnd_aligned
  have h2 : b.ramEnd < 2 ^ 32 := Nat.mod_lt _ (by decide)
  have h3 : b.ramEnd % 0x10000 = 0 := by simp only [Board.ramEnd, u32]; omega
  omega

lemma Board.uploadAddr_le (b : Board) : b.uploadAddr ≤ b.ramEnd := b.upload_in_ram

lemma Board.uploadAddr_ge (b : Board) : 2 ^ 18 ≤ b.uploadAddr := by
  rcases b.uploadAddr_eq with h | h <;> rw [h] <;> decide

def SameOutside (b : Board) (m m' : Mem) : Prop :=
  ∀ a, a < b.uploadAddr ∨ b.ramEnd ≤ a → m' a = m a

lemma SameOutside.refl (b : Board) (m : Mem) : SameOutside b m m := fun _ _ => rfl

lemma SameOutside.trans {m' m'' : Mem} (h : SameOutside b m m')
    (h' : SameOutside b m' m'') : SameOutside b m m'' :=
  fun a out => (h' a out).trans (h a out)

lemma SameOutside.write {a : Nat} (bs : Bytes) (ge : b.uploadAddr ≤ a)
    (le : a + bs.length ≤ b.ramEnd) : SameOutside b m (m.write a bs) :=
  fun _ out => Mem.write_outside (by omega)

lemma SameOutside.fill {v : UInt8}
    (le : b.uploadAddr + n ≤ b.ramEnd) : SameOutside b m (m.fill b.uploadAddr n v) :=
  fun _ out => Mem.fill_outside (by omega)

/-! ## The phases of an upload -/

structure Uploading (boundary : Bytes) (w : Work) : Prop where
  run : w.g.crashed = false
  state : w.hs.state = .uploadRequest
  bound : w.g.boundaryValue = some boundary
  short : boundary.length < 2 ^ 16 + 2

structure Waiting (b : Board) (boundary : Bytes) (w : Work) : Prop extends Uploading boundary w where
  found : w.g.upload.dataStartFound = false
  big : w.g.upload.fileTooBig = false
  pointer : w.g.dataPointer = b.uploadAddr
  ramEnd : w.g.upload.ramEnd = b.ramEnd

/-- What has been received of the file is in RAM, up to the declared size. -/
structure Loaded (b : Board) (payload : Bytes) (w : Work) : Prop where
  ok : w.g.upload.failed = false
  pointer : w.g.dataPointer = b.uploadAddr + min payload.length w.hs.uploadTotal
  inRam : w.g.dataPointer ≤ b.ramEnd
  ramEnd : w.g.upload.ramEnd = b.ramEnd
  stored : (w.mem .ram).read b.uploadAddr (min payload.length w.hs.uploadTotal) =
    payload.take w.hs.uploadTotal

/-- The file is being received. The count may be behind: a chunk of a backup that is handed over late resets it. -/
structure Receiving (b : Board) (boundary payload : Bytes) (w : Work) : Prop
    extends Uploading boundary w, Loaded b payload w where
  found : w.g.upload.dataStartFound = true
  count : w.hs.upload ≤ payload.length
  more : w.hs.upload < w.hs.uploadTotal + boundary.length + 6

structure Failing (b : Board) (boundary : Bytes) (w : Work) : Prop extends Uploading boundary w where
  failed : w.g.upload.failed = true
  waiting : w.g.upload.dataStartFound = false → Waiting b boundary w

inductive Spoiled (b : Board) (boundary : Bytes) (done : List Completed) : Work × Fate → Prop where
  | dropped {w} (run : w.g.crashed = false) (same : w.g.hist.completed = done) :
    Spoiled b boundary done (w, .freed)
  | failing {w} (fail : Failing b boundary w) (same : w.g.hist.completed = done) :
    Spoiled b boundary done (w, .keep)
  | answered {w} (run : w.g.crashed = false) (state : w.hs.state = .fileRequest)
      (same : w.g.hist.completed = done) : Spoiled b boundary done (w, .keep)

/-! ## Completion -/

section
variable {b : Board} {e : Env} {boundary payload : Bytes} {w : Work}

@[simp] lemma httpdSendText_g (t : Bytes) : (httpdSendText e t w).g = w.g := rfl

@[simp] lemma httpdSendText_state (t : Bytes) : (httpdSendText e t w).hs.state = .fileRequest := by
  simp [httpdSendText, httpdSendStatic, httpdSendData]

@[simp] lemma httpdUploadComplete_crashed : (httpdUploadComplete w).g.crashed = w.g.crashed := by
  unfold httpdUploadComplete
  dsimp only
  split <;> rfl

lemma completed_failed (failed : w.g.upload.failed = true) : (httpdUploadComplete w).g.hist = w.g.hist := by
  simp [httpdUploadComplete, failed]

lemma completed_ok (ok : w.g.upload.failed = false) : ∃ c : Completed, c.size = w.hs.uploadTotal ∧
      (httpdUploadComplete w).g.hist.completed = w.g.hist.completed ++ [c] := by
  simp [httpdUploadComplete, ok]

@[simp] lemma finishUpload_mem : (finishUpload e w).mem = w.mem := rfl

@[simp] lemma finishUpload_state : (finishUpload e w).hs.state = .fileRequest := by
  simp [finishUpload]

@[simp] lemma finishUpload_crashed : (finishUpload e w).g.crashed = w.g.crashed := by
  simp [finishUpload]

@[simp] lemma finishUpload_hist : (finishUpload e w).g.hist = (httpdUploadComplete w).g.hist := by
  simp [finishUpload]

@[simp] lemma checkComplete_mem : (httpdCheckUploadComplete e w).mem = w.mem := by
  unfold httpdCheckUploadComplete
  split
  · rfl
  · split <;> rfl

lemma checkComplete_failing (fail : Failing b boundary w) :
    Spoiled b boundary w.g.hist.completed (httpdCheckUploadComplete e w, .keep) := by
  unfold httpdCheckUploadComplete
  rw [fail.bound]
  dsimp only
  split_ifs
  · refine .answered ?_ ?_ ?_
    · simpa using fail.run
    · simp
    · simp [completed_failed fail.failed]
  · exact .failing fail rfl

end

/-! ## Storing -/

section
variable {b : Board} {boundary payload d : Bytes} {w : Work}

lemma storeFirst_cases (short : payload.length < 2 ^ 16) (ptr : w.g.dataPointer = b.uploadAddr)
    (re : w.g.upload.ramEnd = b.ramEnd) :
    (w.g.upload.fileTooBig = true ∧ storeFirst payload w = w.setCount payload.length) ∨
    storeFirst payload w = (w.setCount payload.length).tooBig ∨
    (b.uploadAddr + min payload.length w.hs.uploadTotal ≤ b.ramEnd ∧
      storeFirst payload w = (w.setCount payload.length).append
        (payload.take (min payload.length w.hs.uploadTotal))) := by
  have h1 := b.ramEnd_lt
  have h2 := b.uploadAddr_le
  have lt : b.uploadAddr + min payload.length w.hs.uploadTotal < 2 ^ 32 := by omega
  by_cases big : w.g.upload.fileTooBig = true
  · exact .inl ⟨big, by simp [storeFirst, Work.setCount, big]⟩
  · by_cases beyond : b.ramEnd < b.uploadAddr + min payload.length w.hs.uploadTotal
    · exact .inr (.inl (by simp [storeFirst, Work.setCount, big, ptr, re, u32_of_lt lt, beyond]))
    · exact .inr (.inr ⟨by omega, by simp [storeFirst, Work.setCount, big, ptr, re, u32_of_lt lt, beyond]⟩)

lemma append_pointer (bs : Bytes) (fits : w.g.dataPointer + bs.length ≤ b.ramEnd) :
    (w.append bs).g.dataPointer = w.g.dataPointer + bs.length := by
  have := b.ramEnd_lt
  exact u32_of_lt (by omega)

lemma storeFirst_loaded (ok : w.g.upload.failed = false) (ptr : w.g.dataPointer = b.uploadAddr)
    (re : w.g.upload.ramEnd = b.ramEnd) (fits : b.uploadAddr + min payload.length w.hs.uploadTotal ≤ b.ramEnd) :
    Loaded b payload ((w.setCount payload.length).append (payload.take (min payload.length w.hs.uploadTotal))) := by
  have len : (payload.take (min payload.length w.hs.uploadTotal)).length =
      min payload.length w.hs.uploadTotal := by simp
  have ptr' := append_pointer (b := b) (w := w.setCount payload.length)
    (payload.take (min payload.length w.hs.uploadTotal)) (by simpa [Work.setCount, ptr] using fits)
  have take : payload.take (min payload.length w.hs.uploadTotal) = payload.take w.hs.uploadTotal := by
    rw [List.take_eq_take_iff]
    omega
  refine ⟨ok, ?_, ?_, re, ?_⟩
  · rw [ptr', len]
    simp [Work.append, Work.setCount, ptr]
  · rw [ptr', len]
    simpa [Work.setCount, ptr] using fits
  · have := Mem.read_write (w.mem .ram) b.uploadAddr (payload.take (min payload.length w.hs.uploadTotal))
    rw [len] at this
    simpa [Work.append, Work.setCount, ptr, take] using this

lemma Loaded.trailer (load : Loaded b payload w) (full : w.hs.uploadTotal ≤ payload.length) (n : Nat) :
    Loaded b (payload ++ d) (w.setCount n) := by
  have len : min (payload ++ d).length w.hs.uploadTotal = min payload.length w.hs.uploadTotal := by
    simp only [List.length_append]
    omega
  have take : (payload ++ d).take w.hs.uploadTotal = payload.take w.hs.uploadTotal :=
    List.take_append_of_le_length full
  refine ⟨load.ok, ?_, load.inRam, load.ramEnd, ?_⟩
  · simpa [Work.setCount, ← List.length_append, len] using load.pointer
  · show (w.mem .ram).read b.uploadAddr (min (payload ++ d).length w.hs.uploadTotal) = _
    rw [len, load.stored]
    exact take.symm

lemma Loaded.append (load : Loaded b payload w) (part : payload.length < w.hs.uploadTotal)
    (num : n = min d.length (w.hs.uploadTotal - payload.length)) (fits : w.g.dataPointer + n ≤ b.ramEnd) (count : Nat) :
    Loaded b (payload ++ d) ((w.setCount count).append (d.take n)) := by
  have len : (d.take n).length = n := by
    simp only [List.length_take]
    omega
  have ptr := load.pointer
  rw [Nat.min_eq_left (Nat.le_of_lt part)] at ptr
  have tot : min (payload ++ d).length w.hs.uploadTotal = payload.length + n := by
    simp only [List.length_append]
    omega
  have ptr' := append_pointer (b := b) (w := w.setCount count) (d.take n)
    (by rw [len]; exact fits)
  rw [len] at ptr'
  refine ⟨load.ok, ?_, ?_, load.ramEnd, ?_⟩
  · rw [ptr']
    show w.g.dataPointer + n = b.uploadAddr + min (payload ++ d).length w.hs.uploadTotal
    omega
  · rw [ptr']
    exact fits
  show Mem.read (Function.update w.mem .ram ((w.mem .ram).write w.g.dataPointer (d.take n)) .ram) b.uploadAddr
    (min (payload ++ d).length w.hs.uploadTotal) = (payload ++ d).take w.hs.uploadTotal
  have stored := load.stored
  rw [Nat.min_eq_left (Nat.le_of_lt part), List.take_of_length_le (Nat.le_of_lt part)] at stored
  have app := Mem.read_write_append (w.mem .ram) b.uploadAddr payload.length (d.take n)
  rw [len] at app
  have take : d.take n = d.take (w.hs.uploadTotal - payload.length) := by
    rw [List.take_eq_take_iff]
    omega
  rw [Function.update_self, tot, ptr, app, stored, List.take_append, List.take_of_length_le (Nat.le_of_lt part), take]

lemma handleUploadData_cases (load : Loaded b payload w) (short : d.length < 2 ^ 16) (count : Nat) :
    let w' := w.setCount count
    httpdHandleUploadData b d w' = w'.tooBig ∨
    Loaded b (payload ++ d) (httpdHandleUploadData b d w') ∧
      SameOutside b (w.mem .ram) ((httpdHandleUploadData b d w').mem .ram) ∧
      (httpdHandleUploadData b d w' = w' ∨ ∃ n, httpdHandleUploadData b d w' = w'.append (d.take n)) := by
  have h1 := b.ramEnd_lt
  have h2 := b.uploadAddr_le
  have ptr := load.pointer
  have inRam := load.inRam
  have written : w.written b = min payload.length w.hs.uploadTotal := by
    simp only [Work.written, u32]
    omega
  intro w'
  by_cases full : w.hs.uploadTotal ≤ payload.length
  · have same : httpdHandleUploadData b d w' = w' := by
      have eq : min payload.length w.hs.uploadTotal = w.hs.uploadTotal := by omega
      have eq' : w'.written b = w'.hs.uploadTotal := written.trans eq
      simp [httpdHandleUploadData, eq']
    rw [same]
    exact .inr ⟨load.trailer full count, .refl _ _, .inl rfl⟩
  · have eq : min payload.length w.hs.uploadTotal = payload.length := by omega
    have ne : ¬ payload.length = w.hs.uploadTotal := by omega
    have num : (if w.hs.uploadTotal < payload.length + d.length then
        w.hs.uploadTotal - payload.length else d.length) =
        min d.length (w.hs.uploadTotal - payload.length) := by split <;> omega
    have nwrap : u32 (w.g.dataPointer + min d.length (w.hs.uploadTotal - payload.length)) =
        w.g.dataPointer + min d.length (w.hs.uploadTotal - payload.length) :=
      u32_of_lt (by omega)
    have eq' : w'.written b = payload.length := written.trans eq
    have unfolded : httpdHandleUploadData b d w' =
        if 0 < min d.length (w.hs.uploadTotal - payload.length) ∧
          b.ramEnd < w.g.dataPointer + min d.length (w.hs.uploadTotal - payload.length)
        then w'.tooBig else w'.append (d.take (min d.length (w.hs.uploadTotal - payload.length))) := by
      have lt : ¬ w.hs.uploadTotal < payload.length := by omega
      have tot : w'.hs.uploadTotal = w.hs.uploadTotal := rfl
      have ptr' : w'.g.dataPointer = w.g.dataPointer := rfl
      have re : w'.g.upload.ramEnd = b.ramEnd := load.ramEnd
      simp only [httpdHandleUploadData, eq', tot, ptr', re, num, nwrap, ne, lt, if_false]
    rw [unfolded]
    split_ifs with beyond
    · exact .inl rfl
    have fits : w.g.dataPointer + min d.length (w.hs.uploadTotal - payload.length) ≤ b.ramEnd := by
      omega
    refine .inr ⟨load.append (by omega) rfl fits count, ?_, .inr ⟨_, rfl⟩⟩
    have := SameOutside.write (b := b) (m := w.mem .ram) (a := w.g.dataPointer)
      (d.take (min d.length (w.hs.uploadTotal - payload.length))) (by omega)
      (by simp only [List.length_take]; omega)
    simpa [Work.append, w', Work.setCount] using this

end

/-! ## One segment -/

section
variable {b : Board} {e : Env} {boundary d : Bytes} {w : Work}

lemma Uploading.of_eq {w' : Work} (up : Uploading boundary w) (run : w'.g.crashed = w.g.crashed)
    (state : w'.hs.state = w.hs.state) (bound : w'.g.boundaryValue = w.g.boundaryValue) :
    Uploading boundary w' :=
  ⟨run.trans up.run, state.trans up.state, bound.trans up.bound, up.short⟩

/-- A segment has been stored with `payload` received of the file, or the upload is marked failed. -/
structure Started (b : Board) (boundary payload : Bytes) (count : Nat) (w w' : Work) : Prop
    extends Uploading boundary w' where
  counted : w'.hs.upload = count
  outside : SameOutside b (w.mem .ram) (w'.mem .ram)
  hist : w'.g.hist = w.g.hist
  kept : w'.h = w.h
  failed : w.g.upload.failed = true → w'.g.upload.failed = true
  stored : w'.g.upload.failed = true ∨ Loaded b payload w'

lemma storeFirst_started (payload : Bytes) (up : Uploading boundary w) (ptr : w.g.dataPointer = b.uploadAddr)
    (re : w.g.upload.ramEnd = b.ramEnd) (big : w.g.upload.fileTooBig = true → w.g.upload.failed = true)
    (short : payload.length < 2 ^ 16) :
    Started b boundary payload payload.length w (storeFirst payload w) := by
  obtain ⟨tooBig, eq⟩ | eq | ⟨fits, eq⟩ := storeFirst_cases short ptr re
  · rw [eq]
    exact { up.of_eq rfl rfl rfl with
      counted := rfl, outside := .refl _ _, hist := rfl, kept := rfl, failed := id, stored := .inl (big tooBig) }
  · rw [eq]
    exact { up.of_eq rfl rfl rfl with
      counted := rfl, outside := .refl _ _, hist := rfl, kept := rfl, failed := fun _ => rfl, stored := .inl rfl }
  · rw [eq]
    have outside := SameOutside.write (b := b) (m := w.mem .ram) (a := w.g.dataPointer)
      (payload.take (min payload.length w.hs.uploadTotal)) (by omega)
      (by simp only [List.length_take]; omega)
    refine { up.of_eq rfl rfl rfl with
      counted := rfl, outside := ?_, hist := rfl, kept := rfl, failed := id, stored := ?_ }
    · simpa [Work.append, Work.setCount] using outside
    · cases failed : w.g.upload.failed with
      | true => exact .inl failed
      | false => exact .inr (storeFirst_loaded failed ptr re fits)

lemma startFile_cases (t : UploadType) (overhead : Nat)
    (wait : Waiting b boundary w) (short : payload.length < 2 ^ 16) :
    startFile b t overhead payload w = (w.fail, false) ∨
    ∃ w', startFile b t overhead payload w = (w', true) ∧
      Started b boundary payload payload.length w w' := by
  unfold startFile
  split_ifs with small
  · exact .inl rfl
  refine .inr ⟨_, rfl, ?_⟩
  split_ifs
  · have := storeFirst_started payload
      (w := (w.setFile t (w.hs.uploadTotal - overhead)).tooBig) (wait.of_eq rfl rfl rfl)
      wait.pointer wait.ramEnd (fun _ => rfl) short
    exact { this with failed := fun _ => this.failed rfl }
  · have := storeFirst_started payload (w := w.setFile t (w.hs.uploadTotal - overhead)) (wait.of_eq rfl rfl rfl)
      wait.pointer wait.ramEnd (fun h => absurd (wait.big.symm.trans h) (by decide)) short
    exact { this with }

lemma Started.spoiled {w' : Work} (start : Started b boundary payload n w w')
    (failed : w'.g.upload.failed = true) : Spoiled b boundary w.g.hist.completed (fileStarted e w') := by
  rw [← start.hist]
  unfold fileStarted
  dsimp only
  split_ifs
  · have up : Uploading boundary (w'.setFound true) := start.of_eq rfl rfl rfl
    exact checkComplete_failing (w := w'.setFound true) { up with failed := failed, waiting := fun h => by cases h }
  · refine .dropped ?_ ?_
    · simpa [httpdCloseConn, Work.setFound] using start.run
    · simp [Work.setFound]

lemma findandstore_cases (wait : Waiting b boundary w) (short : d.length < 2 ^ 16) :
    (∃ tg, httpdFindandstoreFirstchunk b d w = (w.setTarget tg, false) ∧ fileStart boundary d = none) ∨
    (∃ tg, httpdFindandstoreFirstchunk b d w = ((w.setTarget tg).fail, false)) ∨
    ∃ k w', httpdFindandstoreFirstchunk b d w = (w', true) ∧ fileStart boundary d = some k ∧
      Started b boundary (d.drop k) (d.drop k).length w w' := by
  cases part : filePart boundary d with
  | none =>
    obtain ⟨tg, eq⟩ := findandstore_none (b := b) wait.bound part
    exact .inl ⟨tg, eq, by simp [fileStart, part]⟩
  | some p =>
    obtain ⟨t, st, e⟩ := p
    rw [findandstore_some wait.bound part]
    have wait' : Waiting b boundary (w.setTarget (selectTarget w.g.target t.type (cstr (d.drop st)))) :=
      { wait.of_eq rfl rfl rfl, wait with }
    have short' : (d.drop (st + e + 4)).length < 2 ^ 16 := by
      simp only [List.length_drop]
      omega
    obtain eq | ⟨w', eq, start⟩ := startFile_cases t (e + 4 + boundary.length + 6) wait' short'
    · exact .inr (.inl ⟨_, eq⟩)
    · exact .inr (.inr ⟨st + e + 4, w', eq, by simp [fileStart, part], { start with }⟩)

lemma Receiving.stores (rcv : Receiving b boundary payload w) (short : d.length < 2 ^ 16) :
    let w' := httpdHandleUploadData b d (w.setCount (w.hs.upload + d.length))
    httpdContinueUpload b e d w = (httpdCheckUploadComplete e w', .keep) ∧
      Started b boundary (payload ++ d) (w.hs.upload + d.length) w w' ∧
      w'.g.upload.dataStartFound = true ∧ w'.hs.uploadTotal = w.hs.uploadTotal := by
  have h1 := b.ramEnd_lt
  have h2 := b.uploadAddr_ge
  have ptr := rcv.pointer
  have inRam := rcv.inRam
  have more := rcv.more
  have received := rcv.count
  have shortB := rcv.short
  have count : u32 (w.hs.upload + d.length) = w.hs.upload + d.length := u32_of_lt (by omega)
  have ok : (w.setCount (w.hs.upload + d.length)).g.upload.failed = false := rcv.ok
  refine ⟨?_, ?_⟩
  · simp only [httpdContinueUpload, rcv.found, if_true, count, ok, Bool.false_eq_true, if_false]
  obtain big | ⟨load, outside, same | ⟨n, app⟩⟩ := handleUploadData_cases rcv.toLoaded short (w.hs.upload + d.length)
  · rw [big]
    exact ⟨{ rcv.of_eq rfl rfl rfl with
      counted := rfl, outside := .refl _ _, hist := rfl, kept := rfl, failed := fun _ => rfl, stored := .inl rfl },
      rcv.found, rfl⟩
  · rw [same] at load outside ⊢
    exact ⟨{ rcv.of_eq rfl rfl rfl with
      counted := rfl, outside := outside, hist := rfl, kept := rfl, failed := id, stored := .inr load },
      rcv.found, rfl⟩
  · rw [app] at load outside ⊢
    exact ⟨{ rcv.of_eq rfl rfl rfl with
      counted := rfl, outside := outside, hist := rfl, kept := rfl, failed := id, stored := .inr load },
      rcv.found, rfl⟩

lemma parseBoundary_spec {ok : Bool} {bd : Bytes} (short : d.length < 2 ^ 16) (h : httpdParseBoundary ok d = some bd) :
    httpdParseBoundary true d = some bd ∧ bd.length < 2 ^ 16 + 2 := by
  unfold httpdParseBoundary at h
  cases hp : strstr d 0 (bytes "boundary=") with
  | none => simp [hp] at h
  | some p =>
    rw [hp] at h
    cases hn : find (bytes "\r\n") (cstr (d.drop (p + 9))) with
    | none => simp [hn] at h
    | some n =>
      cases ok with
      | false => simp [hn] at h
      | true =>
        have len : (bytes "--").length = 2 := by decide
        simp only [hn, if_true, Option.some.injEq] at h
        subst h
        refine ⟨by simp [httpdParseBoundary, hp, hn], ?_⟩
        simp only [List.length_append, len, List.length_take, List.length_drop]
        omega

lemma initUploadRam_outside : SameOutside b (w.mem .ram) ((httpdInitUploadRam b w).mem .ram) := by
  have h1 := b.uploadAddr_le
  have h2 : u32 (b.uploadAddr + b.ubootSize) = b.uploadAddr + b.ubootSize :=
    u32_of_lt b.ubootSize_lt
  simp only [httpdInitUploadRam, Function.update_self, h2]
  exact .fill (by split <;> omega)

lemma waiting_init (total : Nat) (run : w.g.crashed = false) (short : boundary.length < 2 ^ 16 + 2) : Waiting b boundary
      (httpdInitUploadRam b ((w.resetUpload.takeOver total).setBoundary boundary)) :=
  { run := run, state := rfl, bound := rfl, short := short, found := rfl, big := rfl, pointer := rfl,
    ramEnd := rfl }

end

/-! ## The segments of a connection -/

def deliver (b : Board) (s : Server) (h : Addr) (segs : List (Env × Segment)) : Server :=
  runAll (step b) s (segs.map fun x => .recv h x.1 x.2)

def segBytes (segs : List (Env × Segment)) : List Bytes := segs.map fun x => x.2.data

section
variable {b : Board} {s : Server} {h : Addr}

lemma step_recv {c : Conn} {e : Env} {seg : Segment} (run : s.crashed = false)
    (net : s.netEnabled = true) (live : s.conns h = some c) :
    step b s (.recv h e seg) = s.commit (httpdRecv b e seg.data (s.work h c)) := by
  simp [step, run, Event.isNet, net, netStep, Server.onConn, live]

lemma step_recv_absent {e : Env} {seg : Segment} (gone : s.conns h = none) : step b s (.recv h e seg) = s := by
  simp [step, Event.isNet, netStep, Server.onConn, gone]

structure Tracks (h : Addr) (P : Work × Fate → Prop) (s : Server) : Prop where
  run : s.crashed = false
  net : s.netEnabled = true
  holds : (∃ c, s.conns h = some c ∧ P (s.work h c, .keep)) ∨
    (s.conns h = none ∧ ∃ c, P (s.work h c, .freed))

lemma Tracks.commit {P : Work × Fate → Prop} {w : Work} {f : Fate} {c : Conn} (run : s.netEnabled = true)
    (keeps : Keeps (s.work h c) w) (well : w.g.crashed = false) (kept : f = .keep ∨ f = .freed) (holds : P (w, f)) :
    Tracks h P (s.commit (w, f)) := by
  obtain rfl : w.h = h := keeps.h
  have running : (s.commit (w, f)).isRunning = s.isRunning := keeps.running
  have net (stack : (s.commit (w, f)).stack = s.stack) : (s.commit (w, f)).netEnabled = true := by
    rw [Server.netEnabled, stack]
    rw [Server.netEnabled] at run
    simpa [running] using run
  rcases kept with rfl | rfl
  · exact ⟨well, net rfl, .inl ⟨w.hs, by simp, holds⟩⟩
  · exact ⟨well, net rfl, .inr ⟨by simp, w.hs, holds⟩⟩

lemma Tracks.step {P Q : Work × Fate → Prop} (tr : Tracks h P s) (e : Env) (seg : Segment)
    (sane : ∀ w f, Q (w, f) → w.g.crashed = false ∧ (f = .keep ∨ f = .freed))
    (live : ∀ w, P (w, .keep) → Q (httpdRecv b e seg.data w)) (gone : ∀ w, P (w, .freed) → Q (w, .freed)) :
    Tracks h Q (step b s (.recv h e seg)) := by
  obtain ⟨c, conn, holds⟩ | ⟨none_, c, holds⟩ := tr.holds
  · have next := live _ holds
    rw [step_recv tr.run tr.net conn]
    obtain ⟨well, kept⟩ := sane _ _ next
    exact .commit (c := c) tr.net Keeps.recv well kept next
  · rw [step_recv_absent none_]
    exact ⟨tr.run, tr.net, .inr ⟨none_, c, gone _ holds⟩⟩

lemma deliver_stopped (stopped : s.crashed = true ∨ s.netEnabled = false)
    (segs : List (Env × Segment)) : deliver b s h segs = s := by
  induction segs with
  | nil => rfl
  | cons x rest ih =>
    have stay : Failsafe.step b s (.recv h x.1 x.2) = s := by
      obtain crashed | off := stopped
      · simp [Failsafe.step, crashed]
      · simp [Failsafe.step, Event.isNet, off]
    simpa [deliver, runAll, stay] using ih

end

end ResQBoot.Failsafe
