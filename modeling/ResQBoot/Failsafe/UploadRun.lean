import ResQBoot.Failsafe.Effects
import ResQBoot.Failsafe.UploadStore

/-!
# When an upload completes

`Taken` says how far an upload is with `payload` received of what follows the head of the file part. It is spoiled only
if its size is refused, it does not fit into RAM or a segment could not be copied.
-/

namespace ResQBoot.Failsafe

def UploadType.Sized (b : Board) (t : UploadType) (n : Nat) : Prop :=
  t.tooBig b n = false ∧ (if t.type = .cdt then 184 else 10240) ≤ n

def UploadType.Accepts (b : Board) (t : UploadType) (n : Nat) : Prop :=
  t.Sized b n ∧ b.uploadAddr + n ≤ b.ramEnd

section
variable {b : Board} {e : Env} {boundary payload d : Bytes} {done : List Completed} {w : Work} {ok : Prop} {total : Nat}

lemma checkUploadSize_iff : httpdCheckUploadSize w = true ↔
    (if w.g.target.upgradeType = .cdt then 184 else 10240) ≤ w.hs.uploadTotal := by
  rw [httpdCheckUploadSize]
  split_ifs <;> simp_all

/-! ## Spoiled uploads -/

lemma Failing.next (fail : Failing b boundary w) (short : d.length < 2 ^ 16) :
    Spoiled b boundary w.g.hist.completed (httpdContinueUpload b e d w) := by
  unfold httpdContinueUpload
  cases found : w.g.upload.dataStartFound with
  | true =>
    have failed : (w.setCount (u32 (w.hs.upload + d.length))).g.upload.failed = true := fail.failed
    simp only [if_true, failed]
    refine checkComplete_failing (w := w.setCount (u32 (w.hs.upload + d.length))) ?_
    exact { fail.of_eq rfl rfl rfl with
      failed := fail.failed, waiting := fun h => absurd (found.symm.trans h) (by decide) }
  | false =>
    have run := fail.run
    simp only [Bool.false_eq_true, if_false]
    obtain ⟨tg, eq, -⟩ | ⟨tg, eq⟩ | ⟨k, w', eq, -, start⟩ := findandstore_cases (fail.waiting found) short
    · rw [eq]
      exact .dropped (by simpa [Work.setTarget] using run) (by simp [Work.setTarget])
    · rw [eq]
      exact .dropped (by simpa [Work.setTarget, Work.fail] using run) (by simp [Work.setTarget, Work.fail])
    · rw [eq]
      exact start.spoiled (start.failed fail.failed)

lemma Spoiled.recv (sp : Spoiled b boundary done (w, .keep)) (short : d.length < 2 ^ 16) :
    Spoiled b boundary done (httpdRecv b e d w) := by
  unfold httpdRecv
  dsimp only
  cases sp with
  | failing fail same =>
    subst same
    split_ifs
    · simp only [show (w.touch e.now).hs.state = .uploadRequest from fail.state]
      exact Failing.next (w := w.touch e.now)
        { fail.of_eq rfl rfl rfl with
          failed := fail.failed
          waiting := fun h => { (fail.waiting h).of_eq rfl rfl rfl, fail.waiting h with } } short
    · exact .dropped (by simpa using fail.run) (by simp)
  | answered run state same =>
    split_ifs
    · simp only [show (w.touch e.now).hs.state = .fileRequest from state]
      exact .answered run state same
    · exact .dropped (by simpa using run) (by simpa using same)

lemma Spoiled.sane {f : Fate} (sp : Spoiled b boundary done (w, f)) :
    w.g.crashed = false ∧ (f = .keep ∨ f = .freed) := by
  cases sp with
  | dropped run => exact ⟨run, .inr rfl⟩
  | failing fail => exact ⟨fail.run, .inl rfl⟩
  | answered run => exact ⟨run, .inl rfl⟩

lemma Spoiled.same {r : Work × Fate} (sp : Spoiled b boundary done r) : r.1.g.hist.completed = done := by
  cases sp with
  | dropped _ same | failing _ same | answered _ _ same => exact same

/-! ## Uploads whose file has started -/

inductive Taken (b : Board) (boundary : Bytes) (done : List Completed) (total : Nat) (ok : Prop) (payload : Bytes) :
    Work × Fate → Prop where
  | spoiled {r : Work × Fate} (bad : ¬ (ok ∧ b.uploadAddr + total ≤ b.ramEnd)) (sp : Spoiled b boundary done r) :
    Taken b boundary done total ok payload r
  | complete {w : Work} {c : Completed} (good : ok) (fits : b.uploadAddr + total ≤ b.ramEnd) (run : w.g.crashed = false)
      (one : w.g.hist.completed = done ++ [c]) (size : c.size = total)
      (all : total + boundary.length + 6 ≤ payload.length)
      (stored : (w.mem .ram).read b.uploadAddr total = payload.take total) :
    Taken b boundary done total ok payload (w, .keep)
  | more {w : Work} (good : ok) (rcv : Receiving b boundary payload w) (counted : w.hs.upload = payload.length)
      (declared : w.hs.uploadTotal = total) (same : w.g.hist.completed = done) :
    Taken b boundary done total ok payload (w, .keep)

lemma Taken.sane {f : Fate} (tk : Taken b boundary done total ok payload (w, f)) :
    w.g.crashed = false ∧ (f = .keep ∨ f = .freed) := by
  cases tk with
  | spoiled _ sp => exact sp.sane
  | complete _ _ run => exact ⟨run, .inl rfl⟩
  | more _ rcv => exact ⟨rcv.run, .inl rfl⟩

lemma checkComplete_taken (good : ok) (up : Uploading boundary w) (load : Loaded b payload w)
    (found : w.g.upload.dataStartFound = true) (count : w.hs.upload = payload.length) :
    Taken b boundary w.g.hist.completed w.hs.uploadTotal ok payload (httpdCheckUploadComplete e w, .keep) := by
  unfold httpdCheckUploadComplete
  rw [up.bound]
  dsimp only
  split_ifs with full
  · obtain ⟨c, size, one⟩ := completed_ok load.ok
    have le : min payload.length w.hs.uploadTotal = w.hs.uploadTotal := by omega
    have stored := load.stored
    have pointer := load.pointer
    have inRam := load.inRam
    rw [le] at stored pointer
    refine .complete (c := c) good (by omega) ?_ ?_ size (by omega) ?_
    · simpa using up.run
    · simpa using one
    · simpa using stored
  · exact .more good { up, load with found := found, count := by omega, more := by omega } count rfl rfl

lemma handleUploadData_fits (load : Loaded b payload w) (fits : b.uploadAddr + w.hs.uploadTotal ≤ b.ramEnd) (n : Nat) :
    (httpdHandleUploadData b d (w.setCount n)).g.upload.failed = false := by
  have limit := b.ramEnd_lt
  have pointer := load.pointer
  have written : (w.setCount n).written b = min payload.length w.hs.uploadTotal := by
    simp only [Work.written, Work.setCount, u32]
    omega
  have total : (w.setCount n).hs.uploadTotal = w.hs.uploadTotal := rfl
  have ends : (w.setCount n).g.upload.ramEnd = b.ramEnd := load.ramEnd
  have at_ : (w.setCount n).g.dataPointer = w.g.dataPointer := rfl
  have ok : (w.setCount n).g.upload.failed = false := load.ok
  simp only [httpdHandleUploadData, written, total, ends, at_]
  have le : ¬ w.hs.uploadTotal < min payload.length w.hs.uploadTotal := by omega
  rw [if_neg le]
  split
  · exact ok
  generalize num : (if w.hs.uploadTotal < min payload.length w.hs.uploadTotal + d.length then
    w.hs.uploadTotal - min payload.length w.hs.uploadTotal else d.length) = k
  have small : k ≤ w.hs.uploadTotal - min payload.length w.hs.uploadTotal := by
    rw [← num]
    split <;> omega
  have wrap : u32 (w.g.dataPointer + k) ≤ w.g.dataPointer + k := Nat.mod_le _ _
  rw [if_neg (by omega)]
  exact ok

lemma Receiving.next (good : ok) (rcv : Receiving b boundary payload w) (count : w.hs.upload = payload.length)
    (short : d.length < 2 ^ 16) :
    Taken b boundary w.g.hist.completed w.hs.uploadTotal ok (payload ++ d) (httpdContinueUpload b e d w) := by
  obtain ⟨eq, start, found, total⟩ := rcv.stores (e := e) short
  have fine (fits : b.uploadAddr + w.hs.uploadTotal ≤ b.ramEnd) :=
    handleUploadData_fits (d := d) rcv.toLoaded fits (w.hs.upload + d.length)
  rw [eq]
  generalize httpdHandleUploadData b d (w.setCount (w.hs.upload + d.length)) = w' at *
  rw [← start.hist]
  obtain failed | load := start.stored
  · refine .spoiled (fun both => ?_) (checkComplete_failing { start.toUploading with
      failed := failed, waiting := fun h => absurd (found.symm.trans h) (by decide) })
    cases failed.symm.trans (fine both.2)
  · rw [← total]
    refine checkComplete_taken good start.toUploading load found ?_
    rw [start.counted, count, List.length_append]

lemma Taken.recv (tk : Taken b boundary done total ok payload (w, .keep))
    (part : payload.length < total + boundary.length + 6) (short : d.length < 2 ^ 16) :
    Taken b boundary done total (ok ∧ e.dataOk = true) (payload ++ d) (httpdRecv b e d w) := by
  cases tk with
  | spoiled bad sp => exact .spoiled (fun both => bad ⟨both.1.1, both.2⟩) (sp.recv short)
  | complete _ _ _ _ _ all => omega
  | more good rcv counted declared same =>
    subst declared same
    unfold httpdRecv
    dsimp only
    split_ifs with copied
    · simp only [show (w.touch e.now).hs.state = .uploadRequest from rcv.state]
      exact Receiving.next (w := w.touch e.now) ⟨good, copied⟩ { rcv.of_eq rfl rfl rfl, rcv.toLoaded, rcv with }
        counted short
    · exact .spoiled (fun both => copied both.1.2) (.dropped (by simpa using rcv.run) (by simp))

/-! ## The start of the file -/

@[simp] lemma storeFirst_total : (storeFirst payload w).hs.uploadTotal = w.hs.uploadTotal := by
  unfold storeFirst
  dsimp only
  split_ifs <;> rfl

lemma storeFirst_failed (failed : w.g.upload.failed = true) : (storeFirst payload w).g.upload.failed = true := by
  unfold storeFirst
  dsimp only
  split_ifs
  · exact failed
  · rfl
  · exact failed

lemma storeFirst_fits (going : w.g.upload.failed = false) (small : w.g.upload.fileTooBig = false)
    (at_ : w.g.dataPointer = b.uploadAddr) (ends : w.g.upload.ramEnd = b.ramEnd)
    (fits : b.uploadAddr + w.hs.uploadTotal ≤ b.ramEnd) : (storeFirst payload w).g.upload.failed = false := by
  have wrap : u32 (b.uploadAddr + min payload.length w.hs.uploadTotal) ≤
      b.uploadAddr + min payload.length w.hs.uploadTotal := Nat.mod_le _ _
  have inside : ¬ b.ramEnd < u32 (b.uploadAddr + min payload.length w.hs.uploadTotal) := by omega
  simp [storeFirst, Work.setCount, Work.append, small, at_, ends, inside, going]

lemma startFile_taken {t : UploadType} {overhead : Nat} (wait : Waiting b boundary w)
    (going : w.g.upload.failed = false) (type : w.g.target.upgradeType = t.type) (enough : overhead ≤ w.hs.uploadTotal)
    (short : payload.length < 2 ^ 16) :
    ∃ w', startFile b t overhead payload w = (w', true) ∧
      Taken b boundary w.g.hist.completed (w.hs.uploadTotal - overhead) (t.Sized b (w.hs.uploadTotal - overhead)) payload
        (fileStarted e w') := by
  obtain eq | ⟨w', eq, start⟩ := startFile_cases t overhead wait short
  · rw [startFile, if_neg (by omega)] at eq
    cases congrArg Prod.snd eq
  refine ⟨w', eq, ?_⟩
  have made : w' = storeFirst payload (if t.tooBig b (w.hs.uploadTotal - overhead) then
      (w.setFile t (w.hs.uploadTotal - overhead)).tooBig else w.setFile t (w.hs.uploadTotal - overhead)) := by
    rw [startFile, if_neg (by omega)] at eq
    exact (congrArg Prod.fst eq).symm
  generalize w.hs.uploadTotal - overhead = n at made ⊢
  cases big : t.tooBig b n with
  | true =>
    rw [big, if_pos rfl] at made
    have failed : w'.g.upload.failed = true := made ▸ storeFirst_failed rfl
    refine .spoiled (fun both => ?_) (start.spoiled failed)
    rw [both.1.1] at big
    cases big
  | false =>
    rw [big, if_neg Bool.false_ne_true] at made
    obtain failed | load := start.stored
    · refine .spoiled (fun both => ?_) (start.spoiled failed)
      rw [made, storeFirst_fits (w := w.setFile t n) going wait.big wait.pointer wait.ramEnd both.2] at failed
      cases failed
    have declared : w'.hs.uploadTotal = n := by
      rw [made, storeFirst_total]
      rfl
    have target : w'.g.target.upgradeType = t.type := by
      rw [made, storeFirst_target]
      exact type
    have checked := checkUploadSize_iff (w := w'.setFound true)
    rw [show (w'.setFound true).g.target.upgradeType = t.type from target,
      show (w'.setFound true).hs.uploadTotal = n from declared] at checked
    have hist : (w'.setFound true).g.hist.completed = w.g.hist.completed := by
      rw [← start.hist]
      rfl
    unfold fileStarted
    dsimp only
    split_ifs with size
    · have up : Uploading boundary (w'.setFound true) := start.of_eq rfl rfl rfl
      have tk := checkComplete_taken (e := e) (w := w'.setFound true) (⟨big, checked.mp size⟩ : t.Sized b n) up
        { load with } rfl start.counted
      rw [hist, show (w'.setFound true).hs.uploadTotal = n from declared] at tk
      exact tk
    · refine .spoiled (fun both => size (checked.mpr both.1.2)) (.dropped ?_ ?_)
      · simpa [httpdCloseConn, Work.setFound] using start.run
      · simpa using hist

end

/-! ## Runs -/

section
variable {b : Board} {s s' : Server} {h : Addr} {boundary payload : Bytes} {done : List Completed} {ok : Prop}
  {total : Nat}

lemma Spoiled.run (tr : Tracks h (Spoiled b boundary done) s) (rest : List (Env × Segment)) :
    Tracks h (Spoiled b boundary done) (deliver b s h rest) := by
  induction rest generalizing s with
  | nil => exact tr
  | cons x rest ih =>
    exact ih (tr.step x.1 x.2 (fun _ _ sp => sp.sane) (fun _ sp => sp.recv x.2.length_lt) fun _ sp => sp)

lemma Taken.run {rest : List (Env × Segment)} (tr : Tracks h (Taken b boundary done total ok payload) s)
    (bound : payload.length + (segBytes rest).flatten.length ≤ total + boundary.length + 6)
    (some_ : ∀ x ∈ rest, x.2.data ≠ []) :
    Tracks h (Taken b boundary done total (ok ∧ ∀ x ∈ rest, x.1.dataOk = true) (payload ++ (segBytes rest).flatten))
      (deliver b s h rest) := by
  induction rest generalizing s ok payload with
  | nil =>
    have same : ok ↔ ok ∧ ∀ x ∈ ([] : List (Env × Segment)), x.1.dataOk = true := by simp
    rw [← same, segBytes, List.map_nil, List.flatten_nil, List.append_nil]
    exact tr
  | cons x rest ih =>
    have bytes : (segBytes (x :: rest)).flatten = x.2.data ++ (segBytes rest).flatten := by simp [segBytes]
    have pos : 0 < x.2.data.length := List.length_pos_iff.mpr (some_ x List.mem_cons_self)
    rw [bytes, List.length_append] at bound
    have next : Tracks h (Taken b boundary done total (ok ∧ x.1.dataOk = true) (payload ++ x.2.data))
        (step b s (.recv h x.1 x.2)) := by
      refine tr.step x.1 x.2 (fun _ _ tk => tk.sane) (fun w tk => tk.recv (by omega) x.2.length_lt) fun w tk => ?_
      cases tk with
      | spoiled bad sp => exact .spoiled (fun both => bad ⟨both.1.1, both.2⟩) sp
    have run := ih next (by rw [List.length_append]; omega) fun y mem => some_ y (List.mem_cons_of_mem _ mem)
    have same : (ok ∧ x.1.dataOk = true) ∧ (∀ y ∈ rest, y.1.dataOk = true) ↔
        ok ∧ ∀ y ∈ x :: rest, y.1.dataOk = true := by simp [and_assoc]
    rw [same, List.append_assoc, ← bytes] at run
    exact run

def Accepted (b : Board) (s s' : Server) (file : Bytes) : Prop :=
  ∃ c, s'.hist.completed = s.hist.completed ++ [c] ∧ c.size = file.length ∧
    (s'.mem .ram).read b.uploadAddr file.length = file

lemma not_accepted {file : Bytes} (same : s'.hist.completed = s.hist.completed) : ¬ Accepted b s s' file := by
  rintro ⟨c, one, -⟩
  simpa using same.symm.trans one

lemma Spoiled.refused {file : Bytes} (tr : Tracks h (Spoiled b boundary s.hist.completed) s') :
    ¬ Accepted b s s' file := by
  obtain ⟨c, -, sp⟩ | ⟨-, c, sp⟩ := tr.holds
  · exact not_accepted sp.same
  · exact not_accepted sp.same

lemma Taken.accepted_iff {file : Bytes} (tr : Tracks h (Taken b boundary s.hist.completed total ok payload) s')
    (within : payload.length ≤ total + boundary.length + 6)
    (start : total = file.length → payload.length = total + boundary.length + 6 → payload.take total = file) :
    Accepted b s s' file ↔ total = file.length ∧ payload.length = total + boundary.length + 6 ∧ ok ∧
      b.uploadAddr + total ≤ b.ramEnd := by
  have key (f : Fate) (c : Conn) (tk : Taken b boundary s.hist.completed total ok payload (s'.work h c, f)) :
      Accepted b s s' file ↔ total = file.length ∧ payload.length = total + boundary.length + 6 ∧ ok ∧
        b.uploadAddr + total ≤ b.ramEnd := by
    cases tk with
    | spoiled bad sp =>
      refine iff_of_false (not_accepted sp.same) ?_
      rintro ⟨-, -, good⟩
      exact bad good
    | @complete _ c good fits run one size all stored =>
      have exact_ : payload.length = total + boundary.length + 6 := by omega
      constructor
      · rintro ⟨c', one', size', -⟩
        have same := one.symm.trans one'
        rw [List.append_right_inj, List.singleton_inj] at same
        subst same
        exact ⟨size.symm.trans size', exact_, good, fits⟩
      · rintro ⟨whole, -⟩
        refine ⟨c, one, size.trans whole, ?_⟩
        rw [← whole, ← start whole exact_]
        exact stored
    | more good rcv counted declared same =>
      refine iff_of_false (not_accepted same) ?_
      rintro ⟨-, exact_, -⟩
      have := rcv.more
      omega
  obtain ⟨c, -, tk⟩ | ⟨-, c, tk⟩ := tr.holds
  · exact key _ c tk
  · exact key _ c tk

end

end ResQBoot.Failsafe
