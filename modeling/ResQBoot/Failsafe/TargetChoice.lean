import Mathlib.Data.List.Find
import Mathlib.Data.List.Forall2
import Mathlib.Data.List.GetD
import ResQBoot.Failsafe.Segmented

/-!
# What the target of an upload depends on

`httpd_findandstore_firstchunk` looks for its markers in the whole segment from the boundary on, the name and the bytes
of the file included.
-/

namespace ResQBoot.Failsafe

/-! ## The markers of a text -/

/-- The text that is searched in a segment: from the boundary on, up to a NUL. -/
def searchedText (boundary d : Bytes) : Option Bytes := (strstr d 0 boundary).map fun st => cstr (d.drop st)

/-- The target that the text makes; only an upload of type IMG sets the flash. -/
def madeBy (old : Target) (text : Bytes) : Target :=
  (findUploadType text).elim old fun t => selectTarget old t.type text

def chosenIn (boundary : Bytes) (old : Target) (d : Bytes) : Target := (searchedText boundary d).elim old (madeBy old)

/-- The texts that are looked for. -/
def markers : List Bytes :=
  uploadTypes.map UploadType.name ++ [bytes "img_nand_raw", bytes "img_nand", bytes "img_emmc", bytes "img_nor",
    bytes "flash_backup", bytes "auto_reboot"]

/-- The value of `auto_reboot`, if there is one, stands in the text. -/
def rebootGiven (text : Bytes) : Bool :=
  (find (bytes "auto_reboot") text).all fun k =>
    (find blankLine (text.drop k)).any fun j => k + j + 4 < text.length

/-- The front of a text holds every marker that the text holds. -/
structure MarkedBy (front text : Bytes) : Prop where
  sub : front <+: text
  marked : ∀ m ∈ markers, contains m text = true → contains m front = true
  value : rebootGiven front = true

/-- The texts have a front in common that holds all their markers. What is behind it is free: the name of the file and
its bytes may differ, as long as they bring no marker that the front does not hold. -/
def SameMarkers (text text' : Bytes) : Prop := ∃ front, MarkedBy front text ∧ MarkedBy front text'

section Markers

variable {front text text' : Bytes}

lemma MarkedBy.contains (by_ : MarkedBy front text) {m : Bytes} (mem : m ∈ markers) :
    contains m text = contains m front := by
  obtain ⟨rest, rfl⟩ := by_.sub
  cases here : Failsafe.contains m front with
  | true =>
    obtain ⟨k, found⟩ := Option.isSome_iff_exists.mp here
    rw [Failsafe.contains, find_append rest found]
    rfl
  | false =>
    by_contra there
    cases here.symm.trans (by_.marked m mem (by simpa using there))

lemma MarkedBy.uploadType (by_ : MarkedBy front text) : findUploadType text = findUploadType front :=
  List.find?_congr fun _ mem => by_.contains (List.mem_append_left _ (List.mem_map_of_mem mem))

lemma MarkedBy.autoReboot (by_ : MarkedBy front text) : selectAutoReboot text = selectAutoReboot front := by
  have given := by_.value
  have same := by_.contains (m := bytes "auto_reboot") (by simp [markers])
  obtain ⟨rest, rfl⟩ := by_.sub
  rw [rebootGiven] at given
  cases found : find (bytes "auto_reboot") front with
  | none =>
    rw [Failsafe.contains, Failsafe.contains, found, Option.isSome_none, Option.isSome_eq_false_iff,
      Option.isNone_iff_eq_none] at same
    rw [selectAutoReboot, selectAutoReboot, found, same]
  | some k =>
    rw [found, Option.all_some] at given
    have le := find_le found
    cases blank : find blankLine (front.drop k) with
    | none => simp [blank] at given
    | some j =>
      rw [blank, Option.any_some, decide_eq_true_eq] at given
      have blank' : find blankLine ((front ++ rest).drop k) = some j := by
        rw [List.drop_append_of_le_length (by omega)]
        exact find_append rest blank
      simp only [selectAutoReboot, found, find_append rest found, blank, blank', List.getD_append _ _ _ _ given]

lemma MarkedBy.made (by_ : MarkedBy front text) (old : Target) : madeBy old text = madeBy old front := by
  have img : selectImgFlash text = selectImgFlash front := by
    simp only [selectImgFlash]
    rw [by_.contains, by_.contains, by_.contains, by_.contains] <;> simp [markers]
  have backup : Failsafe.contains (bytes "flash_backup") text = Failsafe.contains (bytes "flash_backup") front :=
    by_.contains (by simp [markers])
  simp only [madeBy, selectTarget, by_.uploadType, img, backup, by_.autoReboot]

/-- Texts with the same markers make the same target. -/
lemma SameMarkers.made (same : SameMarkers text text') (old : Target) : madeBy old text = madeBy old text' := by
  obtain ⟨front, by_, by_'⟩ := same
  rw [by_.made, by_'.made]

end Markers

namespace FormPost

/-- The start of the file is found in a segment, at a place that Content-Length allows. -/
def starts (p : FormPost) (d : Bytes) : Bool := (filePart p.delimiter d).any fun x => p.overhead x.2.2 ≤ p.body.length

/-- The segments that are searched: the first, if it can be taken for an upload, and the one behind it unless the start
of the file has been found. -/
def searched (p : FormPost) : List (Env × Segment) → List Bytes
  | [] => []
  | (e, seg) :: rest =>
    if e.dataOk = true ∧ e.boundaryOk = true ∧ p.Announced seg.data then
      seg.data :: if p.starts seg.data then [] else segBytes ((rest.take 1).filter fun x => x.1.dataOk)
    else []

/-- The target that the markers of the searched segments make. -/
def chosen (p : FormPost) (segs : List (Env × Segment)) (old : Target) : Target :=
  (p.searched segs).foldl (chosenIn p.delimiter) old

end FormPost

/-! ## A connection whose target is decided -/

/-- What the search for the file depends on. -/
structure Search where
  state : ConnState
  crashed : Bool
  target : Target
  found : Bool
  boundary : Option Bytes

def Work.stage (w : Work) : Search :=
  ⟨w.hs.state, w.g.crashed, w.g.target, w.g.upload.dataStartFound, w.g.boundaryValue⟩

/-- The connection searches no further segment: it is closed, answered, or takes the file. -/
inductive Decided (boundary : Bytes) (t : Target) : Work × Fate → Prop where
  | dropped {w} (run : w.g.crashed = false) (target : w.g.target = t) : Decided boundary t (w, .freed)
  | answered {w} (run : w.g.crashed = false) (target : w.g.target = t) (state : w.hs.state = .fileRequest) :
    Decided boundary t (w, .keep)
  | takes {w} (stage : w.stage = ⟨.uploadRequest, false, t, true, some boundary⟩) : Decided boundary t (w, .keep)

section Decided

variable {b : Board} {e : Env} {boundary d : Bytes} {t : Target} {v : Bool} {w : Work}

lemma Decided.kept {r : Work × Fate} (st : Decided boundary t r) : r.1.g.crashed = false ∧ r.1.g.target = t := by
  cases st with
  | dropped run target | answered run target => exact ⟨run, target⟩
  | takes stage => exact ⟨congrArg Search.crashed stage, congrArg Search.target stage⟩

lemma Decided.sane {f : Fate} (st : Decided boundary t (w, f)) : w.g.crashed = false ∧ (f = .keep ∨ f = .freed) := by
  refine ⟨st.kept.1, ?_⟩
  cases st with
  | dropped => exact .inr rfl
  | answered | takes => exact .inl rfl

lemma finishUpload_target : (finishUpload e w).g.target = w.g.target := by
  have complete : (httpdUploadComplete w).g.target = w.g.target := by
    unfold httpdUploadComplete
    dsimp only
    split <;> rfl
  simp [finishUpload, complete]

lemma storeFirst_stage (payload : Bytes) : (storeFirst payload w).stage = w.stage := by
  unfold storeFirst
  dsimp only
  split_ifs <;> rfl

lemma handleUploadData_stage : (httpdHandleUploadData b d w).stage = w.stage := by
  obtain eq | eq | eq | ⟨n, eq⟩ := httpdHandleUploadData_cases b d w
  all_goals exact (congrArg Work.stage eq).trans rfl

lemma closeConn_decided (now : UInt32) (run : w.g.crashed = false) (target : w.g.target = t) :
    Decided boundary t (httpdCloseConn now w) :=
  .dropped (by simpa using run) (by simpa using target)

lemma checkComplete_decided (stage : w.stage = ⟨.uploadRequest, false, t, true, some boundary⟩) :
    Decided boundary t (httpdCheckUploadComplete e w, .keep) := by
  have run : w.g.crashed = false := congrArg Search.crashed stage
  have target : w.g.target = t := congrArg Search.target stage
  have bound : w.g.boundaryValue = some boundary := congrArg Search.boundary stage
  rw [httpdCheckUploadComplete, bound]
  dsimp only
  split
  · exact .answered (by simpa using run) (finishUpload_target.trans target) finishUpload_state
  · exact .takes stage

lemma fileStarted_decided (stage : w.stage = ⟨.uploadRequest, false, t, v, some boundary⟩) :
    Decided boundary t (fileStarted e w) := by
  have found : (w.setFound true).stage = ⟨.uploadRequest, false, t, true, some boundary⟩ :=
    congrArg (fun s : Search => { s with found := true }) stage
  unfold fileStarted
  dsimp only
  split
  · exact checkComplete_decided found
  · exact closeConn_decided _ (congrArg Search.crashed stage) (congrArg Search.target stage)

lemma Decided.recv (st : Decided boundary t (w, .keep)) : Decided boundary t (httpdRecv b e d w) := by
  by_cases copied : e.dataOk = true
  · cases st with
    | answered run target state =>
      rw [recv_answered copied state]
      exact .answered run target state
    | takes stage =>
      have found : (w.touch e.now).g.upload.dataStartFound = true := congrArg Search.found stage
      rw [recv_uploading copied (congrArg Search.state stage), httpdContinueUpload, if_pos found]
      refine checkComplete_decided ?_
      split
      · exact stage
      · exact handleUploadData_stage.trans stage
  · rw [recv_lost copied]
    exact closeConn_decided _ st.kept.1 st.kept.2

/-- No later segment changes a decided target. -/
lemma Decided.run {s : Server} {h : Addr} (tr : Tracks h (Decided boundary t) s) (rest : List (Env × Segment)) :
    (deliver b s h rest).target = t := by
  induction rest generalizing s with
  | nil =>
    obtain ⟨c, -, st⟩ | ⟨-, c, st⟩ := tr.holds
    · exact st.kept.2
    · exact st.kept.2
  | cons x rest ih => exact ih (tr.step x.1 x.2 (fun _ _ st => st.sane) (fun _ st => st.recv) fun _ st => st)

end Decided

/-! ## The search -/

section Searching

variable {b : Board} {e : Env} {p : FormPost} {d : Bytes} {t : Target} {w : Work}

/-- The upload of the form, with the file not found yet. -/
structure FormPost.Searching (p : FormPost) (t : Target) (w : Work) : Prop where
  stage : w.stage = ⟨.uploadRequest, false, t, false, some p.delimiter⟩
  length : w.hs.uploadTotal = p.body.length

lemma startFile_stage (ty : UploadType) (overhead : Nat) (payload : Bytes) : ∃ w' : Work,
    startFile b ty overhead payload w = (w', decide (overhead ≤ w.hs.uploadTotal)) ∧ w'.stage = w.stage ∧
      (w.hs.uploadTotal < overhead → w'.hs.uploadTotal = w.hs.uploadTotal) := by
  rw [startFile]
  split
  · rename_i small
    exact ⟨w.fail, by rw [decide_eq_false (by omega)], rfl, fun _ => rfl⟩
  · rename_i enough
    refine ⟨_, by rw [decide_eq_true (by omega)], ?_, fun small => absurd small enough⟩
    rw [storeFirst_stage]
    split <;> rfl

lemma FormPost.Searching.search (look : p.Searching t w) (d : Bytes) : ∃ w',
    httpdFindandstoreFirstchunk b d w = (w', p.starts d) ∧
      w'.stage = ⟨.uploadRequest, false, chosenIn p.delimiter t d, false, some p.delimiter⟩ ∧
      (p.starts d = false → w'.hs.uploadTotal = p.body.length) := by
  have target : w.g.target = t := congrArg Search.target look.stage
  have bound : w.g.boundaryValue = some p.delimiter := congrArg Search.boundary look.stage
  have set (tg : Target) : (w.setTarget tg).stage = ⟨.uploadRequest, false, tg, false, some p.delimiter⟩ :=
    congrArg (fun s : Search => { s with target := tg }) look.stage
  cases part : filePart p.delimiter d with
  | some x =>
    obtain ⟨ty, st, k⟩ := x
    have here := findandstore_some (b := b) bound part
    obtain ⟨w', eq, stage, total⟩ := startFile_stage (b := b) (w := w.setTarget
      (selectTarget w.g.target ty.type (cstr (d.drop st)))) ty (p.overhead k) (d.drop (st + k + 4))
    have size : (w.setTarget (selectTarget w.g.target ty.type (cstr (d.drop st)))).hs.uploadTotal = p.body.length :=
      look.length
    rw [size] at eq total
    have starts : p.starts d = decide (p.overhead k ≤ p.body.length) := by rw [FormPost.starts, part]; rfl
    have choice : chosenIn p.delimiter t d = selectTarget w.g.target ty.type (cstr (d.drop st)) := by
      simp only [filePart, Option.bind_eq_some_iff, Option.map_eq_some_iff, Prod.mk.injEq] at part
      obtain ⟨st', found, ty', type, k', -, rfl, rfl, rfl⟩ := part
      simp only [chosenIn, searchedText, madeBy, found, type, Option.map_some, Option.elim_some, ← target]
    rw [starts, choice]
    refine ⟨w', here.trans eq, stage.trans (set _), fun small => total ?_⟩
    simpa using small
  | none =>
    have starts : p.starts d = false := by rw [FormPost.starts, part]; rfl
    rw [starts]
    simp only [filePart, Option.bind_eq_none_iff, Option.map_eq_none_iff] at part
    rw [httpdFindandstoreFirstchunk, bound]
    simp only [chosenIn, searchedText]
    cases found : strstr d 0 p.delimiter with
    | none => exact ⟨w, rfl, look.stage, fun _ => look.length⟩
    | some st =>
      simp only [Option.map_some, Option.elim_some, madeBy]
      cases type : findUploadType (cstr (d.drop st)) with
      | none => exact ⟨w, rfl, look.stage, fun _ => look.length⟩
      | some ty =>
        simp only [part st found ty type, Option.elim_some, ← target]
        exact ⟨_, rfl, set _, fun _ => look.length⟩

lemma FormPost.Searching.recv (look : p.Searching t w) (d : Bytes) :
    Decided p.delimiter (if e.dataOk then chosenIn p.delimiter t d else t) (httpdRecv b e d w) := by
  have run : w.g.crashed = false := congrArg Search.crashed look.stage
  by_cases copied : e.dataOk = true
  · have look' : p.Searching t (w.touch e.now) := { look with }
    obtain ⟨w', search, stage, -⟩ := look'.search (b := b) d
    rw [if_pos copied, recv_looking copied (congrArg Search.state look.stage) (congrArg Search.found look.stage) search]
    cases p.starts d with
    | true => exact fileStarted_decided stage
    | false => exact closeConn_decided _ (congrArg Search.crashed stage) (congrArg Search.target stage)
  · rw [if_neg copied, recv_lost copied]
    exact closeConn_decided _ run (congrArg Search.target look.stage)

end Searching

/-! ## The whole form -/

/-- Two segments are searched with the same result. -/
def Alike (boundary d d' : Bytes) : Prop :=
  Option.Rel SameMarkers (searchedText boundary d) (searchedText boundary d')

end ResQBoot.Failsafe
