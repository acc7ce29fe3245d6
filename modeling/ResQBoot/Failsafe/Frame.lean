import ResQBoot.Failsafe.Server

/-!
# What no callback changes

A callback does not become one of another connection, what TCP has accepted stays accepted, and no callback stops the
server (`Keeps`).
-/

namespace ResQBoot.Failsafe

lemma httpdHandleUploadData_cases (b : Board) (d : Bytes) (w : Work) :
    httpdHandleUploadData b d w = w ∨ httpdHandleUploadData b d w = w.fail ∨
    httpdHandleUploadData b d w = w.tooBig ∨
    ∃ n, httpdHandleUploadData b d w = w.append (d.take n) := by
  rw [httpdHandleUploadData]
  generalize w.written b = written
  dsimp only
  split_ifs
  · simp
  · simp
  · simp
  · exact .inr (.inr (.inr ⟨_, rfl⟩))
  · simp
  · exact .inr (.inr (.inr ⟨_, rfl⟩))

@[simp] lemma stateReset_kept {now : UInt32} {w : Work} : (httpdStateReset now w).g.upload.done = w.g.upload.done ∧
    (httpdStateReset now w).g.readyForUpgrade = w.g.readyForUpgrade ∧ (httpdStateReset now w).g.hist = w.g.hist ∧
    (httpdStateReset now w).g.crashed = w.g.crashed ∧ (httpdStateReset now w).g.target = w.g.target ∧
    (httpdStateReset now w).g.uploadPending = w.g.uploadPending := by
  unfold httpdStateReset
  split <;> exact ⟨rfl, rfl, rfl, rfl, rfl, rfl⟩

/-- What the bookkeeping around a callback leaves alone. -/
structure Unsent (w w' : Work) : Prop where
  closed : w'.g.hist.closed = w.g.hist.closed
  pcb : w'.hs.pcb = w.hs.pcb
  trail : w'.hs.trail = w.hs.trail
  mem : w'.mem = w.mem
  dev : w'.dev = w.dev
  pending : w'.g.uploadPending = w.g.uploadPending

lemma Unsent.headerSent (w : Work) : Unsent w (headerSent w) := by
  unfold ResQBoot.Failsafe.headerSent
  split_ifs <;> exact ⟨rfl, rfl, rfl, rfl, rfl, rfl⟩

lemma Unsent.armUpgrade (w : Work) : Unsent w (armUpgrade w) := by
  unfold ResQBoot.Failsafe.armUpgrade
  split_ifs <;> exact ⟨rfl, rfl, rfl, rfl, rfl, rfl⟩

lemma dropConn_kept {w : Work} : (dropConn w).g.hist.closed = w.g.hist.closed ∧ (dropConn w).g.backup = w.g.backup ∧
    (dropConn w).g.boundaryValue = w.g.boundaryValue ∧
    (dropConn w).g.hsGlobal = if w.g.hsGlobal = some w.h then none else w.g.hsGlobal := by
  simp only [dropConn]
  split <;> exact ⟨rfl, rfl, rfl, rfl⟩

structure Keeps (w w' : Work) : Prop where
  h : w'.h = w.h
  id : w'.hs.pcb.id = w.hs.pcb.id
  out : w.hs.pcb.out <+: w'.hs.pcb.out
  running : w'.g.isRunning = w.g.isRunning

namespace Keeps

variable {b : Board} {e : Env} {now : UInt32} {d : Bytes} {w w' w'' : Work}

lemma refl (w : Work) : Keeps w w := ⟨rfl, rfl, List.prefix_refl _, rfl⟩

lemma trans (k : Keeps w w') (k' : Keeps w' w'') : Keeps w w'' :=
  ⟨k'.h.trans k.h, k'.id.trans k.id, k.out.trans k'.out, k'.running.trans k.running⟩

lemma of_eq (h : w'.h = w.h) (pcb : w'.hs.pcb = w.hs.pcb) (running : w'.g.isRunning = w.g.isRunning) :
    Keeps w w' :=
  ⟨h, congrArg Pcb.id pcb, pcb ▸ List.prefix_refl _, running⟩

lemma after (k : Keeps w' w'') (h : w'.h = w.h) (pcb : w'.hs.pcb = w.hs.pcb)
    (running : w'.g.isRunning = w.g.isRunning) : Keeps w w'' :=
  (of_eq h pcb running).trans k

lemma sendData : Keeps w (httpdSendData e w) := ⟨rfl, sendLoop_id .., sendLoop_out .., rfl⟩

lemma sendStatic (p : Ptr) (n : Nat) : Keeps w (httpdSendStatic e p n w) :=
  sendData.after rfl rfl rfl

lemma sendText (t : Bytes) : Keeps w (httpdSendText e t w) := sendStatic ..

lemma apply (a : Answer) : Keeps w (w.apply e a) := by
  unfold Work.apply
  dsimp only
  split
  · exact (sendStatic ..).after rfl rfl rfl
  · exact of_eq rfl rfl rfl

lemma stateReset : Keeps w (httpdStateReset now w) := by
  refine of_eq rfl rfl ?_
  unfold httpdStateReset
  split <;> rfl

lemma closeConn : Keeps w (httpdCloseConn now w).1 := stateReset

lemma uploadComplete : Keeps w (httpdUploadComplete w) := by
  refine of_eq rfl rfl ?_
  unfold httpdUploadComplete
  dsimp only
  split <;> rfl

lemma finishUpload : Keeps w (finishUpload e w) :=
  (uploadComplete.trans stateReset).trans (sendText ..)

lemma checkUploadComplete : Keeps w (httpdCheckUploadComplete e w) := by
  unfold httpdCheckUploadComplete
  split
  · exact of_eq rfl rfl rfl
  · split
    · exact finishUpload
    · exact refl w

lemma storeFirst (payload : Bytes) : Keeps w (storeFirst payload w) := by
  unfold ResQBoot.Failsafe.storeFirst
  dsimp only
  split_ifs <;> exact of_eq rfl rfl rfl

lemma startFile (t : UploadType) (overhead : Nat) (payload : Bytes) : Keeps w (startFile b t overhead payload w).1 := by
  unfold ResQBoot.Failsafe.startFile
  split_ifs
  · exact of_eq rfl rfl rfl
  · refine Keeps.trans ?_ (storeFirst payload)
    split_ifs <;> exact of_eq rfl rfl rfl

lemma findandstoreFirstchunk : Keeps w (httpdFindandstoreFirstchunk b d w).1 := by
  unfold httpdFindandstoreFirstchunk
  split
  · exact refl w
  split
  · exact refl w
  dsimp only
  split
  · exact refl w
  split
  · exact of_eq rfl rfl rfl
  split_ifs
  · exact of_eq rfl rfl rfl
  · exact (startFile ..).after rfl rfl rfl

lemma handleUploadData : Keeps w (httpdHandleUploadData b d w) := by
  obtain eq | eq | eq | ⟨n, eq⟩ := httpdHandleUploadData_cases b d w
  all_goals
    rw [eq]
    exact of_eq rfl rfl rfl

lemma fileStarted : Keeps w (fileStarted e w).1 := by
  unfold ResQBoot.Failsafe.fileStarted
  dsimp only
  split_ifs
  · exact checkUploadComplete.after rfl rfl rfl
  · exact closeConn.after rfl rfl rfl

lemma startUpload : Keeps w (httpdStartUpload b e d w).1 := by
  unfold httpdStartUpload
  split_ifs
  · exact sendText ..
  dsimp only
  split
  · exact closeConn.after rfl rfl rfl
  split
  · exact closeConn.after rfl rfl rfl
  rename_i total _ _ boundary _
  have found : Keeps w (httpdFindandstoreFirstchunk b d
      (httpdInitUploadRam b ((w.resetUpload.takeOver total).setBoundary boundary))).1 :=
    findandstoreFirstchunk.after rfl rfl rfl
  split
  · rename_i eq
    rw [eq] at found
    exact found.trans fileStarted
  · rename_i eq
    rw [eq] at found
    exact found.trans (of_eq rfl rfl rfl)

lemma continueUpload : Keeps w (httpdContinueUpload b e d w).1 := by
  unfold httpdContinueUpload
  split_ifs
  · dsimp only
    refine Keeps.trans ?_ checkUploadComplete
    split_ifs
    · exact of_eq rfl rfl rfl
    · exact handleUploadData.after rfl rfl rfl
  · have found : Keeps w (httpdFindandstoreFirstchunk b d w).1 := findandstoreFirstchunk
    split
    · rename_i eq
      rw [eq] at found
      exact found.trans fileStarted
    · rename_i eq
      rw [eq] at found
      exact found.trans closeConn

lemma handleBackup : Keeps w (httpdHandleBackup b e d w).1 := by
  unfold httpdHandleBackup
  split_ifs
  · exact sendText ..
  · split
    · exact sendText ..
    · exact of_eq rfl rfl rfl

lemma backupReadDone (total : Nat) (call : FlashCall) (r : FlashResult) :
    Keeps w (backupReadDone b e total call r w) := by
  unfold ResQBoot.Failsafe.backupReadDone
  dsimp only
  split_ifs
  · exact (sendStatic ..).after rfl rfl rfl
  · have taken : Keeps w (((w.stored b r).printPartJson
        (backupHeader call (announced b total (min r.count total)))).takeBackup b total call
        (min r.count total)) := of_eq rfl rfl rfl
    exact (taken.trans sendData).trans (of_eq rfl rfl rfl)

lemma armUpgrade : Keeps w (armUpgrade w) := by
  unfold ResQBoot.Failsafe.armUpgrade
  split_ifs <;> exact of_eq rfl rfl rfl

lemma headerSent : Keeps w (headerSent w) := by
  unfold ResQBoot.Failsafe.headerSent
  split_ifs <;> exact of_eq rfl rfl rfl

lemma sentClose : Keeps w (sentClose now w).1 := by
  have logged : Keeps w (ResQBoot.Failsafe.armUpgrade w).logClosed :=
    armUpgrade.trans (of_eq rfl rfl rfl)
  exact logged.trans closeConn

lemma touch (now : UInt32) : Keeps w (w.touch now) := of_eq rfl rfl rfl

lemma sent : Keeps w (httpdSent e w).1 := by
  unfold httpdSent
  dsimp only
  refine ((touch e.now).trans headerSent).trans ?_
  split_ifs
  · exact of_eq rfl rfl rfl
  · exact refl _
  · exact sentClose
  · exact sendData

lemma fin : Keeps w (httpdFin e w).1 := armUpgrade.trans closeConn

lemma request : Keeps w (httpdRequest b e d w).1 := by
  unfold httpdRequest
  split
  · exact startUpload
  · exact handleBackup
  · split
    · exact apply _
    · exact closeConn

lemma recv : Keeps w (httpdRecv b e d w).1 := by
  unfold httpdRecv
  dsimp only
  refine (touch e.now).trans ?_
  split_ifs
  · split
    · exact request
    · exact continueUpload
    · exact refl _
  · exact closeConn

lemma dropConn : Keeps w (dropConn w) := by
  refine of_eq rfl rfl ?_
  unfold ResQBoot.Failsafe.dropConn
  dsimp only
  split <;> rfl

lemma err : Keeps w (httpdErr e w).1 := dropConn.trans closeConn

lemma pollCb : Keeps w (httpdPollCb e w).1 := by
  unfold httpdPollCb
  split_ifs
  · exact dropConn.trans closeConn
  · exact sendData
  · exact refl w

end Keeps

end ResQBoot.Failsafe
