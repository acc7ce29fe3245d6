import ResQBoot.Failsafe.Arming

/-!
# The life of an uploaded image

The abstract machine: an image is uploaded, answered, armed, started and entered, or discarded while it is being
answered. `Life.Sound` is what its history promises.
-/

namespace ResQBoot.Failsafe

/-! ## The abstract machine -/

inductive Phase where
  | idle
  | answered
  | armed
  | starting
  | flashing
  deriving DecidableEq, Repr

def Phase.fresh (p : Phase) : Prop := p = .answered ∨ p = .armed ∨ p = .starting

structure Life where
  phase : Phase := .idle
  completed : List Completed := []
  entered : List Entered := []
  discarded : List Nat := []

inductive Life.Step : Life → Life → Prop where
  | completes (l : Life) (c : Completed) (idle : l.phase = .idle) :
    Step l { l with phase := .answered, completed := l.completed ++ [c] }
  | arms (l : Life) (answered : l.phase = .answered) : Step l { l with phase := .armed }
  | discards (l : Life) (answered : l.phase = .answered) :
    Step l { l with phase := .idle, discarded := l.discarded ++ [l.completed.length] }
  | starts (l : Life) (armed : l.phase = .armed) : Step l { l with phase := .starting }
  | enters (l : Life) (c : Completed) (starting : l.phase = .starting)
      (last : l.completed.getLast? = some c) :
    Step l { l with
      phase := .flashing
      entered := l.entered ++ [⟨l.completed.length, c.size, c.type⟩] }
  | finishes (l : Life) (flashing : l.phase = .flashing) : Step l { l with phase := .idle }
  | reboots (l : Life) : Step l {}

structure Entries (completed : List Completed) (entered : List Entered) (discarded : List Nat) :
    Prop where
  recorded : ∀ e ∈ entered, ∃ n c, e.upTo = n + 1 ∧ completed[n]? = some c ∧ e.size = c.size ∧
    e.type = c.type
  once : entered.Pairwise fun e e' => e.upTo < e'.upTo
  kept : ∀ e ∈ entered, e.upTo ∉ discarded

structure Life.Sound (l : Life) : Prop where
  entries : Entries l.completed l.entered l.discarded
  bound : ∀ n ∈ l.discarded, n ≤ l.completed.length
  fresh : l.phase.fresh →
    (∀ e ∈ l.entered, e.upTo < l.completed.length) ∧ l.completed.length ∉ l.discarded

lemma Entries.upTo_le {completed : List Completed} {entered : List Entered} {discarded : List Nat}
    (ent : Entries completed entered discarded) (e : Entered) (mem : e ∈ entered) :
    e.upTo ≤ completed.length := by
  obtain ⟨n, c, eq, get, -⟩ := ent.recorded e mem
  have lt := (List.getElem?_eq_some_iff.mp get).1
  omega

lemma Life.Step.sound {l l' : Life} (st : Life.Step l l') (snd : l.Sound) : l'.Sound := by
  obtain ⟨ent, bound, fresh⟩ := snd
  have le := ent.upTo_le
  cases st with
  | completes c idle =>
    have grows : l.completed.length < (l.completed ++ [c]).length := by simp
    refine ⟨⟨fun e mem => ?_, ent.once, ent.kept⟩, fun n mem => ?_, fun _ => ⟨fun e mem => ?_, fun mem => ?_⟩⟩
    · obtain ⟨n, d, eq, get, same⟩ := ent.recorded e mem
      have lt := (List.getElem?_eq_some_iff.mp get).1
      exact ⟨n, d, eq, (List.getElem?_append_left lt).trans get, same⟩
    · exact Nat.le_trans (bound n mem) (Nat.le_of_lt grows)
    · exact Nat.lt_of_le_of_lt (le e mem) grows
    · exact absurd (bound _ mem) (Nat.not_le_of_lt grows)
  | arms answered => exact ⟨ent, bound, fun _ => fresh (.inl answered)⟩
  | discards answered =>
    obtain ⟨before, -⟩ := fresh (.inl answered)
    refine ⟨⟨ent.recorded, ent.once, fun e mem => ?_⟩, fun n mem => ?_, fun h => ?_⟩
    · simp only [List.mem_append, List.mem_singleton, not_or]
      exact ⟨ent.kept e mem, Nat.ne_of_lt (before e mem)⟩
    · obtain mem | eq := List.mem_append.mp mem
      · exact bound n mem
      · exact Nat.le_of_eq (List.mem_singleton.mp eq)
    · simp [Phase.fresh] at h
  | starts armed => exact ⟨ent, bound, fun _ => fresh (.inr (.inl armed))⟩
  | enters c starting last =>
    obtain ⟨before, notDiscarded⟩ := fresh (.inr (.inr starting))
    refine ⟨⟨fun e mem => ?_, ?_, fun e mem => ?_⟩, bound, fun h => ?_⟩
    · obtain mem | eq := List.mem_append.mp mem
      · exact ent.recorded e mem
      obtain rfl := List.mem_singleton.mp eq
      have ne : l.completed ≠ [] := by
        rintro nil
        simp [nil] at last
      refine ⟨l.completed.length - 1, c, ?_, ?_, rfl, rfl⟩
      · exact (Nat.sub_add_cancel (List.length_pos_iff.mpr ne)).symm
      · rw [← List.getLast?_eq_getElem?]
        exact last
    · refine List.pairwise_append.mpr ⟨ent.once, List.pairwise_singleton .., fun e mem e' mem' => ?_⟩
      obtain rfl := List.mem_singleton.mp mem'
      exact before e mem
    · obtain mem | eq := List.mem_append.mp mem
      · exact ent.kept e mem
      · obtain rfl := List.mem_singleton.mp eq
        exact notDiscarded
    · simp [Phase.fresh] at h
  | finishes flashing => exact ⟨ent, bound, fun h => by simp [Phase.fresh] at h⟩
  | reboots =>
    exact ⟨⟨fun _ mem => (by cases mem), .nil, fun _ mem => (by cases mem)⟩, fun _ mem => (by cases mem),
      fun h => by simp [Phase.fresh] at h⟩

lemma Life.sound_run {l : Life} (run : Relation.ReflTransGen Life.Step {} l) : l.Sound := by
  induction run with
  | refl =>
    exact ⟨⟨fun _ mem => (by cases mem), .nil, fun _ mem => (by cases mem)⟩, fun _ mem => (by cases mem),
      fun h => by simp [Phase.fresh] at h⟩
  | tail _ st ih => exact st.sound ih

/-! ## The server refines it -/

def Arming.waiting (a : Arming) : Bool := a.done && !a.failed

def Arming.phase (a : Arming) : Phase :=
  if a.waiting then .answered
  else if a.ready then .armed
  else match a.frames with
    | [] => .idle
    | .upgradeWait _ :: _ => .starting
    | _ :: _ => .flashing

def Arming.life (a : Arming) : Life := ⟨a.phase, a.completed, a.entered, a.discarded⟩

structure Arming.Single (a : Arming) : Prop where
  one : a.waiting.toNat + a.ready.toNat + a.frames.length ≤ 1
  pending : a.phase ≠ .idle → a.pending = true
  whose : a.uploadHs ≠ none → a.waiting = true
  recorded : a.phase.fresh → ∃ c, a.completed.getLast? = some c ∧ c.size = a.size ∧
    c.type = a.target.upgradeType

section
variable {a a' : Arming} {h : Addr}

lemma Arming.Single.idle (single : a.Single) (idle : a.pending = false) :
    a.waiting = false ∧ a.ready = false ∧ a.frames = [] := by
  have phase : a.phase = .idle := by
    by_contra ne
    cases idle.symm.trans (single.pending ne)
  unfold Arming.phase at phase
  split_ifs at phase with waiting ready
  split at phase
  · exact ⟨by simpa using waiting, by simpa using ready, ‹_›⟩
  · cases phase
  · cases phase

lemma Arming.Single.alone (single : a.Single) : (a.waiting = true → a.ready = false ∧ a.frames = []) ∧
    (a.ready = true → a.waiting = false ∧ a.frames = []) ∧
    (∀ f rest, a.frames = f :: rest → a.waiting = false ∧ a.ready = false ∧ rest = []) := by
  have one := single.one
  refine ⟨fun waiting => ?_, fun ready => ?_, fun f rest top => ?_⟩
  · rw [waiting] at one
    refine ⟨?_, List.length_eq_zero_iff.mp (by simp at one; omega)⟩
    cases eq : a.ready with
    | false => rfl
    | true => simp [eq] at one; omega
  · rw [ready] at one
    refine ⟨?_, List.length_eq_zero_iff.mp (by simp at one; omega)⟩
    cases eq : a.waiting with
    | false => rfl
    | true => simp [eq] at one; omega
  · rw [top, List.length_cons] at one
    refine ⟨?_, ?_, List.length_eq_zero_iff.mp (by omega)⟩
    · cases eq : a.waiting with
      | false => rfl
      | true => simp [eq] at one; omega
    · cases eq : a.ready with
      | false => rfl
      | true => simp [eq] at one; omega

lemma Arming.phase_answered (waiting : a.waiting = true) : a.phase = .answered := by
  simp [Arming.phase, waiting]

section

variable (waiting : a.waiting = false)
include waiting

lemma Arming.phase_armed (ready : a.ready = true) : a.phase = .armed := by
  simp [Arming.phase, waiting, ready]

lemma Arming.phase_idle (ready : a.ready = false)
    (frames : a.frames = []) : a.phase = .idle := by
  simp [Arming.phase, waiting, ready, frames]

lemma Arming.phase_starting {second : Bool} {rest : List Frame}
    (ready : a.ready = false) (frames : a.frames = .upgradeWait second :: rest) :
    a.phase = .starting := by
  simp [Arming.phase, waiting, ready, frames]

lemma Arming.phase_flashing {rest : List Frame}
    (ready : a.ready = false) (frames : a.frames = .upgrading :: rest) : a.phase = .flashing := by
  simp [Arming.phase, waiting, ready, frames]

lemma Arming.one_frame {f : Frame} (ready : a.ready = false)
    (frames : a.frames = [f]) : a.waiting.toNat + a.ready.toNat + a.frames.length ≤ 1 := by
  simp [waiting, ready, frames]

lemma Arming.Single.of_idle (ready : a.ready = false)
    (frames : a.frames = []) (whose : a.uploadHs = none) : a.Single := by
  have phase := Arming.phase_idle waiting ready frames
  refine ⟨by simp [waiting, ready, frames], fun ne => absurd phase ne, fun ne => absurd whose ne, ?_⟩
  rw [phase, Phase.fresh]
  simp

end

lemma Arming.life_congr (phase : a'.phase = a.phase) (completed : a'.completed = a.completed)
    (entered : a'.entered = a.entered) (discarded : a'.discarded = a.discarded) :
    a'.life = a.life := by
  simp only [Arming.life, phase, completed, entered, discarded]

lemma Life.Step.to {l l' : Life} (st : Life.Step l l') (phase : a.phase = l'.phase)
    (completed : a.completed = l'.completed) (entered : a.entered = l'.entered)
    (discarded : a.discarded = l'.discarded) : Life.Step l a.life := by
  have eq : a.life = l' := by
    simp only [Arming.life, phase, completed, entered, discarded]
  exact eq ▸ st

lemma Turn.single (turn : Turn h a a') (single : a.Single) :
    a'.Single ∧ (a'.life = a.life ∨ Life.Step a.life a'.life) := by
  cases turn with
  | stays => exact ⟨single, .inl rfl⟩
  | receives failed target idle =>
    obtain ⟨waiting, ready, frames⟩ := single.idle idle
    refine ⟨.of_idle rfl ready frames rfl, .inl (Arming.life_congr ?_ rfl rfl rfl)⟩
    rw [Arming.phase_idle waiting ready frames]
    exact Arming.phase_idle rfl ready frames
  | completes c target idle type =>
    obtain ⟨waiting, ready, frames⟩ := single.idle idle
    refine ⟨⟨?_, fun _ => rfl, fun _ => rfl, fun _ => ⟨c, List.getLast?_concat, rfl, type⟩⟩, .inr ?_⟩
    · simp [Arming.waiting, ready, frames]
    · have st := Life.Step.completes a.life c (Arming.phase_idle waiting ready frames)
      exact st.to (Arming.phase_answered rfl) rfl rfl rfl
  | fails size target idle =>
    obtain ⟨waiting, ready, frames⟩ := single.idle idle
    refine ⟨.of_idle rfl ready frames rfl, .inl (Arming.life_congr ?_ rfl rfl rfl)⟩
    rw [Arming.phase_idle waiting ready frames]
    exact Arming.phase_idle rfl ready frames
  | arms done whose =>
    cases failed : a.failed with
    | true =>
      -- a failed upload is not armed, and the image before it is not touched
      have waiting : a.waiting = false := by simp [Arming.waiting, failed]
      have phase : Arming.phase { a with
          done := false, failed := false, uploadHs := none, ready := a.ready || !true } = a.phase := by
        simp [Arming.phase, Arming.waiting, failed]
      refine ⟨⟨?_, ?_, fun ne => absurd rfl ne, ?_⟩, .inl (Arming.life_congr phase rfl rfl rfl)⟩
      · simpa [Arming.waiting, failed] using single.one
      · rw [phase]
        exact single.pending
      · rw [phase]
        exact single.recorded
    | false =>
      have waiting : a.waiting = true := by simp [Arming.waiting, done, failed]
      obtain ⟨ready, frames⟩ := single.alone.1 waiting
      have answered := Arming.phase_answered waiting
      have st := Life.Step.arms a.life answered
      refine ⟨⟨?_, fun _ => ?_, fun ne => absurd rfl ne, fun _ => ?_⟩, .inr (st.to ?_ rfl rfl rfl)⟩
      · simp [Arming.waiting, frames]
      · exact single.pending (by rw [answered]; decide)
      · exact single.recorded (.inl answered)
      · exact Arming.phase_armed rfl (by simp)
  | discards whose =>
    have waiting := single.whose (by rw [whose]; exact Option.some_ne_none h)
    obtain ⟨ready, frames⟩ := single.alone.1 waiting
    have st := Life.Step.discards a.life (Arming.phase_answered waiting)
    exact ⟨.of_idle rfl ready frames rfl, .inr (st.to (Arming.phase_idle rfl ready frames) rfl rfl rfl)⟩

lemma LoopTurn.single (turn : LoopTurn a a') (single : a.Single) :
    a'.Single ∧ (a'.life = a.life ∨ Life.Step a.life a'.life) := by
  cases turn with
  | stays => exact ⟨single, .inl rfl⟩
  | starts ready =>
    obtain ⟨waiting, frames⟩ := single.alone.2.1 ready
    have armed := Arming.phase_armed waiting ready
    have st := Life.Step.starts a.life armed
    refine ⟨⟨?_, fun _ => ?_, single.whose, fun _ => ?_⟩, .inr (st.to ?_ rfl rfl rfl)⟩
    · exact Arming.one_frame waiting rfl (congrArg (_ :: ·) frames)
    · exact single.pending (by rw [armed]; decide)
    · exact single.recorded (.inr (.inl armed))
    · exact Arming.phase_starting waiting rfl rfl
  | waits rest top =>
    obtain ⟨waiting, ready, rfl⟩ := single.alone.2.2 _ _ top
    have starting := Arming.phase_starting waiting ready top
    refine ⟨⟨?_, fun _ => ?_, single.whose, fun _ => ?_⟩, .inl (Arming.life_congr ?_ rfl rfl rfl)⟩
    · exact Arming.one_frame waiting ready rfl
    · exact single.pending (by rw [starting]; decide)
    · exact single.recorded (.inr (.inr starting))
    · rw [starting]
      exact Arming.phase_starting waiting ready rfl
  | enters rest top =>
    obtain ⟨waiting, ready, rfl⟩ := single.alone.2.2 _ _ top
    have starting := Arming.phase_starting waiting ready top
    obtain ⟨c, last, size, type⟩ := single.recorded (.inr (.inr starting))
    have st := Life.Step.enters a.life c starting last
    have flashing : Arming.phase { a with
        entered := a.entered ++ [⟨a.completed.length, a.size, a.target.upgradeType⟩]
        frames := [.upgrading] } = .flashing := Arming.phase_flashing waiting ready rfl
    refine ⟨⟨?_, fun _ => ?_, single.whose, fun fresh => ?_⟩, .inr (st.to flashing rfl ?_ rfl)⟩
    · exact Arming.one_frame waiting ready rfl
    · exact single.pending (by rw [starting]; decide)
    · simp [flashing, Phase.fresh] at fresh
    · rw [size, type]
      rfl
  | ends rest top =>
    obtain ⟨waiting, ready, rfl⟩ := single.alone.2.2 _ _ top
    have st := Life.Step.finishes a.life (Arming.phase_flashing waiting ready top)
    refine ⟨.of_idle waiting ready rfl ?_, .inr (st.to (Arming.phase_idle waiting ready rfl) rfl rfl rfl)⟩
    by_contra ne
    cases waiting.symm.trans (single.whose ne)
  | reboots => exact ⟨.of_idle rfl rfl rfl rfl, .inr (.reboots _)⟩

end

/-! ## Undisturbed runs -/

def Event.isStop : Event → Bool
  | .stop => true
  | _ => false

def Serving (s : Server) (ev : Event) : Prop := Undisturbed s ev ∧ ev.isStop = false

instance (s : Server) (ev : Event) : Decidable (Serving s ev) :=
  inferInstanceAs (Decidable (_ ∧ _))

section
variable {b : Board} {s : Server} {ev : Event}

lemma step_life (ord : Orderly s) (single : s.arming.Single) (srv : Serving s ev) :
    (step b s ev).arming.Single ∧ ((step b s ev).arming.life = s.arming.life ∨
      Life.Step s.arming.life (step b s ev).arming.life) := by
  have ne : ev ≠ .stop := by
    rintro rfl
    cases srv.2
  obtain ⟨h, turn⟩ | turn := (step_exclusive ord.own ord.calm ord.exclusive srv.1).2 ne
  · exact turn.single single
  · exact turn.single single

lemma life_reach (rch : Reach (step b) Serving boot s) :
    (Orderly s ∧ s.arming.Single) ∧ Relation.ReflTransGen Life.Step {} s.arming.life :=
  rch.simulates (I := fun s => Orderly s ∧ s.arming.Single) (f := fun s => s.arming.life)
    ⟨.boot, .of_idle rfl rfl rfl rfl⟩ fun _ _ inv srv =>
      have next := step_life inv.1 inv.2 srv
      ⟨⟨step_orderly inv.1 srv.1, next.1⟩, next.2⟩

end

/-- **Upgrade arming.** In every run in which nothing happens inside a flash read, `do_http_upgrade` is
entered at most once for each upload that completed successfully, never for one that was discarded, and
always with the size and the type recorded for the upload that completed last. -/
theorem upgrades_sound (b : Board) (s : Server) (rch : Reach (step b) Serving boot s) :
    Entries s.hist.completed s.hist.entered s.hist.discarded :=
  (Life.sound_run (life_reach rch).2).entries

def flashed : List Event :=
  [.accept 0 (some 1), .recv 1 { now := 0 } sampleFirst, .recv 1 { now := 0 } sampleSecond,
    .fin 1 { now := 0 }, .mainPoll, .returns { now := 0 } true, .returns { now := 0 } true]

theorem upgrades_sound_flashed : Along (step sampleBoard) Serving boot flashed ∧
    (runAll (step sampleBoard) boot flashed).hist.entered = [⟨1, 184, .cdt⟩] ∧
    Entries (runAll (step sampleBoard) boot flashed).hist.completed
      (runAll (step sampleBoard) boot flashed).hist.entered
      (runAll (step sampleBoard) boot flashed).hist.discarded := by
  have run : Along (step sampleBoard) Serving boot flashed := by decide +kernel
  exact ⟨run, by decide +kernel, upgrades_sound sampleBoard _ (run.reach .refl)⟩

def sampleUboot : Segment :=
  ⟨bytes "POST /upload HTTP/1.1\r\nContent-Length: 20000\r\n" ++
    bytes "Content-Type: multipart/form-data; boundary=X\r\n\r\n--X\r\n" ++
    bytes "Content-Disposition: form-data; name=\"uboot\"; filename=\"a\"\r\n\r\n" ++
    List.replicate 50 9, by decide +kernel⟩

def mixed : List Event :=
  [.accept 0 (some 1), .recv 1 { now := 0 } sampleBackup, .mainPoll, .accept 0 (some 2),
    .recv 2 { now := 0 } sampleFirst, .readReturns { now := 0 } ⟨[7], some 1, []⟩,
    .fin 1 { now := 0 }, .accept 0 (some 3), .recv 3 { now := 0 } sampleUboot,
    .recv 2 { now := 0 } sampleSecond, .fin 2 { now := 0 }, .mainPoll, .returns { now := 0 } true,
    .returns { now := 0 } true]

/-- When uploads begin inside a flash read, an image is flashed as what another upload is for. -/
theorem wrong_type : ¬ Entries (runAll (step sampleBoard) boot mixed).hist.completed
    (runAll (step sampleBoard) boot mixed).hist.entered
    (runAll (step sampleBoard) boot mixed).hist.discarded := by
  intro ent
  have entered : (runAll (step sampleBoard) boot mixed).hist.entered = [⟨1, 184, .uboot⟩] := by
    decide +kernel
  have completed : (runAll (step sampleBoard) boot mixed).hist.completed = [⟨1, 184, .cdt⟩] := by
    decide +kernel
  rw [entered, completed] at ent
  obtain ⟨n, c, upTo, get, -, type⟩ := ent.recorded _ List.mem_cons_self
  obtain rfl : n = 0 := (Nat.succ.inj upTo).symm
  cases get
  cases type

end ResQBoot.Failsafe
