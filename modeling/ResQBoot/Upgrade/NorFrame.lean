import ResQBoot.Flash.Contained
import ResQBoot.Upgrade.Firmware

/-!
# The firmware upgrade of a NOR board

The image is written as it is from the start of `0:HLOS` on, over as many bytes as `0:HLOS` and a rootfs partition have
together. Nothing says that the two are neighbours, or that they are there.
-/

namespace ResQBoot.Upgrade

open Flash

/-! ## Bytes -/

def In (r : Nat × Nat) (x : Nat) : Prop := r.1 ≤ x ∧ x < r.2

def Covers (h r range : Nat × Nat) : Prop :=
  range.2 ≤ range.1 ∨ h.1 ≤ range.1 ∧ range.2 ≤ h.2 ∨ r.1 ≤ range.1 ∧ range.2 ≤ r.2 ∨
    In h range.1 ∧ r.1 ≤ h.2 ∧ range.2 ≤ r.2 ∨ In r range.1 ∧ h.1 ≤ r.2 ∧ range.2 ≤ h.2

instance (r : Nat × Nat) (x : Nat) : Decidable (In r x) := inferInstanceAs (Decidable (_ ∧ _))

instance (h r range : Nat × Nat) : Decidable (Covers h r range) :=
  inferInstanceAs (Decidable (_ ∨ _ ∨ _ ∨ _ ∨ _))

lemma covers_iff {h r range : Nat × Nat} : (∀ x, In range x → In h x ∨ In r x) ↔ Covers h r range := by
  simp only [In, Covers]
  constructor
  · intro all
    -- the first element, the ends of the two ranges and the last element decide
    have first := all range.1
    have left := all h.2
    have right := all r.2
    have last := all (range.2 - 1)
    omega
  · intro cover x inside
    omega

def norRange (b : Board) (name : Bytes) : Nat × Nat :=
  match b.smemFind name with
  | none => (0, 0)
  | some p => if p.which = 0 then (p.start * b.blockSize, p.stop b.blockSize b.norSize) else (0, 0)

def Touches (b : Board) (c : Cmd) (x : Nat) : Prop := ∃ io w, (effect b io c w).2.nor x ≠ w.nor x

def Erases (b : Board) (off len : Nat) : Prop :=
  len ≠ 0 ∧ off + len ≤ b.norSize ∧ off % b.norSector = 0 ∧ len % b.norSector = 0

def Writes (b : Board) (off len : Nat) : Prop := len ≠ 0 ∧ off + len ≤ b.norSize

instance (b : Board) (off len : Nat) : Decidable (Erases b off len) :=
  inferInstanceAs (Decidable (_ ∧ _ ∧ _ ∧ _))

instance (b : Board) (off len : Nat) : Decidable (Writes b off len) := inferInstanceAs (Decidable (_ ∧ _))

section Touch

variable (b : Board) (io : Io) (addr off len : Nat) (w : World)

lemma effect_sfErase : effect b io (.sfErase off len) w =
    if Erases b off len then (true, { w with nor := w.nor.fill off len 0xFF }) else (false, w) := by
  have check : (len = 0 || off + len > b.norSize || off % b.norSector ≠ 0 || len % b.norSector ≠ 0) = true ↔
      ¬ Erases b off len := by
    simp only [Erases, Bool.or_eq_true, decide_eq_true_eq]
    omega
  rw [effect]
  simp only [check, ite_not]

lemma effect_sfWrite : effect b io (.sfWrite addr off len) w =
    if Writes b off len then (true, { w with nor := w.nor.program off (w.ram.read addr len) })
    else (false, w) := by
  have check : (len = 0 || off + len > b.norSize) = true ↔ ¬ Writes b off len := by
    simp only [Writes, Bool.or_eq_true, decide_eq_true_eq]
    omega
  rw [effect]
  simp only [check, ite_not]

variable {b addr off len} {x : Nat}

lemma touches_sfErase : Touches b (.sfErase off len) x ↔ Erases b off len ∧ In (off, off + len) x := by
  constructor
  · rintro ⟨io, w, changed⟩
    rw [effect_sfErase] at changed
    split at changed
    · rename_i erases
      refine ⟨erases, ?_⟩
      by_contra out
      refine changed (Mem.fill_outside ?_)
      simp only [In] at out
      omega
    · exact absurd rfl changed
  · rintro ⟨erases, inside⟩
    obtain ⟨w, blank⟩ : ∃ w : World, w.nor = fun _ => 0 := ⟨{ idle with nor := fun _ => 0 }, rfl⟩
    refine ⟨sound, w, ?_⟩
    rw [effect_sfErase, if_pos erases, blank]
    have here : off ≤ x ∧ x < off + len := inside
    simp only [Mem.fill, here, and_self, if_true]
    decide

lemma touches_sfWrite : Touches b (.sfWrite addr off len) x ↔ Writes b off len ∧ In (off, off + len) x := by
  constructor
  · rintro ⟨io, w, changed⟩
    rw [effect_sfWrite] at changed
    split at changed
    · rename_i writes
      refine ⟨writes, ?_⟩
      by_contra out
      refine changed (Mem.program_outside ?_)
      rw [Mem.length_read]
      simp only [In] at out
      omega
    · exact absurd rfl changed
  · rintro ⟨writes, inside⟩
    obtain ⟨w, erased, zero⟩ : ∃ w : World, w.nor = (fun _ => 0xFF) ∧ w.ram = fun _ => 0 :=
      ⟨{ idle with nor := fun _ => 0xFF, ram := fun _ => 0 }, rfl, rfl⟩
    refine ⟨sound, w, ?_⟩
    rw [effect_sfWrite, if_pos writes, erased, zero]
    have here : off ≤ x ∧ x < off + (Mem.read (fun _ => 0) addr len).length := by
      rw [Mem.length_read]
      exact inside
    simp only [Mem.program, here, and_self, if_true, Mem.blank_and]
    rw [Mem.getD_read _ _ (by rw [Mem.length_read] at here; omega)]
    decide

variable {h r : Nat × Nat}

lemma sfErase_within : (∀ x, Touches b (.sfErase off len) x → In h x ∨ In r x) ↔
    (Erases b off len → Covers h r (off, off + len)) := by
  simp only [touches_sfErase, ← covers_iff]
  exact ⟨fun all erases x inside => all x ⟨erases, inside⟩, fun all x touch => all touch.1 x touch.2⟩

lemma sfWrite_within : (∀ x, Touches b (.sfWrite addr off len) x → In h x ∨ In r x) ↔
    (Writes b off len → Covers h r (off, off + len)) := by
  simp only [touches_sfWrite, ← covers_iff]
  exact ⟨fun all writes x inside => all x ⟨writes, inside⟩, fun all x touch => all touch.1 x touch.2⟩

lemma not_touches_sfProbe : ¬ Touches b .sfProbe x := by
  rintro ⟨io, w, changed⟩
  exact changed rfl

end Touch

/-! ## The commands -/

namespace Setup

variable (s : Setup)

def usedRootfs : Option Bytes := rootfsNames.find? fun name => 0 < s.smemTableSizeBytes name

def hlosRange : Nat × Nat := norRange s.board (bytes "0:HLOS")

def rootfsRange : Nat × Nat :=
  match s.usedRootfs with
  | none => (0, 0)
  | some name => norRange s.board name

def issued (size : Nat) (st : State) : List Cmd :=
  (s.doFirmwareUpgrade size st).2.world.log.drop st.world.log.length

def NoFirmware : Prop := ∀ name ∈ bytes "0:HLOS" :: rootfsNames, s.board.smemFind name = none

structure NorContained (size : Nat) (st : State) : Prop where
  ranges : ∀ c ∈ s.issued size st, ∀ x, Touches s.board c x → In s.hlosRange x ∨ In s.rootfsRange x
  spares : s.NoFirmware → ∀ c ∈ s.issued size st, ∀ off len, c ≠ .sfErase off len

def Probes (st : State) : Prop := s.io.ok st.world.log.length = true ∧ s.board.norSize ≠ 0

def eraseLen : Nat := s.norFirmwareCombinedSize % 2 ^ 32

def Follows (st : State) : Prop :=
  s.io.ok (st.world.log.length + 1) = true ∧ Erases s.board s.norFirmwareStart s.eraseLen

structure Fits (size : Nat) (st : State) : Prop where
  present : ¬ s.NoFirmware
  erase : Erases s.board s.norFirmwareStart s.eraseLen →
    Covers s.hlosRange s.rootfsRange (s.norFirmwareStart, s.norFirmwareStart + s.eraseLen)
  write : s.Follows st → Writes s.board s.norFirmwareStart size →
    Covers s.hlosRange s.rootfsRange (s.norFirmwareStart, s.norFirmwareStart + size)

instance (st : State) : Decidable (s.Probes st) := inferInstanceAs (Decidable (_ ∧ _))

instance (st : State) : Decidable (s.Follows st) := inferInstanceAs (Decidable (_ ∧ _))

variable {s}

lemma combine_spi {ft : SmemBoot} (alone : s.combine ft = .spiFlash) :
    ¬ s.board.getWhichFlashParam (bytes "rootfs") > 0 := by
  cases ft <;> simp only [combine, reduceCtorEq] at alone
  intro flagged
  rw [if_pos (by simp [flagged])] at alone
  cases alone

lemma currentFlashType_spi (alone : s.currentFlashType = some .spiFlash) :
    ¬ s.board.getWhichFlashParam (bytes "rootfs") > 0 := by
  rw [currentFlashType] at alone
  split at alone
  · split at alone
    · cases alone
    · exact combine_spi (Option.some.inj alone)
  · exact combine_spi (Option.some.inj alone)
  · exact combine_spi (Option.some.inj alone)

lemma doFirmwareUpgrade_nor (nor : s.pureNor = true) (size : Nat) (st : State) :
    s.doFirmwareUpgrade size st = s.norUpgrade size st := by
  simp only [pureNor, Bool.or_eq_true, decide_eq_true_eq] at nor
  rw [doFirmwareUpgrade]
  rcases nor with nor | alone
  · rw [nor]
  · rw [alone]
    exact if_neg (currentFlashType_spi alone)

lemma issued_nor {size : Nat} {st : State} (nor : s.pureNor = true)
    (type : checkFwType st.world.ram s.uploadAddr = some .fit ∨
      checkFwType st.world.ram s.uploadAddr = some .sysupgrade) :
    s.issued size st =
      if s.Probes st then
        if s.Follows st then s.norCommands size else [.sfProbe, .sfErase s.norFirmwareStart s.eraseLen]
      else [.sfProbe] := by
  have run : s.doFirmwareUpgrade size st = s.run (s.norCommands size) st := by
    rw [doFirmwareUpgrade_nor nor, norUpgrade]
    rcases type with type | type <;> rw [type]
  have probed : (exec s.board s.io .sfProbe st.world).1 = true ↔ s.Probes st := by
    rw [exec_ok, Probes, effect, decide_eq_true_eq]
  have log := exec_log s.board s.io .sfProbe st.world
  rw [issued, run]
  change (runCommand s.board s.io (s.norCommands size) st.world).2.log.drop st.world.log.length = _
  have commands : s.norCommands size = [.sfProbe, .sfErase s.norFirmwareStart s.eraseLen,
      .sfWrite s.uploadAddr s.norFirmwareStart size] := rfl
  rw [commands, runCommand_cons]
  generalize exec s.board s.io .sfProbe st.world = probe at probed log ⊢
  have erased : (exec s.board s.io (.sfErase s.norFirmwareStart s.eraseLen) probe.2).1 = true ↔ s.Follows st := by
    rw [exec_ok, Follows, log, effect_sfErase, List.length_append]
    refine and_congr_right fun _ => ?_
    split
    · rename_i erases
      exact iff_of_true rfl erases
    · rename_i refused
      exact iff_of_false (by rintro ⟨⟩) refused
  by_cases probes : s.Probes st
  · rw [if_pos (probed.mpr probes), if_pos probes, runCommand_cons]
    by_cases follows : s.Follows st
    · rw [if_pos (erased.mpr follows), if_pos follows, runCommand_singleton, exec_log, exec_log, log]
      simp
    · rw [if_neg (mt erased.mp follows), if_neg follows, exec_log, log]
      simp
  · rw [if_neg (mt probed.mp probes), if_neg probes, log]
    simp

lemma mem_issued_nor (size : Nat) {st : State} (nor : s.pureNor = true)
    (type : checkFwType st.world.ram s.uploadAddr = some .fit ∨
      checkFwType st.world.ram s.uploadAddr = some .sysupgrade) (c : Cmd) :
    c ∈ s.issued size st ↔ c = .sfProbe ∨ s.Probes st ∧ (c = .sfErase s.norFirmwareStart s.eraseLen ∨
      s.Follows st ∧ c = .sfWrite s.uploadAddr s.norFirmwareStart size) := by
  rw [issued_nor nor type]
  by_cases probes : s.Probes st
  · by_cases follows : s.Follows st
    · simp [probes, follows, norCommands, eraseLen]
    · simp [probes, follows]
  · simp [probes]

/-- The upgrade of a NOR board touches the firmware's bytes alone exactly if the table is laid out for it,
or the NOR is not found. -/
theorem nor_upgrade_contained_iff (s : Setup) (size : Nat) (st : State) (nor : s.pureNor = true)
    (type : checkFwType st.world.ram s.uploadAddr = some .fit ∨
      checkFwType st.world.ram s.uploadAddr = some .sysupgrade) :
    s.NorContained size st ↔ (s.Probes st → s.Fits size st) := by
  have issues := mem_issued_nor size nor type
  constructor
  · rintro ⟨ranges, spares⟩ probes
    have erase := (issues _).mpr (.inr ⟨probes, .inl rfl⟩)
    refine ⟨fun none => spares none _ erase _ _ rfl, sfErase_within.mp (ranges _ erase), fun follows => ?_⟩
    exact sfWrite_within.mp (ranges _ ((issues _).mpr (.inr ⟨probes, .inr ⟨follows, rfl⟩⟩)))
  · intro fits
    constructor
    · intro c mem x touch
      rcases (issues c).mp mem with rfl | ⟨probes, rfl | ⟨follows, rfl⟩⟩
      · exact absurd touch not_touches_sfProbe
      · exact sfErase_within.mpr (fits probes).erase x touch
      · exact sfWrite_within.mpr ((fits probes).write follows) x touch
    · intro none c mem off len
      rcases (issues c).mp mem with rfl | ⟨probes, -⟩
      · rintro ⟨⟩
      · exact absurd none (fits probes).present

end Setup

def norSetup (table : List Ptn) : Setup where
  board :=
    { ipq806x := false
      cleanMarker := false
      flashType := .spiFlash
      secondary := .noFlash
      blockSize := 2 ^ 16
      rootfsUnset := false
      activeRootfs := 0
      table := table
      ubiVolPresent := fun _ => false
      nand := none
      norSize := 2 ^ 22
      norSector := 2 ^ 16
      emmc := none
      blockSize_lt := by decide
      norSize_lt := nor4MiB_lt
      norBoot := fun _ => ⟨⟨16, by decide, rfl⟩, by decide⟩ }
  smemBoot := some .spiFlash
  uploadAddr := 0x4B000000
  backupAvail := false
  io := sound
  ubiIo := Sysupgrade.sampleIo
  ubiAttached := false
  source := fun w => (false, w)
  imxtract := fun _ _ => none

def fitUploaded : State where
  world := { idle with ram := Mem.write (fun _ => 0) 0x4B000000 [0xd0, 0x0d, 0xfe, 0xed] }
  ubi := ⟨0, [], 0, 0, 0, false⟩
  flashes := []

def neighbours : Setup :=
  norSetup [.entry (bytes "0:HLOS") 8 8 0xffff,
    .entry (bytes "rootfs") 16 40 0xffff]

def apart : Setup :=
  norSetup [.entry (bytes "0:HLOS") 8 8 0xffff,
    .entry (bytes "0:ART") 16 1 0xffff,
    .entry (bytes "rootfs") 17 40 0xffff]

theorem nor_upgrade_contained_neighbours : neighbours.NorContained 0x200000 fitUploaded :=
  (Setup.nor_upgrade_contained_iff neighbours 0x200000 fitUploaded (by decide) (.inl (by decide))).mpr fun _ =>
    ⟨fun none => Option.some_ne_none _ (none (bytes "0:HLOS") List.mem_cons_self), fun _ => by decide, fun _ _ => by decide⟩

/-- The calibration data are erased with the firmware. -/
theorem nor_upgrade_erases_art :
    0x200000 ≤ apart.firmwareUpgradeMaxSize ∧ norRange apart.board (bytes "0:ART") = (0x100000, 0x110000) ∧
    .sfErase 0x80000 0x300000 ∈ apart.issued 0x200000 fitUploaded ∧
    ¬ apart.NorContained 0x200000 fitUploaded := by
  have erase : .sfErase 0x80000 0x300000 ∈ apart.issued 0x200000 fitUploaded := by decide +kernel
  refine ⟨by decide, by decide, erase, fun contained => ?_⟩
  have here := contained.ranges _ erase 0x100000 (touches_sfErase.mpr (by decide))
  revert here
  decide

end ResQBoot.Upgrade
