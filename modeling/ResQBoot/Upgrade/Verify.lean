import ResQBoot.Upgrade.Capacity

/-!
# Reading back U-Boot

`verify_flashed_image` reads the partition into a scratch area 2 MiB behind the upload, which a larger image reaches
into, and a partition that is shorter than the image leaves the end of the area as it was.
-/

namespace ResQBoot.Upgrade

open Flash

/-! ## RAM in front of a read -/

section Spares

variable {b : Board} {io : Io} {addr : Nat}

def Spares (addr : Nat) (w w' : World) : Prop := ∀ x < addr, w'.ram x = w.ram x

lemma effect_read_spares (dev : Device) (off k : Nat) (w : World) :
    Spares addr w (effect b io (dev.read addr off k) w).2 := by
  intro x lt
  have out (data : Bytes) : w.ram.write addr data x = w.ram x := Mem.write_outside (.inl lt)
  cases dev <;> simp only [Device.read, effect]
  all_goals
    repeat' split
    all_goals first | rfl | exact out _

lemma readFromFlash_spares {ft : SmemBoot} {off k : Nat} {layout : Layout} {cs : List Cmd}
    (line : readFromFlash b ft addr off k layout false = some cs) (w : World) :
    Spares addr w (runCommand b io cs w).2 := by
  obtain ⟨dev, pre, -, quiet, rfl⟩ := readFromFlash_shape line
  have step {cmd : Cmd} (kind : cmd.Quiet ∨ cmd = dev.read addr off k) (w : World) :
      Spares addr w (exec b io cmd w).2 := by
    rw [exec]
    split
    · rcases kind with quiet | rfl
      · rw [effect_quiet quiet]
        exact fun _ _ => rfl
      · exact effect_read_spares dev off k { w with log := w.log ++ [_] }
    · exact fun _ _ => rfl
  have all : ∀ cmd ∈ pre ++ [dev.read addr off k], cmd.Quiet ∨ cmd = dev.read addr off k := by
    intro cmd mem
    rcases List.mem_append.mp mem with mem | mem
    · exact .inl (quiet cmd mem)
    · exact .inr (List.mem_singleton.mp mem)
  generalize pre ++ [dev.read addr off k] = cs at all
  induction cs generalizing w with
  | nil => exact fun _ _ => rfl
  | cons cmd cs ih =>
    have first := step (all cmd (List.mem_cons_self ..)) w
    rw [runCommand]
    cases run : exec b io cmd w with
    | mk ok w' =>
      rw [run] at first
      cases ok with
      | false => exact first
      | true =>
        intro x lt
        exact (ih w' (fun c mem => all c (List.mem_cons_of_mem _ mem)) x lt).trans (first x lt)

lemma flashread_spares (name : Bytes) (n : Nat) (w : World) :
    Spares addr w (flashreadPartition b io name addr n false w).2 := by
  have same (override : Option SmemBoot) : Spares addr w { w with flashTypeNew := override } := fun _ _ => rfl
  rw [flashreadPartition, Bool.false_and, if_neg Bool.false_ne_true]
  split
  · rw [flashreadFull]
    split
    · exact same _
    simp only [Bool.false_eq_true, if_false]
    split
    · exact same _
    rename_i cs line
    have read : Spares addr w (runCommand b io cs w).2 := readFromFlash_spares line w
    cases run : runCommand b io cs w with
    | mk ok w' =>
      rw [run] at read
      cases ok <;> exact read
  · split
    · exact same _
    · exact same _
    simp only
    split
    · exact same _
    rename_i cs line
    have read : Spares addr w (runCommand b io cs w).2 := readFromFlash_spares line w
    cases run : runCommand b io cs w with
    | mk ok w' =>
      rw [run] at read
      cases ok <;> exact read

end Spares

namespace Host

variable (h : Host) {name : Bytes} {size : Nat} {e : Session}

def scratch : Nat := h.uploadAddr + 0x200000

def verified (name : Bytes) (size : Nat) (e : Session) : Bool × Session :=
  (h.verifyFlashedImage name size (.done true)).run h.answer e

def fetch (name : Bytes) (size : Nat) (e : Session) : Option (Nat × Nat) × World :=
  flashreadPartition h.board h.io name h.scratch size false e.st.world

def image (size : Nat) (e : Session) : Bytes := e.st.world.ram.read h.uploadAddr size

def partHead (name : Bytes) (size : Nat) (e : Session) : Bytes :=
  match readPlan h.board (e.st.world.flashTypeNew.getD h.board.flashType) name size with
  | none => []
  | some (ft, off, k, _) => match deviceOf ft with
    | none => []
    | some dev => held h.board e.st.world dev off k

structure Verifies (name : Bytes) (size : Nat) (e : Session) : Prop where
  result : (h.verified name size e).1 = true ↔
    (h.fetch name size e).1.isSome = true ∧ (h.partHead name size e).take size = h.image size e
  kept : h.image size (h.verified name size e).2 = h.image size e

def Undisturbed (name : Bytes) (size : Nat) (e : Session) : Prop :=
  let ram := e.st.world.ram
  let part := h.partHead name size e
  if (h.fetch name size e).1.isSome then
    (∀ i < part.length, 0x200000 + i < size → part.getD i 0 = ram (h.scratch + i)) ∧
    (part.length < size → h.image size e ≠ part ++ ram.read (h.scratch + part.length) (size - part.length))
  else ∀ i, 0x200000 + i < size → (h.fetch name size e).2.ram (h.scratch + i) = ram (h.scratch + i)

def after (name : Bytes) (size : Nat) (e : Session) : Session :=
  { e with st := { e.st with world := (h.fetch name size e).2 } }

lemma verified_eq (name : Bytes) (e : Session) (small : size ≤ 8 * 2 ^ 20) : h.verified name size e =
    ((h.fetch name size e).1.isSome && Setup.sameImage h.uploadAddr h.scratch size (h.after name size e),
      h.after name size e) := by
  have acts : h.Acts e.file (.flashread name h.scratch size) (Setup.device fun w =>
      ((flashreadPartition h.board h.io name h.scratch size false w).1.isSome,
        (flashreadPartition h.board h.io name h.scratch size false w).2)) := fun _ _ => rfl
  have line : h.line [.flashread name h.scratch size] e = ((h.fetch name size e).1.isSome, h.after name size e) :=
    Setup.line_single acts
  have read : h.answer (.readBack name h.uploadAddr h.scratch size) e =
      ((h.fetch name size e).1.isSome && Setup.sameImage h.uploadAddr h.scratch size (h.after name size e),
        h.after name size e) := by
    rw [Setup.answer, line]
  rw [verified, verifyFlashedImage, if_neg (Nat.not_lt.mpr small)]
  rw [← scratch, run_attempt read]
  cases (h.fetch name size e).1.isSome && Setup.sameImage h.uploadAddr h.scratch size (h.after name size e) <;> rfl

lemma fetch_ram (done : (h.fetch name size e).1.isSome = true) :
    (h.fetch name size e).2.ram = e.st.world.ram.write h.scratch (h.partHead name size e) := by
  obtain ⟨ft, off, k, layout, cs, plan, line, ok⟩ := plan_of_flashread done
  obtain ⟨dev, device, -, world⟩ := readFromFlash_held line ok
  rw [fetch, (flashread_of_plan plan line ok).2, world, partHead, plan]
  simp only [device]

section Compare

variable {m : Mem} {a n : Nat} {bs : Bytes}

lemma read_write_keeps {d : Nat} : (m.write (a + d) bs).read a n = m.read a n ↔
    ∀ i < bs.length, d + i < n → bs.getD i 0 = m (a + d + i) := by
  rw [Mem.read_eq_iff]
  constructor
  · intro same i lt inside
    have byte := same (d + i) inside
    rwa [← Nat.add_assoc, Mem.write, if_pos ⟨Nat.le_add_right _ _, Nat.add_lt_add_left lt _⟩,
      Nat.add_sub_cancel_left] at byte
  · intro same j lt
    by_cases here : a + d ≤ a + j ∧ a + j < a + d + bs.length
    · obtain ⟨i, rfl⟩ : ∃ i, j = d + i := Nat.exists_eq_add_of_le (by omega)
      rw [Mem.write, if_pos here, ← Nat.add_assoc, Nat.add_sub_cancel_left]
      exact same i (by omega) lt
    · rw [Mem.write, if_neg here]

lemma read_write_short (short : bs.length ≤ n) :
    (m.write a bs).read a n = bs ++ m.read (a + bs.length) (n - bs.length) := by
  obtain ⟨rest, rfl⟩ := Nat.exists_eq_add_of_le short
  rw [Mem.read_add, Mem.read_write, Nat.add_sub_cancel_left, Mem.read_write_disjoint _ (.inr (Nat.le_refl _))]

end Compare

lemma compare_iff {ram : Mem} {part img : Bytes} (length : img.length = size) :
    (img = (ram.write a part).read a size ↔ part.take size = img) ↔
      (part.length < size → img ≠ part ++ ram.read (a + part.length) (size - part.length)) := by
  by_cases long : size ≤ part.length
  · rw [Mem.read_write_take _ _ long]
    exact iff_of_true eq_comm fun short => absurd long (Nat.not_le.mpr short)
  have short : part.length < size := Nat.not_le.mp long
  have other : part.take size ≠ img := by
    intro eq
    have := congrArg List.length eq
    rw [List.length_take, length] at this
    omega
  rw [read_write_short (Nat.le_of_lt short)]
  exact ⟨fun same _ eq => other (same.mp eq), fun ne => iff_of_false (ne short) other⟩

lemma image_after : h.image size (h.after name size e) = h.image size e ↔
    ∀ i, 0x200000 + i < size → (h.fetch name size e).2.ram (h.scratch + i) = e.st.world.ram (h.scratch + i) := by
  have front : Spares h.scratch e.st.world (h.fetch name size e).2 := flashread_spares name size e.st.world
  rw [image, image, Mem.read_eq_iff]
  constructor
  · intro same i inside
    have byte := same (0x200000 + i) inside
    rwa [← Nat.add_assoc] at byte
  intro same j lt
  by_cases below : j < 0x200000
  · exact front _ (Nat.add_lt_add_left below _)
  · obtain ⟨i, rfl⟩ := Nat.exists_eq_add_of_le (Nat.not_lt.mp below)
    rw [← Nat.add_assoc]
    exact same i lt

/-- The result is right and the image stays exactly if the scratch area does not meet them. -/
theorem verify_iff (h : Host) (name : Bytes) (size : Nat) (e : Session) (small : size ≤ 8 * 2 ^ 20) :
    h.Verifies name size e ↔ h.Undisturbed name size e := by
  have run := h.verified_eq name e small
  have world : (h.verified name size e).2 = h.after name size e := by rw [run]
  simp only [Undisturbed]
  cases done : (h.fetch name size e).1.isSome with
  | false =>
    rw [if_neg Bool.false_ne_true, ← h.image_after]
    constructor
    · rintro ⟨-, same⟩
      rwa [world] at same
    · intro same
      refine ⟨?_, by rwa [world]⟩
      rw [run, done]
      simp
  | true =>
    rw [if_pos rfl]
    have ram := h.fetch_ram done
    have length : (h.image size e).length = size := Mem.length_read _ _ _
    have unchanged : h.image size (h.after name size e) = h.image size e ↔
        ∀ i < (h.partHead name size e).length, 0x200000 + i < size →
          (h.partHead name size e).getD i 0 = e.st.world.ram (h.scratch + i) := by
      rw [image, image, after, ram]
      exact read_write_keeps
    have result : (h.verified name size e).1 = true ↔
        h.image size (h.after name size e) = (h.fetch name size e).2.ram.read h.scratch size := by
      rw [run, done, Bool.true_and, Setup.sameImage, decide_eq_true_eq]
      rfl
    constructor
    · rintro ⟨right, same⟩
      rw [world] at same
      rw [done, result, same, ram] at right
      refine ⟨unchanged.mp same, (compare_iff length).mp ?_⟩
      simpa using right
    · rintro ⟨overlap, short⟩
      have same := unchanged.mpr overlap
      refine ⟨?_, by rwa [world]⟩
      rw [done, result, same, ram]
      simpa using (compare_iff length).mpr short

end Host

def appsbl : Bytes := bytes "0:APPSBL"

def smallUboot : Host := emmcHost [some ⟨appsbl, 36, 36⟩]

theorem verify_smallUboot : smallUboot.Verifies appsbl 4 ⟨tarUploaded, 0x4B000000, 4⟩ := by
  refine (Host.verify_iff smallUboot appsbl 4 ⟨tarUploaded, 0x4B000000, 4⟩ (by decide)).mpr ?_
  have done : (smallUboot.fetch appsbl 4 ⟨tarUploaded, 0x4B000000, 4⟩).1.isSome = true := by decide
  have length : (smallUboot.partHead appsbl 4 ⟨tarUploaded, 0x4B000000, 4⟩).length = 512 := by decide +kernel
  rw [Host.Undisturbed, if_pos done]
  refine ⟨fun i _ inside => absurd inside (by omega), fun short => ?_⟩
  rw [length] at short
  exact absurd short (by decide)

def largeUboot : Host := largeHost [some ⟨appsbl, 64, 8255⟩]

def flashedUboot : Session where
  st := { tarUploaded with
    world := { idle with
      ram := fun x => if x = 0x4B000000 then 0x7f else 0
      emmc := fun x => if x = 64 * 512 then 0x7f else 0 } }
  file := (0x4B000000, 0x200001)

lemma flashedUboot_part :
    largeUboot.partHead appsbl 0x200001 flashedUboot = flashedUboot.st.world.emmc.read (64 * 512) (4097 * 512) := by
  have plan : readPlan largeUboot.board (flashedUboot.st.world.flashTypeNew.getD largeUboot.board.flashType) appsbl
      0x200001 = some (.mmcFlash, 64, 4097, .default) := by decide
  rw [Host.partHead, plan]
  rfl

lemma flashedUboot_done : (largeUboot.fetch appsbl 0x200001 flashedUboot).1.isSome = true := by decide

lemma flashedUboot_after {i : Nat} (lt : i < 4097 * 512) :
    (largeUboot.after appsbl 0x200001 flashedUboot).st.world.ram (0x4B200000 + i) =
      flashedUboot.st.world.emmc (64 * 512 + i) := by
  have ram := largeUboot.fetch_ram flashedUboot_done
  rw [flashedUboot_part] at ram
  have here : 0x4B200000 ≤ 0x4B200000 + i ∧
      0x4B200000 + i < 0x4B200000 + (flashedUboot.st.world.emmc.read (64 * 512) (4097 * 512)).length := by
    rw [Mem.length_read]
    omega
  rw [Host.after]
  simp only [ram]
  rw [show largeUboot.scratch = 0x4B200000 from rfl, Mem.write, if_pos here, Nat.add_sub_cancel_left]
  simp [Mem.read, lt]

/-- The byte behind 2 MiB is overwritten with the first one of the partition, and the comparison fails. -/
theorem verify_overwrites_image :
    (largeUboot.fetch appsbl 0x200001 flashedUboot).1.isSome = true ∧
    (largeUboot.partHead appsbl 0x200001 flashedUboot).take 0x200001 = largeUboot.image 0x200001 flashedUboot ∧
    (largeUboot.verified appsbl 0x200001 flashedUboot).1 = false ∧
    flashedUboot.st.world.ram 0x4B200000 = 0 ∧
    (largeUboot.verified appsbl 0x200001 flashedUboot).2.st.world.ram 0x4B200000 = 0x7f ∧
    ¬ largeUboot.Verifies appsbl 0x200001 flashedUboot := by
  have part : (largeUboot.partHead appsbl 0x200001 flashedUboot).take 0x200001 =
      largeUboot.image 0x200001 flashedUboot := by
    rw [flashedUboot_part, Mem.take_read _ _ (by decide), Host.image, Mem.read_eq_iff]
    intro i _
    simp [flashedUboot, show largeUboot.uploadAddr = 0x4B000000 from rfl]
  have run := largeUboot.verified_eq appsbl flashedUboot (show 0x200001 ≤ 8 * 2 ^ 20 by decide)
  have first := flashedUboot_after (show 0 < 4097 * 512 by decide)
  have last := flashedUboot_after (show 0x200000 < 4097 * 512 by decide)
  have refused : (largeUboot.verified appsbl 0x200001 flashedUboot).1 = false := by
    rw [run, Bool.and_eq_false_iff]
    refine .inr (decide_eq_false fun same => ?_)
    have byte := Mem.read_eq_iff.mp same 0x200000 (by decide)
    rw [show largeUboot.uploadAddr + 0x200000 = 0x4B200000 + 0 from rfl,
      show largeUboot.scratch + 0x200000 = 0x4B200000 + 0x200000 from rfl, first, last] at byte
    cases byte
  have changed : (largeUboot.verified appsbl 0x200001 flashedUboot).2.st.world.ram 0x4B200000 = 0x7f := by
    rw [run]
    exact first
  refine ⟨flashedUboot_done, part, refused, rfl, changed, fun verifies => ?_⟩
  have ok := verifies.result.mpr ⟨flashedUboot_done, part⟩
  rw [refused] at ok
  cases ok

end ResQBoot.Upgrade
