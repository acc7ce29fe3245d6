import Mathlib.Algebra.BigOperators.Group.List.Basic
import Mathlib.Algebra.GroupWithZero.Nat
import ResQBoot.Lib.Slots
import ResQBoot.Lib.Bytes
import ResQBoot.Lib.Machine

/-!
# UBI volumes and the sysupgrade of kernel and rootfs

The volume table and the space accounting of a UBI device, and `sysupgrade_write_ubi_volumes`. Errors of the flash are the
choice of an `Io`; no erase block goes bad. Blocks then only move between the volumes, the free ones and the reserve
(`Accounts`).
-/

namespace ResQBoot.Sysupgrade

variable {size : Nat} {n : String}

structure Volume where
  name : String
  reservedPebs : Nat
  data : Bytes
  deriving DecidableEq, Repr

structure Ubi where
  lebSize : Nat
  volumes : List (Option Volume)
  availPebs : Nat
  bebRsvdLevel : Nat
  bebRsvdPebs : Nat
  roMode : Bool
  deriving DecidableEq, Repr

structure Io where
  remove : String → Option Bytes
  create : String → Bool
  write : String → Option Bytes

inductive UbiErr where
  | nodev
  | rofs
  | inval
  | nomem
  | nfile
  | exist
  | nospc
  | io
  deriving DecidableEq, Repr

def Ubi.findVolume (u : Ubi) (name : String) : Option Volume := Slots.lookup Volume.name name u.volumes

def Ubi.content (u : Ubi) (name : String) : Option Bytes := (u.findVolume name).map Volume.data

def Ubi.setData (u : Ubi) (name : String) (d : Bytes) : Ubi :=
  { u with volumes := Slots.alter Volume.name name (fun v => { v with data := d }) u.volumes }

def Ubi.pebs (u : Ubi) (size : Nat) : Nat := (size + u.lebSize - 1) / u.lebSize

def ubiRemoveVol (io : Io) (u : Ubi) (name : String) : Except UbiErr Unit × Ubi :=
  match u.findVolume name with
  | none => (.error .nodev, u)
  | some vol =>
    if u.roMode then (.error .rofs, u)
    else
      match io.remove name with
      | some left => (.error .io, u.setData name left)
      | none =>
        let avail := u.availPebs + vol.reservedPebs
        let i := min (u.bebRsvdLevel - u.bebRsvdPebs) avail
        (.ok (), { u with
          volumes := Slots.erase Volume.name name u.volumes
          availPebs := avail - i
          bebRsvdPebs := u.bebRsvdPebs + i })

def ubiCreateVol (io : Io) (u : Ubi) (name : String) (size : Nat) : Except UbiErr Ubi :=
  if size = 0 then .error .nomem
  else if u.roMode then .error .rofs
  else
    match Slots.insert ⟨name, u.pebs size, []⟩ u.volumes with
    | none => .error .nfile
    | some volumes =>
      if (u.findVolume name).isSome then .error .exist
      else if u.pebs size > u.availPebs then .error .nospc
      else if io.create name then .error .io
      else .ok { u with volumes := volumes, availPebs := u.availPebs - u.pebs size }

def ubiVolumeWrite (io : Io) (u : Ubi) (name : String) (data : Bytes) : Except UbiErr Unit × Ubi :=
  match u.findVolume name with
  | none => (.error .nodev, u)
  | some vol =>
    if data.length > vol.reservedPebs * u.lebSize % 2 ^ 32 then (.error .inval, u)
    else
      match io.write name with
      | some left => (.error .io, u.setData name left)
      | none => (.ok (), u.setData name data)

def ubiVolumeCanReplace (u : Ubi) (name : String) (size : Nat) : Bool :=
  let avail :=
    match u.findVolume name with
    | some vol =>
      let avail := u.availPebs + vol.reservedPebs
      let reserve := u.bebRsvdLevel - u.bebRsvdPebs
      if reserve > avail then 0 else avail - reserve
    | none => u.availPebs
  u.pebs size ≤ avail

inductive WriteErr where
  | noSpace (name : String)
  | failed (name : String)
  deriving DecidableEq, Repr

def ubiWriteVolume (io : Io) (u : Ubi) (name : String) (data : Bytes) : Except WriteErr Unit × Ubi :=
  if !ubiVolumeCanReplace u name data.length then (.error (.noSpace name), u)
  else
    let u := (ubiRemoveVol io u name).2
    match ubiCreateVol io u name data.length with
    | .error .nospc => (.error (.noSpace name), u)
    | .error _ => (.error (.failed name), u)
    | .ok u =>
      match ubiVolumeWrite io u name data with
      | (.error _, u) => (.error (.failed name), u)
      | (.ok (), u) => (.ok (), u)

def writePart (io : Io) (u : Ubi) (name : String) (data : Bytes) : Except WriteErr Unit × Ubi :=
  if data = [] then (.ok (), u) else ubiWriteVolume io u name data

def writeRequired (io : Io) (u : Ubi) (kernel rootfs : Bytes) : Except WriteErr Unit × Ubi :=
  match writePart io u "kernel" kernel with
  | (.error e, u) => (.error e, u)
  | (.ok (), u) => writePart io u "rootfs" rootfs

def restoreConfig (io : Io) (u : Ubi) : Ubi :=
  match ubiCreateVol io u "rootfs_data" (u.availPebs * u.lebSize) with
  | .ok u => u
  | .error _ => u

def sysupgradeWriteUbiVolumes (io : Io) (u : Ubi) (kernel rootfs : Bytes) (backupEnabled : Bool) :
    Except WriteErr Unit × Ubi :=
  let u := (ubiRemoveVol io u "rootfs_data").2
  match writeRequired io u kernel rootfs with
  | (.error e, u) => (.error e, restoreConfig io u)
  | (.ok (), u) =>
    let u :=
      if backupEnabled then
        let u := (writePart io u "kernel_1" kernel).2
        (writePart io u "rootfs_1" rootfs).2
      else u
    (.ok (), restoreConfig io u)

def Ubi.names (u : Ubi) : List String := u.volumes.filterMap (Option.map Volume.name)

def Ubi.reserved (u : Ubi) : Nat := (u.volumes.filterMap (Option.map Volume.reservedPebs)).sum

structure Accounts (touched : List String) (u u' : Ubi) : Prop where
  pebs : u'.availPebs + u'.bebRsvdPebs + u'.reserved = u.availPebs + u.bebRsvdPebs + u.reserved
  names : u.names.Nodup → u'.names.Nodup
  others : ∀ name, name ∉ touched → u'.findVolume name = u.findVolume name
  reserve : u.bebRsvdPebs ≤ u'.bebRsvdPebs ∧ u'.bebRsvdPebs ≤ max u.bebRsvdPebs u.bebRsvdLevel
  device : u'.lebSize = u.lebSize ∧ u'.bebRsvdLevel = u.bebRsvdLevel ∧ u'.roMode = u.roMode

section Accounts

variable {T : List String} {io : Io} {u u' : Ubi} {name other : String}

lemma Accounts.refl (T : List String) (u : Ubi) : Accounts T u u :=
  ⟨rfl, id, fun _ _ => rfl, ⟨Nat.le_refl _, Nat.le_max_left _ _⟩, rfl, rfl, rfl⟩

lemma Accounts.trans {u'' : Ubi} (first : Accounts T u u') (second : Accounts T u' u'') : Accounts T u u'' where
  pebs := second.pebs.trans first.pebs
  names distinct := second.names (first.names distinct)
  others name other := (second.others name other).trans (first.others name other)
  reserve := by
    obtain ⟨low, high⟩ := first.reserve
    obtain ⟨low', high'⟩ := second.reserve
    rw [first.device.2.1] at high'
    omega
  device := ⟨second.device.1.trans first.device.1, second.device.2.1.trans first.device.2.1,
    second.device.2.2.trans first.device.2.2⟩

lemma ubiCreateVol_ok (ok : ubiCreateVol io u name size = .ok u') : ∃ volumes,
    Slots.insert ⟨name, u.pebs size, []⟩ u.volumes = some volumes ∧ u.findVolume name = none ∧
      u.pebs size ≤ u.availPebs ∧ u.roMode = false ∧
      u' = { u with volumes := volumes, availPebs := u.availPebs - u.pebs size } := by
  rw [ubiCreateVol] at ok
  split_ifs at ok with empty writable fresh fits <;> split at ok <;> cases ok
  rename_i volumes placed
  exact ⟨volumes, placed, by simpa using fresh, by omega, by simpa using writable, rfl⟩

lemma ubiCreateVol_find (ok : ubiCreateVol io u name size = .ok u') (other : String) :
    u'.findVolume other = if other = name then some ⟨name, u.pebs size, []⟩ else u.findVolume other := by
  obtain ⟨volumes, placed, absent, -, -, rfl⟩ := ubiCreateVol_ok ok
  exact Slots.lookup_insert placed absent

lemma findVolume_setData (d : Bytes) : (u.setData name d).findVolume other =
      if other = name then (u.findVolume other).map fun v => { v with data := d } else u.findVolume other :=
  Slots.lookup_alter (f := fun v : Volume => { v with data := d }) (fun _ => rfl) u.volumes

lemma setData_entries {β : Type} {g : Volume → β} (d : Bytes) (keeps : ∀ v : Volume, g { v with data := d } = g v) :
    (u.setData name d).volumes.filterMap (Option.map g) = u.volumes.filterMap (Option.map g) :=
  Slots.alter_entries g keeps u.volumes

lemma setData_accounts (touched : name ∈ T) (d : Bytes) : Accounts T u (u.setData name d) where
  pebs := congrArg (u.availPebs + u.bebRsvdPebs + List.sum ·) (setData_entries d fun _ => rfl)
  names distinct := by
    rw [Ubi.names, setData_entries d fun _ => rfl]
    exact distinct
  others other away := by
    rw [findVolume_setData, if_neg]
    rintro rfl
    exact away touched
  reserve := ⟨Nat.le_refl _, Nat.le_max_left _ _⟩
  device := ⟨rfl, rfl, rfl⟩

lemma ubiRemoveVol_accounts (io : Io) (u : Ubi) (touched : name ∈ T) : Accounts T u (ubiRemoveVol io u name).2 := by
  rw [ubiRemoveVol]
  split
  · exact .refl _ _
  rename_i vol found
  split_ifs
  · exact .refl _ _
  split
  · exact setData_accounts touched _
  have blocks : u.reserved = List.sum (_ :: _) := (Slots.erase_entries Volume.reservedPebs found).sum_eq
  rw [List.sum_cons] at blocks
  dsimp only
  refine ⟨?_, fun distinct => ?_, fun other away => Slots.lookup_erase ?_ _, ?_, rfl, rfl, rfl⟩
  · rw [blocks]
    simp only [Ubi.reserved]
    omega
  · exact (List.nodup_cons.mp ((Slots.erase_entries Volume.name found).nodup_iff.mp distinct)).2
  · rintro rfl
    exact away touched
  · dsimp only
    omega

lemma ubiCreateVol_accounts (touched : name ∈ T) (ok : ubiCreateVol io u name size = .ok u') :
    Accounts T u u' := by
  have others (other : String) (away : other ∉ T) : u'.findVolume other = u.findVolume other := by
    rw [ubiCreateVol_find ok, if_neg]
    rintro rfl
    exact away touched
  obtain ⟨volumes, placed, absent, fits, -, rfl⟩ := ubiCreateVol_ok ok
  have blocks := (Slots.insert_entries Volume.reservedPebs placed).sum_eq
  rw [List.sum_cons] at blocks
  refine ⟨?_, fun distinct => ?_, others, ⟨Nat.le_refl _, Nat.le_max_left _ _⟩, rfl, rfl, rfl⟩
  · simp only [Ubi.reserved] at blocks ⊢
    rw [blocks]
    omega
  · exact (Slots.insert_entries Volume.name placed).nodup_iff.mpr
      (List.nodup_cons.mpr ⟨Slots.lookup_eq_none.mp absent, distinct⟩)

lemma ubiVolumeWrite_accounts (io : Io) (u : Ubi) (data : Bytes) (touched : name ∈ T) :
    Accounts T u (ubiVolumeWrite io u name data).2 := by
  rw [ubiVolumeWrite]
  split
  · exact .refl _ _
  split
  · exact .refl _ _
  · split <;> exact setData_accounts touched _

lemma writePart_accounts (io : Io) (u : Ubi) (data : Bytes) (touched : name ∈ T) :
    Accounts T u (writePart io u name data).2 := by
  rw [writePart]
  split
  · exact .refl _ _
  rw [ubiWriteVolume]
  split
  · exact .refl _ _
  have removed := ubiRemoveVol_accounts io u touched
  dsimp only
  split
  · exact removed
  · exact removed
  rename_i u₁ created
  have written := ubiVolumeWrite_accounts io u₁ data touched
  have made := removed.trans (ubiCreateVol_accounts touched created)
  split <;> rename_i eq <;> rw [eq] at written <;> exact made.trans written

lemma restoreConfig_accounts (io : Io) (u : Ubi) (touched : "rootfs_data" ∈ T) : Accounts T u (restoreConfig io u) := by
  rw [restoreConfig]
  split
  · rename_i created
    exact ubiCreateVol_accounts touched created
  · exact .refl _ _

lemma Accounts.content (accounts : Accounts [name] u u') (ne : other ≠ name) : u'.content other = u.content other :=
  congrArg (Option.map Volume.data) (accounts.others other (List.mem_singleton.not.mpr ne))

end Accounts

section Content

variable {io : Io} {u u' : Ubi} {name other : String} {data : Bytes}

lemma content_setData (d : Bytes) : (u.setData name d).content other =
      if other = name then (u.content other).map fun _ => d else u.content other := by
  rw [Ubi.content, Ubi.content, findVolume_setData]
  split
  · simp [Option.map_map, Function.comp_def]
  · rfl

lemma ubiRemoveVol_other (ne : other ≠ name) : (ubiRemoveVol io u name).2.content other = u.content other :=
  (ubiRemoveVol_accounts io u List.mem_cons_self).content ne

lemma ubiVolumeWrite_content (ok : ubiVolumeWrite io u name data = (.ok (), u')) : u'.content name = some data := by
  rw [ubiVolumeWrite] at ok
  split at ok
  · cases ok
  rename_i vol found
  split_ifs at ok
  · cases ok
  split at ok <;> cases ok
  rw [content_setData, if_pos rfl, Ubi.content, found]
  rfl

lemma ubiWriteVolume_content (ok : ubiWriteVolume io u name data = (.ok (), u')) : u'.content name = some data := by
  simp only [ubiWriteVolume] at ok
  split_ifs at ok
  · cases ok
  split at ok
  · cases ok
  · cases ok
  split at ok <;> cases ok
  rename_i u₁ eq
  exact ubiVolumeWrite_content eq

lemma restoreConfig_content (ne : other ≠ "rootfs_data") : (restoreConfig io u).content other = u.content other :=
  (restoreConfig_accounts io u List.mem_cons_self).content ne

lemma create_of_canReplace (can : ubiVolumeCanReplace u name size = true) :
    ubiCreateVol io (ubiRemoveVol io u name).2 name size ≠ .error .nospc := by
  have space : (∃ v, (ubiRemoveVol io u name).2.findVolume name = some v) ∨
      (ubiRemoveVol io u name).2.pebs size ≤ (ubiRemoveVol io u name).2.availPebs := by
    rw [ubiVolumeCanReplace] at can
    rw [ubiRemoveVol]
    cases found : u.findVolume name with
    | none => exact .inr (by simpa [found] using can)
    | some vol =>
      simp only [found, decide_eq_true_eq] at can
      simp only
      split
      · exact .inl ⟨vol, found⟩
      split
      · rename_i left _
        refine .inl ⟨{ vol with data := left }, ?_⟩
        rw [findVolume_setData, if_pos rfl, found]
        rfl
      · right
        have reserve : u.availPebs + vol.reservedPebs -
            min (u.bebRsvdLevel - u.bebRsvdPebs) (u.availPebs + vol.reservedPebs) =
            if u.bebRsvdLevel - u.bebRsvdPebs > u.availPebs + vol.reservedPebs then 0
            else u.availPebs + vol.reservedPebs - (u.bebRsvdLevel - u.bebRsvdPebs) := by
          split <;> omega
        exact Nat.le_trans can (Nat.le_of_eq reserve.symm)
  rw [ubiCreateVol]
  split
  · simp
  split
  · simp
  split
  · simp
  rcases space with ⟨v, found⟩ | fits
  · simp [found]
  · split_ifs <;> simp
    omega

lemma ubiWriteVolume_noSpace (full : ubiWriteVolume io u name data = (.error (.noSpace n), u')) :
    n = name ∧ u' = u := by
  simp only [ubiWriteVolume] at full
  split_ifs at full with can
  · cases full
    exact ⟨rfl, rfl⟩
  split at full
  · rename_i nospc
    exact absurd nospc (create_of_canReplace (by simpa using can))
  · cases full
  · split at full <;> cases full

lemma writePart_noSpace (full : writePart io u name data = (.error (.noSpace n), u')) :
    n = name ∧ u' = u := by
  rw [writePart] at full
  split_ifs at full
  · cases full
  · exact ubiWriteVolume_noSpace full

lemma writePart_content (ok : writePart io u name data = (.ok (), u')) :
    u'.content name = if data = [] then u.content name else some data := by
  rw [writePart] at ok
  split_ifs at ok ⊢
  · cases ok
    rfl
  · exact ubiWriteVolume_content ok

lemma writePart_other (ne : other ≠ name) : (writePart io u name data).2.content other = u.content other :=
  (writePart_accounts io u data List.mem_cons_self).content ne

lemma writeRequired_noSpace {kernel rootfs : Bytes}
    (full : writeRequired io u kernel rootfs = (.error (.noSpace n), u')) :
    u'.content "rootfs" = u.content "rootfs" ∧ (n = "kernel" ∧ u'.content "kernel" = u.content "kernel" ∨ n = "rootfs" ∧
          u'.content "kernel" = if kernel = [] then u.content "kernel" else some kernel) := by
  rw [writeRequired] at full
  split at full
  · rename_i e u₁ first
    cases full
    obtain ⟨rfl, rfl⟩ := writePart_noSpace first
    exact ⟨rfl, .inl ⟨rfl, rfl⟩⟩
  · rename_i u₁ first
    obtain ⟨rfl, rfl⟩ := writePart_noSpace full
    have rest : (writePart io u "kernel" kernel).2.content "rootfs" = u.content "rootfs" :=
      writePart_other (by decide)
    rw [first] at rest
    exact ⟨rest, .inr ⟨rfl, writePart_content first⟩⟩

end Content

/-- An upgrade that fails because there is no space for a required volume leaves kernel and rootfs as
they were exactly when the kernel was the volume without space, or there was no kernel to write, or
the kernel volume held this very kernel already. -/
theorem upgrade_space_iff (io : Io) (u : Ubi) (kernel rootfs : Bytes) (backupEnabled : Bool) (n : String)
    (full : (sysupgradeWriteUbiVolumes io u kernel rootfs backupEnabled).1 = .error (.noSpace n)) :
    ((sysupgradeWriteUbiVolumes io u kernel rootfs backupEnabled).2.content "kernel" =
          u.content "kernel" ∧
        (sysupgradeWriteUbiVolumes io u kernel rootfs backupEnabled).2.content "rootfs" =
          u.content "rootfs") ↔
      n = "kernel" ∨ kernel = [] ∨ u.content "kernel" = some kernel := by
  rw [sysupgradeWriteUbiVolumes] at full ⊢
  have kernel₀ : (ubiRemoveVol io u "rootfs_data").2.content "kernel" = u.content "kernel" :=
    ubiRemoveVol_other (by decide)
  have rootfs₀ : (ubiRemoveVol io u "rootfs_data").2.content "rootfs" = u.content "rootfs" :=
    ubiRemoveVol_other (by decide)
  cases required : writeRequired io (ubiRemoveVol io u "rootfs_data").2 kernel rootfs with
  | mk result u₁ =>
    cases result with
    | ok => simp [required] at full
    | error e =>
      simp only [required, Except.error.injEq] at full ⊢
      subst full
      obtain ⟨same, first⟩ := writeRequired_noSpace required
      rw [restoreConfig_content (by decide), restoreConfig_content (by decide), same, rootfs₀]
      rw [kernel₀] at first
      rcases first with ⟨rfl, keep⟩ | ⟨rfl, new⟩
      · simp [keep]
      · rw [new]
        by_cases absent : kernel = []
        · simp [absent]
        · simp [absent, eq_comm]

def sampleUbi : Ubi where
  lebSize := 4
  volumes := [some ⟨"kernel", 1, [1]⟩, some ⟨"rootfs", 1, [2]⟩, none]
  availPebs := 8
  bebRsvdLevel := 2
  bebRsvdPebs := 2
  roMode := false

def sampleIo : Io := ⟨fun _ => none, fun _ => false, fun _ => none⟩

/-- A kernel of 10 blocks has no space, and both volumes stay. -/
theorem upgrade_space_kernel :
    (sysupgradeWriteUbiVolumes sampleIo sampleUbi (List.replicate 40 3) [4] true).1 =
        .error (.noSpace "kernel") ∧
      (sysupgradeWriteUbiVolumes sampleIo sampleUbi (List.replicate 40 3) [4] true).2.content "kernel" =
        sampleUbi.content "kernel" := by
  have full : (sysupgradeWriteUbiVolumes sampleIo sampleUbi (List.replicate 40 3) [4] true).1 =
      .error (.noSpace "kernel") := by decide
  exact ⟨full, ((upgrade_space_iff _ _ _ _ _ _ full).mpr (.inl rfl)).1⟩

/-- A kernel of 5 blocks fits and is written; the rootfs of 6 blocks has no space then, and the upgrade
fails with the new kernel on the device. -/
theorem upgrade_replaces_kernel :
    let after := sysupgradeWriteUbiVolumes sampleIo sampleUbi (List.replicate 20 3)
      (List.replicate 24 4) false
    after.1 = .error (.noSpace "rootfs") ∧ sampleUbi.content "kernel" = some [1] ∧
      after.2.content "kernel" = some (List.replicate 20 3) ∧
      after.2.content "rootfs" = some [2] := by
  decide

/-! ## Runs of upgrades -/

structure Job where
  io : Io
  kernel : Bytes
  rootfs : Bytes
  backupEnabled : Bool

def Job.run (u : Ubi) (job : Job) : Except WriteErr Unit × Ubi :=
  sysupgradeWriteUbiVolumes job.io u job.kernel job.rootfs job.backupEnabled

def systemVolumes : List String := ["rootfs_data", "kernel", "rootfs", "kernel_1", "rootfs_1"]

lemma writeRequired_accounts (io : Io) (u : Ubi) (kernel rootfs : Bytes) :
    Accounts systemVolumes u (writeRequired io u kernel rootfs).2 := by
  have first : Accounts systemVolumes u (writePart io u "kernel" kernel).2 := writePart_accounts io u kernel (by decide)
  rw [writeRequired]
  split <;> rename_i u₁ eq <;> rw [eq] at first
  · exact first
  · exact first.trans (writePart_accounts io u₁ rootfs (by decide))

lemma upgrade_accounts (u : Ubi) (job : Job) : Accounts systemVolumes u (job.run u).2 := by
  have removed : Accounts systemVolumes u (ubiRemoveVol job.io u "rootfs_data").2 :=
    ubiRemoveVol_accounts job.io u (by decide)
  have required := removed.trans (writeRequired_accounts job.io _ job.kernel job.rootfs)
  have restored (u₂ : Ubi) : Accounts systemVolumes u₂ (restoreConfig job.io u₂) :=
    restoreConfig_accounts job.io u₂ (by decide)
  rw [Job.run, sysupgradeWriteUbiVolumes]
  dsimp only
  split <;> rename_i u₁ eq <;> rw [eq] at required
  · exact required.trans (restored u₁)
  refine required.trans (.trans ?_ (restored _))
  split
  · exact (writePart_accounts job.io _ job.kernel (by decide)).trans
      (writePart_accounts job.io _ job.rootfs (by decide))
  · exact .refl _ _

/-- However many upgrades are made and whatever fails in them, no block of the device is lost or counted twice, no two
volumes get one name, the reserve for bad blocks is never spent, and other volumes stay as they are. -/
theorem upgrades_account (u : Ubi) (jobs : List Job) :
    Accounts systemVolumes u (runAll (fun u job => (Job.run u job).2) u jobs) := by
  induction jobs generalizing u with
  | nil => exact .refl _ _
  | cons job jobs ih => exact (upgrade_accounts u job).trans (ih _)

end ResQBoot.Sysupgrade
