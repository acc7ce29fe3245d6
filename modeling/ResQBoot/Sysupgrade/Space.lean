import Mathlib.Algebra.Group.Int.Defs
import ResQBoot.Sysupgrade.Ubi

/-!
# The space of a new volume

`canReplace_freed` says that the answer of `ubi_volume_can_replace` compares exactly the two numbers that the creation
compares once the old volume is gone. The counters are `int`s in the source.
-/

namespace ResQBoot.Sysupgrade

def Freed (io : Io) (u : Ubi) (name : String) (u' : Ubi) : Prop :=
  u.findVolume name = none ∧ u' = u ∨ ubiRemoveVol io u name = (.ok (), u')

section Freed

variable {io : Io} {u u' : Ubi} {name : String} {size : Nat}

lemma ubiRemoveVol_ok (done : ubiRemoveVol io u name = (.ok (), u')) : ∃ vol, u.findVolume name = some vol ∧
    u.roMode = false ∧ u' = { u with
      volumes := Slots.erase Volume.name name u.volumes
      availPebs := u.availPebs + vol.reservedPebs -
        min (u.bebRsvdLevel - u.bebRsvdPebs) (u.availPebs + vol.reservedPebs)
      bebRsvdPebs := u.bebRsvdPebs + min (u.bebRsvdLevel - u.bebRsvdPebs) (u.availPebs + vol.reservedPebs) } := by
  rw [ubiRemoveVol] at done
  cases found : u.findVolume name with
  | none =>
    rw [found] at done
    cases done
  | some vol =>
    rw [found] at done
    dsimp only at done
    cases ro : u.roMode with
    | true =>
      rw [if_pos ro] at done
      cases done
    | false =>
      rw [ro, if_neg Bool.false_ne_true] at done
      cases broken : io.remove name with
      | some left =>
        rw [broken] at done
        cases done
      | none =>
        rw [broken] at done
        exact ⟨vol, rfl, rfl, (Prod.mk.inj done).2.symm⟩

lemma canReplace_freed (freed : Freed io u name u') :
    ubiVolumeCanReplace u name size = decide (u'.pebs size ≤ u'.availPebs) := by
  rw [ubiVolumeCanReplace]
  rcases freed with ⟨none_, rfl⟩ | done
  · rw [none_]
  obtain ⟨vol, found, -, rfl⟩ := ubiRemoveVol_ok done
  rw [found]
  dsimp only
  have left : (if u.bebRsvdLevel - u.bebRsvdPebs > u.availPebs + vol.reservedPebs then 0
      else u.availPebs + vol.reservedPebs - (u.bebRsvdLevel - u.bebRsvdPebs)) =
      u.availPebs + vol.reservedPebs - min (u.bebRsvdLevel - u.bebRsvdPebs) (u.availPebs + vol.reservedPebs) := by
    split <;> omega
  exact decide_eq_decide.mpr (Iff.of_eq (congrArg (u.pebs size ≤ ·) left))

lemma Freed.place (freed : Freed io u name u') (distinct : (u.volumes.filterMap (Option.map Volume.name)).Nodup)
    (free : none ∈ u.volumes) : u'.findVolume name = none ∧ none ∈ u'.volumes ∧ u'.roMode = u.roMode := by
  rcases freed with ⟨none_, rfl⟩ | done
  · exact ⟨none_, free, rfl⟩
  · obtain ⟨vol, found, -, rfl⟩ := ubiRemoveVol_ok done
    exact ⟨Slots.lookup_erase_self distinct, Slots.free_erase found, rfl⟩

lemma ubiCreateVol_eq (io : Io) (size : Nat) (absent : u.findVolume name = none) (free : none ∈ u.volumes) (some_ : size ≠ 0)
    (writable : u.roMode = false) : ∃ volumes, ubiCreateVol io u name size =
      if u.pebs size > u.availPebs then .error .nospc
      else if io.create name then .error .io
      else .ok { u with volumes := volumes, availPebs := u.availPebs - u.pebs size } := by
  obtain ⟨volumes, placed⟩ := Slots.insert_free (a := (⟨name, u.pebs size, []⟩ : Volume)) free
  refine ⟨volumes, ?_⟩
  rw [ubiCreateVol, if_neg some_, writable, if_neg Bool.false_ne_true, placed, absent]
  rfl

end Freed

/-! ## The counters -/

def int32 (n : Int) : Int := (n + 2 ^ 31) % 2 ^ 32 - 2 ^ 31

lemma int32_eq {n : Int} (low : -2 ^ 31 ≤ n) (high : n < 2 ^ 31) : int32 n = n := by
  rw [int32, Int.emod_eq_of_lt (by omega) (by omega)]
  omega

def removeCounters (avail level beb reserved : Int) : Int × Int :=
  let avail := int32 (avail + reserved)
  let i := int32 (level - beb)
  if 0 < i then
    let i := if i ≤ avail then i else avail
    (int32 (avail - i), int32 (beb + i))
  else (avail, beb)

def createPebs (bytes lebSize : Nat) : Int := int32 ((bytes + lebSize - 1) / lebSize : Nat)

lemma removeCounters_eq {avail level beb reserved : Nat} (blocks : avail + reserved < 2 ^ 31)
    (reserve : level < 2 ^ 31 ∧ beb < 2 ^ 31) : removeCounters avail level beb reserved =
      (((avail + reserved - min (level - beb) (avail + reserved) : Nat) : Int),
        ((beb + min (level - beb) (avail + reserved) : Nat) : Int)) := by
  rw [removeCounters, int32_eq (by omega) (by omega), int32_eq (by omega) (by omega)]
  dsimp only
  by_cases more : beb < level
  · rw [if_pos (by omega)]
    by_cases much : (level : Int) - beb ≤ avail + reserved
    · rw [if_pos much, int32_eq (by omega) (by omega), int32_eq (by omega) (by omega)]
      refine Prod.ext ?_ ?_ <;> dsimp only <;> omega
    · rw [if_neg much, int32_eq (by omega) (by omega), int32_eq (by omega) (by omega)]
      refine Prod.ext ?_ ?_ <;> dsimp only <;> omega
  · rw [if_neg (by omega)]
    refine Prod.ext ?_ ?_ <;> dsimp only <;> omega

lemma ubiRemoveVol_counters {io : Io} {u u' : Ubi} {name : String} {vol : Volume} (found : u.findVolume name = some vol)
    (done : ubiRemoveVol io u name = (.ok (), u')) (blocks : u.availPebs + vol.reservedPebs < 2 ^ 31)
    (reserve : u.bebRsvdLevel < 2 ^ 31 ∧ u.bebRsvdPebs < 2 ^ 31) :
    removeCounters u.availPebs u.bebRsvdLevel u.bebRsvdPebs vol.reservedPebs =
      ((u'.availPebs : Int), (u'.bebRsvdPebs : Int)) := by
  obtain ⟨vol', same, -, rfl⟩ := ubiRemoveVol_ok done
  cases same.symm.trans found
  exact removeCounters_eq blocks reserve

lemma createPebs_eq {u : Ubi} {size : Nat} (small : size < 2 ^ 32) (block : 64 ≤ u.lebSize) :
    createPebs size u.lebSize = u.pebs size := by
  have few : (size + u.lebSize - 1) / u.lebSize < 2 ^ 31 := by
    rw [Nat.div_lt_iff_lt_mul (by omega)]
    have wide : 2 ^ 31 * 64 ≤ 2 ^ 31 * u.lebSize := Nat.mul_le_mul_left _ block
    omega
  rw [createPebs, Ubi.pebs]
  generalize (size + u.lebSize - 1) / u.lebSize = n at few
  exact int32_eq (by omega) (by omega)

/-! ## The prediction -/

/-- After the old volume has been removed a creation does not fail for want of blocks if `ubi_volume_can_replace` agrees,
and fails if it does not. -/
theorem ubi_space_predicted (io : Io) (u u' : Ubi) (name : String) (size : Nat) (some_ : 1 ≤ size)
    (distinct : (u.volumes.filterMap (Option.map Volume.name)).Nodup) (free : none ∈ u.volumes)
    (freed : Freed io u name u') :
    (ubiVolumeCanReplace u name size = true → ubiCreateVol io u' name size ≠ .error .nospc) ∧
    (ubiVolumeCanReplace u name size = false →
      ∃ e, ubiCreateVol io u' name size = .error e ∧ (u.roMode = false → e = .nospc)) := by
  obtain ⟨absent, place, ro⟩ := freed.place distinct free
  rw [canReplace_freed freed, decide_eq_true_eq, decide_eq_false_iff_not]
  cases writable : u'.roMode with
  | true =>
    have refused : ubiCreateVol io u' name size = .error .rofs := by
      rw [ubiCreateVol, if_neg (by omega), if_pos writable]
    rw [refused]
    refine ⟨fun _ => by rintro ⟨⟩, fun _ => ⟨_, rfl, fun writes => ?_⟩⟩
    rw [writable, writes] at ro
    cases ro
  | false =>
    obtain ⟨volumes, created⟩ := ubiCreateVol_eq io size absent place (by omega) writable
    rw [created]
    constructor
    · intro fits
      rw [if_neg (by omega)]
      split
      · rintro ⟨⟩
      · rintro ⟨⟩
    · intro full
      exact ⟨_, if_pos (by omega), fun _ => rfl⟩

def smallUbi : Ubi where
  lebSize := 64
  volumes := [some ⟨"kernel", 2, []⟩, some ⟨"rootfs", 4, []⟩, none]
  availPebs := 1
  bebRsvdLevel := 3
  bebRsvdPebs := 2
  roMode := false

/-- Two blocks are left for a new kernel, not three. -/
theorem ubi_space_two : ∃ u', Freed ⟨fun _ => none, fun _ => false, fun _ => none⟩ smallUbi "kernel" u' ∧
    ubiCreateVol ⟨fun _ => none, fun _ => false, fun _ => none⟩ u' "kernel" 128 ≠ .error .nospc ∧
    ubiCreateVol ⟨fun _ => none, fun _ => false, fun _ => none⟩ u' "kernel" 129 = .error .nospc := by
  have freed : Freed ⟨fun _ => none, fun _ => false, fun _ => none⟩ smallUbi "kernel"
      (ubiRemoveVol ⟨fun _ => none, fun _ => false, fun _ => none⟩ smallUbi "kernel").2 := .inr rfl
  have fits := (ubi_space_predicted _ smallUbi _ "kernel" 128 (by decide) (by decide) (by decide) freed).1 (by decide)
  obtain ⟨e, failed, space⟩ :=
    (ubi_space_predicted _ smallUbi _ "kernel" 129 (by decide) (by decide) (by decide) freed).2 (by decide)
  rw [space rfl] at failed
  exact ⟨_, freed, fits, failed⟩

end ResQBoot.Sysupgrade
