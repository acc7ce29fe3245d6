import Mathlib.Tactic.Lemma
import Mathlib.Data.List.Basic
import Mathlib.Algebra.Order.Group.Nat

/-!
# Slot tables

A table of slots that is searched by a key of the entries. An operation on one key never changes the lookup of another,
whether or not the keys of the table are distinct.
-/

namespace ResQBoot.Slots

variable {α κ : Type} [DecidableEq κ] (key : α → κ) {t : List (Option α)} {k j : κ} {a : α}

def lookup (k : κ) : List (Option α) → Option α
  | [] => none
  | none :: t => lookup k t
  | some a :: t => if key a = k then some a else lookup k t

def erase (k : κ) : List (Option α) → List (Option α)
  | [] => []
  | none :: t => none :: erase k t
  | some a :: t => if key a = k then none :: t else some a :: erase k t

def alter (k : κ) (f : α → α) : List (Option α) → List (Option α)
  | [] => []
  | none :: t => none :: alter k f t
  | some a :: t => if key a = k then some (f a) :: t else some a :: alter k f t

def insert (a : α) : List (Option α) → Option (List (Option α))
  | [] => none
  | none :: t => some (some a :: t)
  | some b :: t => (insert a t).map (some b :: ·)

variable {key}

lemma lookup_erase (other : j ≠ k) (t : List (Option α)) : lookup key j (erase key k t) = lookup key j t := by
  induction t with
  | nil => rfl
  | cons slot t ih =>
    cases slot with
    | none => simpa [erase, lookup] using ih
    | some a =>
      by_cases here : key a = k
      · have skip : key a ≠ j := fun eq => other (eq.symm.trans here)
        rw [erase, if_pos here, lookup, lookup, if_neg skip]
      · simp [erase, lookup, here, ih]

lemma lookup_alter {f : α → α} (keeps : ∀ a, key (f a) = key a) (t : List (Option α)) :
    lookup key j (alter key k f t) = if j = k then (lookup key j t).map f else lookup key j t := by
  induction t with
  | nil => simp [alter, lookup]
  | cons slot t ih =>
    cases slot with
    | none => simpa [alter, lookup] using ih
    | some a =>
      by_cases here : key a = k
      · by_cases same : j = k
        · simp [alter, lookup, here, keeps, same]
        · have skip : key a ≠ j := fun eq => same (eq.symm.trans here)
          rw [alter, if_pos here, if_neg same, lookup, lookup, keeps, if_neg skip, if_neg skip]
      · by_cases match_j : key a = j
        · have different : j ≠ k := fun eq => here (match_j.trans eq)
          rw [alter, if_neg here, if_neg different, lookup, lookup, if_pos match_j, if_pos match_j]
        · simp [alter, lookup, here, match_j, ih]

lemma lookup_insert : ∀ {t t' : List (Option α)}, insert a t = some t' → lookup key (key a) t = none →
    lookup key j t' = if j = key a then some a else lookup key j t := by
  intro t
  induction t with
  | nil =>
    intro t' placed _
    cases placed
  | cons slot t ih =>
    intro t' placed fresh
    cases slot with
    | none =>
      cases placed
      by_cases same : j = key a
      · simp [lookup, same]
      · have skip : key a ≠ j := fun eq => same eq.symm
        rw [if_neg same, lookup, lookup, if_neg skip]
    | some b =>
      obtain ⟨t₁, rest, rfl⟩ := Option.map_eq_some_iff.mp placed
      by_cases here : key b = key a
      · simp [lookup, here] at fresh
      have fresh' : lookup key (key a) t = none := by simpa [lookup, here] using fresh
      by_cases match_j : key b = j
      · have different : j ≠ key a := fun eq => here (match_j.trans eq)
        simp [lookup, match_j, different]
      · simpa [lookup, match_j] using ih rest fresh'

lemma lookup_eq_none : lookup key k t = none ↔ k ∉ t.filterMap (Option.map key) := by
  induction t with
  | nil => simp [lookup]
  | cons slot t ih =>
    cases slot with
    | none => exact ih
    | some a =>
      by_cases here : key a = k
      · simp [lookup, here]
      · rw [lookup, if_neg here, ih]
        exact (List.mem_cons.trans (or_iff_right (Ne.symm here))).not.symm

lemma lookup_erase_self (distinct : (t.filterMap (Option.map key)).Nodup) :
    lookup key k (erase key k t) = none := by
  induction t with
  | nil => rfl
  | cons slot t ih =>
    cases slot with
    | none => exact ih distinct
    | some a =>
      obtain ⟨fresh, rest⟩ := List.nodup_cons.mp distinct
      by_cases here : key a = k
      · rw [erase, if_pos here]
        exact lookup_eq_none.mpr (here ▸ fresh)
      · rw [erase, if_neg here, lookup, if_neg here]
        exact ih rest

lemma free_erase (found : lookup key k t = some a) : none ∈ erase key k t := by
  induction t with
  | nil => cases found
  | cons slot t ih =>
    cases slot with
    | none => exact List.mem_cons_self
    | some b =>
      by_cases here : key b = k
      · rw [erase, if_pos here]
        exact List.mem_cons_self
      · rw [lookup, if_neg here] at found
        rw [erase, if_neg here]
        exact List.mem_cons_of_mem _ (ih found)

lemma insert_free (free : none ∈ t) : ∃ t', insert a t = some t' := by
  induction t with
  | nil => cases free
  | cons slot t ih =>
    cases slot with
    | none => exact ⟨_, rfl⟩
    | some b =>
      obtain ⟨t', placed⟩ := ih ((List.mem_cons.mp free).resolve_left (by rintro ⟨⟩))
      exact ⟨some b :: t', by rw [insert, placed, Option.map_some]⟩

/-! ## The entries of a table -/

section Entries

variable {β : Type} (g : α → β)

lemma insert_entries : ∀ {t' : List (Option α)}, insert a t = some t' →
    (t'.filterMap (Option.map g)).Perm (g a :: t.filterMap (Option.map g)) := by
  induction t with
  | nil =>
    intro t' placed
    cases placed
  | cons slot t ih =>
    intro t' placed
    cases slot with
    | none =>
      cases placed
      exact .refl _
    | some b =>
      obtain ⟨t₁, rest, rfl⟩ := Option.map_eq_some_iff.mp placed
      exact ((ih rest).cons (g b)).trans (.swap _ _ _)

lemma erase_entries (found : lookup key k t = some a) :
    (t.filterMap (Option.map g)).Perm (g a :: (erase key k t).filterMap (Option.map g)) := by
  induction t with
  | nil => cases found
  | cons slot t ih =>
    cases slot with
    | none => exact ih found
    | some b =>
      by_cases here : key b = k
      · rw [lookup, if_pos here] at found
        cases found
        rw [erase, if_pos here]
        exact .refl _
      · rw [lookup, if_neg here] at found
        rw [erase, if_neg here]
        exact ((ih found).cons (g b)).trans (.swap _ _ _)

lemma alter_entries {f : α → α} (keeps : ∀ a, g (f a) = g a) (t : List (Option α)) :
    (alter key k f t).filterMap (Option.map g) = t.filterMap (Option.map g) := by
  induction t with
  | nil => rfl
  | cons slot t ih =>
    cases slot with
    | none => exact ih
    | some b =>
      rw [alter]
      split
      · exact congrArg (· :: _) (keeps b)
      · exact congrArg (g b :: ·) ih

end Entries

end ResQBoot.Slots
