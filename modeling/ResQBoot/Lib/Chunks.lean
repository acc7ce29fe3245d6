import Mathlib.Tactic.Lemma
import Mathlib.Data.List.Basic
import Mathlib.Algebra.Order.Group.Nat

/-!
# Reading piece by piece

`collect` asks a reader for one piece after the other, up to an empty one. Where the pieces are those of a list, the list
comes out or a read fails (`collect_eq`).
-/

namespace ResQBoot.Chunks

variable {σ α : Type*}

inductive Outcome (α : Type*) where
  | failed
  | unfinished
  | done (data : List α)
  deriving DecidableEq

def collect (read : σ → Nat → Option (List α) × σ) : Nat → σ → Nat → List α → Outcome α
  | 0, _, _, _ => .unfinished
  | fuel + 1, st, off, got =>
    match (read st off).1 with
    | none => .failed
    | some [] => .done got
    | some (x :: t) => collect read fuel (read st off).2 (off + (x :: t).length) (got ++ x :: t)

structure Serves (read : σ → Nat → Option (List α) × σ) (whole : List α) (Inv : σ → Nat → Prop) : Prop where
  piece : ∀ {st off data}, Inv st off → (read st off).1 = some data → data <+: whole.drop off
  next : ∀ {st off data}, Inv st off → (read st off).1 = some data → data ≠ [] →
    Inv (read st off).2 (off + data.length)
  ends : ∀ {st off}, Inv st off → (read st off).1 = some [] → whole.length ≤ off

variable {read : σ → Nat → Option (List α) × σ} {whole : List α} {Inv : σ → Nat → Prop}

/-- A reader that serves a list has served all of it when it ends. -/
theorem collect_eq (serves : Serves read whole Inv) {fuel : Nat} {st : σ} {off : Nat} (inv : Inv st off)
    (inside : off ≤ whole.length) (enough : whole.length < off + fuel) :
    collect read fuel st off (whole.take off) = .failed ∨
      collect read fuel st off (whole.take off) = .done whole := by
  induction fuel generalizing st off with
  | zero => omega
  | succ fuel ih =>
    rw [collect]
    cases answer : (read st off).1 with
    | none => exact .inl rfl
    | some data =>
      cases data with
      | nil =>
        simp only
        rw [List.take_of_length_le (serves.ends inv answer)]
        exact .inr rfl
      | cons x t =>
        have piece := serves.piece inv answer
        have next := serves.next inv answer (List.cons_ne_nil x t)
        have fits : (x :: t).length ≤ whole.length - off := by
          rw [← List.length_drop]
          exact piece.length_le
        have got : whole.take off ++ x :: t = whole.take (off + (x :: t).length) := by
          rw [List.take_add, ← List.prefix_iff_eq_take.mp piece]
        simp only [got]
        refine ih next (by omega) ?_
        rw [List.length_cons]
        omega

/-- Two states in which reads answer alike, up to the data, fail alike. -/
theorem collect_alike {R : σ → σ → Prop}
    (alike : ∀ {st st'} off, R st st' →
      ((read st off).1.map List.length = (read st' off).1.map List.length) ∧
        ((read st off).1.isSome = true → R (read st off).2 (read st' off).2))
    {fuel : Nat} {st st' : σ} (related : R st st') (off : Nat) (got got' : List α)
    (fails : collect read fuel st' off got' = .failed) : collect read fuel st off got = .failed := by
  induction fuel generalizing st st' off got got' with
  | zero => cases fails
  | succ fuel ih =>
    obtain ⟨same, next⟩ := alike off related
    rw [collect] at fails ⊢
    cases answer : (read st off).1 with
    | none => rfl
    | some data =>
      cases answer' : (read st' off).1 with
      | none =>
        rw [answer, answer'] at same
        cases same
      | some data' =>
        rw [answer, answer', Option.map_some, Option.map_some, Option.some.injEq] at same
        cases data' with
        | nil =>
          rw [answer'] at fails
          cases fails
        | cons x' t' =>
          cases data with
          | nil => cases same
          | cons x t =>
            rw [answer'] at fails
            simp only at fails ⊢
            rw [same]
            exact ih (next (by rw [answer]; rfl)) _ _ _ fails

end ResQBoot.Chunks
