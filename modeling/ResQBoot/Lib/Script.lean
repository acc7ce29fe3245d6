import Mathlib.Tactic.Lemma
import Mathlib.Data.List.Basic
import Mathlib.Algebra.Order.Group.Nat

/-!
# Scripts

A program that issues commands to a device and goes on with the replies, as a tree. That every run stops at a failure is
proved over the tree.
-/

namespace ResQBoot

inductive Script (C R ρ : Type) where
  | done (r : ρ)
  | issue (c : C) (next : R → Script C R ρ)

namespace Script

variable {C R ρ τ σ : Type}

def bind (t : Script C R ρ) (f : ρ → Script C R τ) : Script C R τ := match t with
  | .done r => f r
  | .issue c next => .issue c fun a => (next a).bind f

def run (answer : C → σ → R × σ) : Script C R ρ → σ → ρ × σ
  | .done r, s => (r, s)
  | .issue c next, s => run answer (next (answer c s).1) (answer c s).2

def transcript (answer : C → σ → R × σ) : Script C R ρ → σ → List (C × R)
  | .done _, _ => []
  | .issue c next, s => (c, (answer c s).1) :: transcript answer (next (answer c s).1) (answer c s).2

/-- A failure is the last reply of a run, and its result is bad. -/
def Halts (fails : C → R → Prop) (bad : ρ → Prop) : Script C R ρ → Prop
  | .done _ => True
  | .issue c next => ∀ a, (fails c a → ∃ r, next a = .done r ∧ bad r) ∧ Halts fails bad (next a)

section Rules

variable {Q : ρ → Prop} {Q' : τ → Prop} {fails : C → R → Prop} {t : Script C R ρ} {f : ρ → Script C R τ}

lemma Halts.bind (first : t.Halts fails Q) (stop : ∀ r, Q r → ∃ r', f r = .done r' ∧ Q' r')
    (rest : ∀ r, (f r).Halts fails Q') : (t.bind f).Halts fails Q' := by
  induction t with
  | done r => exact rest r
  | issue c next ih =>
    refine fun a => ⟨fun failed => ?_, ih a (first a).2⟩
    obtain ⟨r, last, bad⟩ := (first a).1 failed
    obtain ⟨r', last', bad'⟩ := stop r bad
    refine ⟨r', ?_, bad'⟩
    change (next a).bind f = _
    rw [last]
    exact last'

/-! A command whose reply is tested: the script goes on only if the test is not met. -/

variable {c : C} {test : R → Prop} [DecidablePred test] {out : R → ρ} {next : R → Script C R ρ}

lemma Halts.guard (caught : ∀ a, fails c a → test a ∧ Q (out a)) (rest : ∀ a, (next a).Halts fails Q) :
    (Script.issue c fun a => if test a then .done (out a) else next a).Halts fails Q := by
  intro a
  refine ⟨fun failed => ⟨out a, if_pos (caught a failed).1, (caught a failed).2⟩, ?_⟩
  by_cases met : test a
  · simp only [if_pos met]
    trivial
  · simp only [if_neg met]
    exact rest a

end Rules

section Runs

variable {Q : ρ → Prop} {fails : C → R → Prop} {t : Script C R ρ} {answer : C → σ → R × σ} {s : σ}

/-- A failure ends the transcript. -/
theorem Halts.last (halts : t.Halts fails Q) {pre post : List (C × R)} {e : C × R}
    (at_e : t.transcript answer s = pre ++ e :: post) (failed : fails e.1 e.2) : post = [] ∧ Q (t.run answer s).1 := by
  induction t generalizing s pre with
  | done r =>
    have := congrArg List.length at_e
    simp [transcript] at this
  | issue c next ih =>
    rw [transcript] at at_e
    cases pre with
    | nil =>
      obtain ⟨rfl, rest⟩ := List.cons.inj at_e
      obtain ⟨r, last, bad⟩ := (halts _).1 failed
      rw [run, last]
      rw [last] at rest
      exact ⟨rest.symm, bad⟩
    | cons e' pre =>
      obtain ⟨-, rest⟩ := List.cons.inj at_e
      exact ih _ (halts _).2 rest

lemma run_bind (f : ρ → Script C R τ) :
    (t.bind f).run answer s = (f (t.run answer s).1).run answer (t.run answer s).2 := by
  induction t generalizing s with
  | done r => rfl
  | issue c next ih => exact ih _

end Runs

end Script

end ResQBoot
