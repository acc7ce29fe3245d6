import Mathlib.Tactic.Lemma
import Mathlib.Data.List.Basic
import Mathlib.Algebra.Order.Group.Nat

/-!
# Dialogs

A program that asks questions and goes on with the answers, as a tree. A property of all questions is proved over the
tree (`Asks`) and holds in every run. Two machines that answer alike are asked the same.
-/

namespace ResQBoot

inductive Dialog (Q ρ : Type) where
  | done (r : ρ)
  | ask (q : Q) (next : Bool → Dialog Q ρ)

namespace Dialog

variable {Q ρ τ σ σ' : Type}

def bind (d : Dialog Q ρ) (f : ρ → Dialog Q τ) : Dialog Q τ := match d with
  | .done r => f r
  | .ask q next => .ask q fun ok => (next ok).bind f

def run (answer : Q → σ → Bool × σ) : Dialog Q ρ → σ → ρ × σ
  | .done r, s => (r, s)
  | .ask q next, s => run answer (next (answer q s).1) (answer q s).2

def asked (answer : Q → σ → Bool × σ) : Dialog Q ρ → σ → List Q
  | .done _, _ => []
  | .ask q next, s => q :: asked answer (next (answer q s).1) (answer q s).2

def Asks (P : Q → Prop) : Dialog Q ρ → Prop
  | .done _ => True
  | .ask q next => P q ∧ ∀ ok, Asks P (next ok)

variable {answer : Q → σ → Bool × σ} {answer' : Q → σ' → Bool × σ'} {P P' : Q → Prop}

theorem of_mem_asked {d : Dialog Q ρ} (asks : d.Asks P) {s : σ} {q : Q} (mem : q ∈ d.asked answer s) : P q := by
  induction d generalizing s with
  | done r => cases mem
  | ask q' next ih =>
    rcases List.mem_cons.mp mem with rfl | mem
    · exact asks.1
    · exact ih _ (asks.2 _) mem

/-- Machines that answer alike from related states on are asked the same and come to the same result. -/
theorem asked_alike {R : σ → σ' → Prop}
    (alike : ∀ q s s', P q → R s s' → (answer q s).1 = (answer' q s').1 ∧ R (answer q s).2 (answer' q s').2)
    {d : Dialog Q ρ} (asks : d.Asks P) {s : σ} {s' : σ'} (related : R s s') :
    d.asked answer s = d.asked answer' s' ∧ (d.run answer s).1 = (d.run answer' s').1 := by
  induction d generalizing s s' with
  | done r => exact ⟨rfl, rfl⟩
  | ask q next ih =>
    obtain ⟨same, next'⟩ := alike q s s' asks.1 related
    rw [asked, asked, run, run, ← same]
    obtain ⟨questions, result⟩ := ih _ (asks.2 _) next'
    exact ⟨congrArg (q :: ·) questions, result⟩

/-! ## Dialogs that succeed or fail -/

def Fails : Dialog Q Bool → Prop
  | .done r => r = false
  | .ask _ next => ∀ ok, Fails (next ok)

def Careful (P T : Q → Prop) : Dialog Q Bool → Prop
  | .done _ => True
  | .ask q next => P q ∧ (∀ ok, Careful P T (next ok)) ∧ (T q ∨ Fails (next false))

def refused (answer : Q → σ → Bool × σ) : Dialog Q Bool → σ → List Q
  | .done _, _ => []
  | .ask q next, s =>
    (if (answer q s).1 then [] else [q]) ++ refused answer (next (answer q s).1) (answer q s).2

variable {T : Q → Prop} {d : Dialog Q Bool} {f : Bool → Dialog Q Bool}

lemma Careful.asks (careful : d.Careful P T) (weaker : ∀ q, P q → P' q) : d.Asks P' := by
  induction d with
  | done r => trivial
  | ask q next ih => exact ⟨weaker q careful.1, fun ok => ih ok (careful.2.1 ok)⟩

lemma Fails.bind (fails : d.Fails) (rest : (f false).Fails) : (d.bind f).Fails := by
  induction d with
  | done r =>
    cases fails
    exact rest
  | ask q next ih => exact fun ok => ih ok (fails ok)

lemma Careful.bind (first : d.Careful P T) (rest : ∀ r, (f r).Careful P T) (fails : (f false).Fails) :
    (d.bind f).Careful P T := by
  induction d with
  | done r => exact rest r
  | ask q next ih => exact ⟨first.1, fun ok => ih ok (first.2.1 ok), first.2.2.imp_right fun no => no.bind fails⟩

lemma Careful.after (first : d.Asks fun q => P q ∧ T q) (rest : ∀ r, (f r).Careful P T) : (d.bind f).Careful P T := by
  induction d with
  | done r => exact rest r
  | ask q next ih => exact ⟨first.1.1, fun ok => ih ok (first.2 ok), .inl first.1.2⟩

lemma Fails.run (fails : d.Fails) (s : σ) : (d.run answer s).1 = false := by
  induction d generalizing s with
  | done r => exact fails
  | ask q next ih => exact ih _ (fails _) _

theorem Careful.refused (careful : d.Careful P T) {s : σ} (done : (d.run answer s).1 = true) {q : Q}
    (mem : q ∈ d.refused answer s) : T q := by
  induction d generalizing s with
  | done r => cases mem
  | ask q' next ih =>
    rw [Dialog.run] at done
    cases ok : (answer q' s).1 with
    | true =>
      rw [Dialog.refused, ok, if_pos rfl] at mem
      rw [ok] at done
      exact ih _ (careful.2.1 _) done mem
    | false =>
      rw [Dialog.refused, ok, if_neg Bool.false_ne_true] at mem
      rw [ok] at done
      rcases careful.2.2 with optional | fails
      · rcases List.mem_cons.mp mem with rfl | mem
        · exact optional
        · exact ih _ (careful.2.1 _) done mem
      · rw [fails.run] at done
        cases done

end Dialog

end ResQBoot
