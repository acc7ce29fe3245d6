import Mathlib.Tactic.Lemma
import Mathlib.Data.List.Basic
import Mathlib.Algebra.Order.Group.Nat
import Mathlib.Logic.Relation

/-!
# Runs of a deterministic machine

`Reach step ok s₀` are the states of the runs from `s₀` in which every step meets `ok`. `Reach.invariant` is the induction
rule, `Reach.simulates` the rule for refinement, and `along_iff_prefixes` the rule for exact conditions.
-/

namespace ResQBoot

variable {σ ε : Type} {ok : σ → ε → Prop} {step : σ → ε → σ} {I : σ → Prop}

def runAll (step : σ → ε → σ) (s : σ) (evs : List ε) : σ :=
  evs.foldl step s

inductive Reach (step : σ → ε → σ) (ok : σ → ε → Prop) (s₀ : σ) : σ → Prop where
  | refl : Reach step ok s₀ s₀
  | tail {s e} : Reach step ok s₀ s → ok s e → Reach step ok s₀ (step s e)

lemma Reach.invariant {s₀ s : σ}
    (rch : Reach step ok s₀ s) (init : I s₀) (pres : ∀ s e, I s → ok s e → I (step s e)) : I s := by
  induction rch with
  | refl => exact init
  | tail _ hok ih => exact pres _ _ ih hok

lemma Reach.simulates {α : Type} {s₀ s : σ}
    {T : α → α → Prop} {f : σ → α} (rch : Reach step ok s₀ s) (init : I s₀)
    (sim : ∀ s e, I s → ok s e → I (step s e) ∧ (f (step s e) = f s ∨ T (f s) (f (step s e)))) :
    I s ∧ Relation.ReflTransGen T (f s₀) (f s) := by
  induction rch with
  | refl => exact ⟨init, .refl⟩
  | tail _ hok ih =>
    obtain ⟨inv, same | move⟩ := sim _ _ ih.1 hok
    · exact ⟨inv, same ▸ ih.2⟩
    · exact ⟨inv, ih.2.tail move⟩

def Along (step : σ → ε → σ) (ok : σ → ε → Prop) : σ → List ε → Prop
  | _, [] => True
  | s, e :: es => ok s e ∧ Along step ok (step s e) es

instance Along.decidable {step : σ → ε → σ} {ok : σ → ε → Prop} [∀ s e, Decidable (ok s e)] :
    ∀ s es, Decidable (Along step ok s es)
  | _, [] => .isTrue trivial
  | s, e :: es =>
    have : Decidable (Along step ok (step s e) es) := Along.decidable (step s e) es
    inferInstanceAs (Decidable (ok s e ∧ Along step ok (step s e) es))

lemma Along.reach {s₀ : σ} : ∀ {es : List ε} {s : σ},
    Along step ok s es → Reach step ok s₀ s → Reach step ok s₀ (runAll step s es)
  | [], _, _, rch => rch
  | _ :: _, _, ⟨hok, rest⟩, rch => rest.reach (rch.tail hok)

lemma along_true (step : σ → ε → σ) : ∀ (es : List ε) (s : σ), Along step (fun _ _ => True) s es
  | [], _ => trivial
  | _ :: es, _ => ⟨trivial, along_true step es _⟩

lemma along_iff_prefixes {pre : σ → ε → Prop} {good : σ → Prop}
    (keep : ∀ s e, I s → pre s e → I (step s e))
    (one : ∀ s e, I s → good s → pre s e → (good (step s e) ↔ ok s e)) :
    ∀ (es : List ε) (s : σ), I s → good s → Along step pre s es →
      ((∀ init, init <+: es → good (runAll step s init)) ↔ Along step ok s es) := by
  intro es
  induction es with
  | nil =>
    intro s _ start _
    refine ⟨fun _ => trivial, fun _ init sub => ?_⟩
    obtain rfl := List.prefix_nil.mp sub
    exact start
  | cons e es ih =>
    rintro s inv start ⟨meets, later⟩
    constructor
    · intro all
      have next : good (step s e) := all [e] (List.prefix_append [e] es)
      refine ⟨(one s e inv start meets).mp next, ?_⟩
      refine (ih _ (keep s e inv meets) next later).mp fun init sub => ?_
      exact all (e :: init) ((List.prefix_cons_inj e).mpr sub)
    · rintro ⟨hok, rest⟩ init sub
      have next : good (step s e) := (one s e inv start meets).mpr hok
      cases init with
      | nil => exact start
      | cons e' init =>
        obtain ⟨rfl, shorter⟩ := List.cons_prefix_cons.mp sub
        exact (ih _ (keep s e' inv meets) next later).mpr rest init shorter

end ResQBoot
