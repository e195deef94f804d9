import Fbaodv.Foundation.Lockstep
import Mathlib.Logic.Function.Basic

/-! Processes of which one goes on at a time. What it may do depends on the state
of all. -/

namespace Fbaodv.Foundation.Interleaving

open Relation Lockstep

variable {ι σ ε : Type} [DecidableEq ι] {turn turn' : (ι → σ) → ι → ε → σ → Prop} {s s' : ι → σ}

/-- By `turn s i e a` the process `i` may go in the state `s` by `e` to `a`. -/
inductive Step (turn : (ι → σ) → ι → ε → σ → Prop) (s : ι → σ) : (ι → σ) → Prop
  | turn (i : ι) (e : ε) (a : σ) (h : turn s i e a) : Step turn s (Function.update s i a)

def Reaches (turn : (ι → σ) → ι → ε → σ → Prop) : (ι → σ) → (ι → σ) → Prop := ReflTransGen (Step turn)

theorem Reaches.mono (hturn : ∀ s i e a, turn s i e a → turn' s i e a) (h : Reaches turn s s') :
    Reaches turn' s s' := by
  induction h with
  | refl => exact .refl
  | tail _ hstep ih =>
    obtain ⟨i, e, a, hs⟩ := hstep
    exact ih.tail (.turn i e a (hturn _ i e a hs))

theorem Reaches.trans {s'' : ι → σ} (h : Reaches turn s s') (h' : Reaches turn s' s'') :
    Reaches turn s s'' :=
  ReflTransGen.trans h h'

/-- A property of every process that may look at the whole state. A step has to
give it to the process that takes the step and to leave it to the others. -/
theorem Reaches.invariant {P : (ι → σ) → ι → σ → Prop}
    (hself : ∀ s i e a, (∀ j, P s j (s j)) → turn s i e a → P (Function.update s i a) i a)
    (hothers : ∀ s i e a, (∀ j, P s j (s j)) → turn s i e a → ∀ j, j ≠ i →
      P (Function.update s i a) j (s j))
    (h : Reaches turn s s') (hs : ∀ i, P s i (s i)) : ∀ i, P s' i (s' i) := by
  induction h with
  | refl => exact hs
  | tail _ hstep ih =>
    obtain ⟨i, e, a, hturn⟩ := hstep
    intro j
    by_cases hj : j = i
    · subst hj
      rw [Function.update_self]
      exact hself _ _ _ _ ih hturn
    · rw [Function.update_of_ne hj]
      exact hothers _ _ _ _ ih hturn j hj

theorem reaches_run {step : σ → ε → Option σ} {i : ι} {l : List ε} {a : σ}
    (hturn : Along step (fun a e ↦ ∀ a', step a e = some a' → turn (Function.update s i a) i e a') l (s i))
    (h : run step l (s i) = some a) : Reaches turn s (Function.update s i a) := by
  induction l generalizing s with
  | nil =>
    obtain rfl := Option.some.inj h
    rw [Function.update_eq_self]
    exact .refl
  | cons e l ih =>
    obtain ⟨b, hb, hrun⟩ := Option.bind_eq_some_iff.mp h
    have hfirst : Step turn s (Function.update s i b) := by
      have hs := hturn.1 b hb
      rw [Function.update_eq_self] at hs
      exact .turn i e b hs
    have hrest : Reaches turn (Function.update s i b) (Function.update (Function.update s i b) i a) := by
      refine ih ?_ ((Function.update_self i b s).symm ▸ hrun)
      rw [Function.update_self]
      refine (hturn.2 b hb).mono fun a₁ e₁ hturn₁ ↦ ?_
      rwa [Function.update_idem]
    rw [Function.update_idem] at hrest
    exact .head hfirst hrest

/-- A run with the states that it has left, the last of them first. A step may
depend on them. -/
inductive Recorded (init : (ι → σ) → Prop) (turn : List (ι → σ) → (ι → σ) → ι → ε → σ → Prop) :
    List (ι → σ) → (ι → σ) → Prop
  | init {s : ι → σ} (h : init s) : Recorded init turn [] s
  | turn {past : List (ι → σ)} {s : ι → σ} (h : Recorded init turn past s) (i : ι) (e : ε) (a : σ)
      (hturn : turn past s i e a) : Recorded init turn (s :: past) (Function.update s i a)

section Recorded

variable {init : (ι → σ) → Prop} {turn : List (ι → σ) → (ι → σ) → ι → ε → σ → Prop} {past : List (ι → σ)}
  {s : ι → σ}

/-- A property of every process that may look at all states so far. A step has to
give it to the process that takes the step; the others keep it as the record grows. -/
theorem Recorded.invariant {P : List (ι → σ) → ι → σ → Prop} (hinit : ∀ s, init s → ∀ i, P [s] i (s i))
    (hmono : ∀ l s' i a, P l i a → P (s' :: l) i a)
    (hself : ∀ past s i e a, (∀ j, P (s :: past) j (s j)) → turn past s i e a →
      P (Function.update s i a :: s :: past) i a)
    (h : Recorded init turn past s) : ∀ i, P (s :: past) i (s i) := by
  induction h with
  | init h => exact hinit _ h
  | @turn past s _ i e a hturn ih =>
    intro j
    by_cases hj : j = i
    · subst hj
      rw [Function.update_self]
      exact hself past s j e a ih hturn
    · rw [Function.update_of_ne hj]
      exact hmono _ _ _ _ (ih j)

theorem Recorded.run {step : σ → ε → Option σ} {P : σ → Prop} {i : ι} {l : List ε} {a : σ}
    (h : Recorded init turn past s)
    (hturn : Along step (fun b e ↦ P b ∧ ∀ past' b', step b e = some b' →
      turn past' (Function.update s i b) i e b') l (s i))
    (hrun : run step l (s i) = some a) :
    ∃ past', Recorded init turn past' (Function.update s i a) ∧
      ∀ s' ∈ past', s' ∈ past ∨ ∃ b, P b ∧ s' = Function.update s i b := by
  induction l generalizing s past with
  | nil =>
    obtain rfl := Option.some.inj hrun
    rw [Function.update_eq_self]
    exact ⟨past, h, fun _ ↦ .inl⟩
  | cons e l ih =>
    obtain ⟨b, hb, hrun⟩ := Option.bind_eq_some_iff.mp hrun
    obtain ⟨⟨hP, hs⟩, hrest⟩ := hturn
    have hfirst : Recorded init turn (s :: past) (Function.update s i b) := by
      have hs := hs past b hb
      rw [Function.update_eq_self] at hs
      exact h.turn i e b hs
    obtain ⟨past', hrec, hpast⟩ := ih hfirst (by
      rw [Function.update_self]
      refine (hrest b hb).mono fun b₁ e₁ hb₁ ↦ ?_
      rwa [Function.update_idem]) ((Function.update_self i b s).symm ▸ hrun)
    rw [Function.update_idem] at hrec
    refine ⟨past', hrec, fun s' hs' ↦ ?_⟩
    rcases hpast s' hs' with hs' | ⟨b', hb', rfl⟩
    · rcases List.mem_cons.mp hs' with rfl | hs'
      · exact .inr ⟨s' i, hP, (Function.update_eq_self i s').symm⟩
      · exact .inl hs'
    · exact .inr ⟨b', hb', Function.update_idem _ _ _⟩

end Recorded

end Fbaodv.Foundation.Interleaving
