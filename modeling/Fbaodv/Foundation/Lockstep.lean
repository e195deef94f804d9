import Mathlib.Data.Option.Basic
import Mathlib.Logic.Relation

/-! Two runs of one system, the second without some of the events of the first. -/

namespace Fbaodv.Foundation.Lockstep

section Rel

variable {α α' β β' : Type} {R : α → α' → Prop} {S : β → β' → Prop}

theorem rel_ite {c c' : Prop} [Decidable c] [Decidable c'] {x y : α} {x' y' : α'} (hc : c' ↔ c)
    (h : R x x') (h' : R y y') : R (if c then x else y) (if c' then x' else y') := by
  by_cases hx : c
  · rwa [if_pos hx, if_pos (hc.mpr hx)]
  · rwa [if_neg hx, if_neg fun hx' ↦ hx (hc.mp hx')]

theorem rel_bind {x : Option α} {x' : Option α'} {f : α → Option β} {f' : α' → Option β'}
    (h : Option.Rel R x x') (hf : ∀ a a', R a a' → Option.Rel S (f a) (f' a')) :
    Option.Rel S (x.bind f) (x'.bind f') := by
  cases h with
  | none => exact .none
  | some h => exact hf _ _ h

theorem rel_eq {x x' : Option α} (h : x' = x) : Option.Rel Eq x x' := by
  subst h
  cases x' with
  | none => exact .none
  | some a => exact .some rfl

theorem rel_mono {R' : α → α' → Prop} {x : Option α} {x' : Option α'} (h : Option.Rel R x x')
    (hR : ∀ a a', x = some a → R a a' → R' a a') : Option.Rel R' x x' := by
  cases h with
  | none => exact .none
  | some h => exact .some (hR _ _ rfl h)

theorem rel_some {x : Option α} {x' : Option α'} (h : Option.Rel R x x') {a : α} (ha : x = some a) :
    ∃ a', x' = some a' ∧ R a a' := by
  cases h with
  | none => cases ha
  | some h => exact ⟨_, rfl, Option.some.inj ha ▸ h⟩

end Rel

variable {σ ε : Type} {step : σ → ε → Option σ} {drops : σ → ε → Prop} [∀ s e, Decidable (drops s e)]
  {good : σ → ε → Prop}

def run (step : σ → ε → Option σ) : List ε → σ → Option σ
  | [], s => some s
  | e :: l, s => (step s e).bind (run step l)

/-- A property of the states and the events of a run. -/
def Along (step : σ → ε → Option σ) (good : σ → ε → Prop) : List ε → σ → Prop
  | [], _ => True
  | e :: l, s => good s e ∧ ∀ s', step s e = some s' → Along step good l s'

theorem Along.mono {good' : σ → ε → Prop} {l : List ε} {s : σ} (h : Along step good l s)
    (hgood : ∀ s e, good s e → good' s e) : Along step good' l s := by
  induction l generalizing s with
  | nil => trivial
  | cons e l ih => exact ⟨hgood s e h.1, fun s' hs' ↦ ih (h.2 s' hs')⟩

theorem Along.and {good' : σ → ε → Prop} {l : List ε} {s : σ} (h : Along step good l s)
    (h' : Along step good' l s) : Along step (fun s e ↦ good s e ∧ good' s e) l s := by
  induction l generalizing s with
  | nil => trivial
  | cons e l ih => exact ⟨⟨h.1, h'.1⟩, fun s' hs' ↦ ih (h.2 s' hs') (h'.2 s' hs')⟩

instance decidableAlong [∀ s e, Decidable (good s e)] :
    (l : List ε) → (s : σ) → Decidable (Along step good l s)
  | [], _ => .isTrue trivial
  | e :: l, s =>
    match hs : step s e with
    | none => decidable_of_iff (good s e) ⟨fun h ↦ ⟨h, fun s' hs' ↦ by rw [hs] at hs'; cases hs'⟩, And.left⟩
    | some s' =>
      have := decidableAlong l s'
      decidable_of_iff (good s e ∧ Along step good l s')
        ⟨fun h ↦ ⟨h.1, fun s₁ hs₁ ↦ Option.some.inj (hs.symm.trans hs₁) ▸ h.2⟩, fun h ↦ ⟨h.1, h.2 s' hs⟩⟩

theorem along_of_forall {l : List ε} (h : ∀ e ∈ l, ∀ s, good s e) (s : σ) : Along step good l s := by
  induction l generalizing s with
  | nil => trivial
  | cons e l ih =>
    exact ⟨h e List.mem_cons_self s, fun s' _ ↦ ih (fun e' he' ↦ h e' (List.mem_cons_of_mem _ he')) s'⟩

/-- The events of a run without those that are dropped. -/
def thinned (step : σ → ε → Option σ) (drops : σ → ε → Prop) [∀ s e, Decidable (drops s e)] :
    List ε → σ → List ε
  | [], _ => []
  | e :: l, s =>
    match step s e with
    | none => []
    | some s' => if drops s e then thinned step drops l s' else e :: thinned step drops l s'

/-- When the events that are kept keep two states together and those that are
dropped do not take the first away from the second, the thinned run goes
through and ends with the run. -/
theorem run_thinned {R : σ → σ → Prop}
    (hkeep : ∀ {s t e s'}, R s t → good s e → ¬ drops s e → step s e = some s' →
      ∃ t', step t e = some t' ∧ R s' t')
    (hdrop : ∀ {s t e s'}, R s t → good s e → drops s e → step s e = some s' → R s' t)
    {l : List ε} {s t s' : σ} (h : R s t) (hgood : Along step good l s)
    (hrun : run step l s = some s') :
    ∃ t', run step (thinned step drops l s) t = some t' ∧ R s' t' := by
  induction l generalizing s t with
  | nil => exact ⟨t, rfl, Option.some.inj hrun ▸ h⟩
  | cons e l ih =>
    obtain ⟨s₁, hs₁, hrun⟩ := Option.bind_eq_some_iff.mp hrun
    obtain ⟨hg, hgood⟩ := hgood
    unfold thinned
    rw [hs₁]
    dsimp only
    by_cases hd : drops s e
    · rw [if_pos hd]
      exact ih (hdrop h hg hd hs₁) (hgood s₁ hs₁) hrun
    · obtain ⟨t₁, ht₁, h₁⟩ := hkeep h hg hd hs₁
      obtain ⟨t', ht', h'⟩ := ih h₁ (hgood s₁ hs₁) hrun
      rw [if_neg hd]
      exact ⟨t', Option.bind_eq_some_iff.mpr ⟨t₁, ht₁, ht'⟩, h'⟩

end Fbaodv.Foundation.Lockstep
