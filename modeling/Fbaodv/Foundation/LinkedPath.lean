import Mathlib.Data.List.Basic
import Mathlib.Logic.Function.Basic

namespace Fbaodv.Foundation.LinkedPath

variable {α : Type}

/-- The field `f` leads from each element of the list to the following one,
and from the last to `e`. -/
def Path (f : α → Option α) : List α → Option α → Prop
  | [], _ => True
  | [a], e => f a = e
  | a :: b :: l, e => f a = some b ∧ Path f (b :: l) e

/-- The field `f` leads from each element but the first to the preceding one.
What it holds at the first is left open. -/
def BackPath (f : α → Option α) : List α → Prop
  | [] => True
  | [_] => True
  | a :: b :: l => f b = some a ∧ BackPath f (b :: l)

variable {f g : α → Option α} {a b : α} {l l₁ l₂ : List α} {e e' : Option α}

theorem path_cons : Path f (a :: l) e ↔ f a = l.head?.or e ∧ Path f l e := by
  cases l with
  | nil => simp [Path]
  | cons b l => simp [Path]

theorem backPath_cons : BackPath f (a :: l) ↔ (∀ b ∈ l.head?, f b = some a) ∧ BackPath f l := by
  cases l with
  | nil => simp [BackPath]
  | cons b l => simp [BackPath]

theorem path_append : Path f (l₁ ++ l₂) e ↔ Path f l₁ (l₂.head?.or e) ∧ Path f l₂ e := by
  induction l₁ with
  | nil => simp [Path]
  | cons a l ih =>
    rw [List.cons_append, path_cons, path_cons, ih]
    cases l with
    | nil => simp [Path]
    | cons b l => simp [and_assoc]

theorem backPath_append :
    BackPath f (l₁ ++ l₂) ↔
      BackPath f l₁ ∧ (∀ a ∈ l₁.getLast?, ∀ b ∈ l₂.head?, f b = some a) ∧ BackPath f l₂ := by
  induction l₁ with
  | nil => simp [BackPath]
  | cons a l ih =>
    rw [List.cons_append, backPath_cons, backPath_cons, ih]
    cases l with
    | nil => simp [BackPath]
    | cons b l => simp [List.getLast?_cons_cons, and_assoc]

theorem Path.congr (h : Path f l e) (hfg : ∀ a ∈ l, g a = f a) : Path g l e := by
  induction l with
  | nil => trivial
  | cons a l ih =>
    obtain ⟨ha, hl⟩ := path_cons.mp h
    refine path_cons.mpr ⟨?_, ih hl fun b hb ↦ hfg b (List.mem_cons_of_mem _ hb)⟩
    rw [hfg a List.mem_cons_self, ha]

theorem BackPath.congr (h : BackPath f l) (hfg : ∀ a ∈ l.tail, g a = f a) : BackPath g l := by
  induction l with
  | nil => trivial
  | cons a l ih =>
    obtain ⟨ha, hl⟩ := backPath_cons.mp h
    refine backPath_cons.mpr ⟨fun b hb ↦ ?_, ih hl fun b hb ↦ hfg b (List.mem_of_mem_tail hb)⟩
    rw [hfg b (List.mem_of_mem_head? hb), ha b hb]

/-- A field leads along one list only. -/
theorem Path.unique (h₁ : Path f l₁ none) (h₂ : Path f l₂ none) (hhead : l₁.head? = l₂.head?) : l₁ = l₂ := by
  induction l₁ generalizing l₂ with
  | nil => exact (List.head?_eq_none_iff.mp hhead.symm).symm
  | cons a l₁ ih =>
    cases l₂ with
    | nil => cases hhead
    | cons b l₂ =>
      obtain rfl : a = b := Option.some.inj hhead
      obtain ⟨ha, hl₁⟩ := path_cons.mp h₁
      obtain ⟨hb, hl₂⟩ := path_cons.mp h₂
      rw [Option.or_none] at ha hb
      rw [ih hl₁ hl₂ (ha.symm.trans hb)]

section Update

variable [DecidableEq α] {v : Option α}

theorem Path.update (h : Path f l e) (ha : a ∉ l) : Path (Function.update f a v) l e := by
  refine h.congr fun b hb ↦ Function.update_of_ne ?_ _ _
  rintro rfl
  exact ha hb

theorem BackPath.update (h : BackPath f l) (ha : a ∉ l.tail) :
    BackPath (Function.update f a v) l := by
  refine h.congr fun b hb ↦ Function.update_of_ne ?_ _ _
  rintro rfl
  exact ha hb

theorem Path.update_last (h : Path f (l ++ [a]) e) (ha : a ∉ l) :
    Path (Function.update f a v) (l ++ [a]) v := by
  obtain ⟨hl, -⟩ := path_append.mp h
  exact path_append.mpr ⟨hl.update ha, Function.update_self _ _ _⟩

theorem BackPath.update_head (h : BackPath f (a :: l)) (ha : a ∉ l) :
    BackPath (Function.update f a v) (a :: l) :=
  h.update ha

end Update

end Fbaodv.Foundation.LinkedPath
