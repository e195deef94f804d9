import Mathlib.Data.List.TakeWhile
import Mathlib.Data.List.Basic
import Mathlib.Order.Basic
import Mathlib.Order.Defs.LinearOrder
import Mathlib.Data.List.Find

namespace Fbaodv.Foundation.OrderedList

variable {α κ : Type}

/-- Walk past the elements that must precede `x` and link it in there. -/
def insertBy (past : α → Bool) (x : α) : List α → List α
  | [] => [x]
  | y :: l => if past y then y :: insertBy past x l else x :: y :: l

/-- Walk while the elements may still be followed by a hit, and return the
first hit on the way. -/
def findWhile (go hit : α → Bool) : List α → Option α
  | [] => none
  | y :: l => if go y then (if hit y then some y else findWhile go hit l) else none

/-- Change the first element that passes the test. -/
def modifyFirst (p : α → Bool) (f : α → α) : List α → List α
  | [] => []
  | x :: l => if p x then f x :: l else x :: modifyFirst p f l

/-- Skip the elements below the key, then search the run that has the key. -/
def findRun (below same hit : α → Bool) (l : List α) : Option α :=
  ((l.dropWhile below).takeWhile same).find? hit

theorem mem_modifyFirst {p : α → Bool} {f : α → α} {l : List α} {x : α}
    (h : x ∈ modifyFirst p f l) : x ∈ l ∨ ∃ y ∈ l, p y = true ∧ x = f y := by
  induction l with
  | nil => cases h
  | cons y l ih =>
    simp only [modifyFirst] at h
    split at h
    · next hy =>
      rcases List.mem_cons.mp h with rfl | h
      · exact Or.inr ⟨y, List.mem_cons_self, hy, rfl⟩
      · exact Or.inl (List.mem_cons_of_mem _ h)
    · rcases List.mem_cons.mp h with rfl | h
      · exact Or.inl List.mem_cons_self
      · rcases ih h with h | ⟨z, hz, hpz, rfl⟩
        · exact Or.inl (List.mem_cons_of_mem _ h)
        · exact Or.inr ⟨z, List.mem_cons_of_mem _ hz, hpz, rfl⟩

theorem mem_modifyFirst_of_neg {p : α → Bool} {f : α → α} {l : List α} {x : α} (hx : x ∈ l)
    (hp : p x = false) : x ∈ modifyFirst p f l := by
  induction l with
  | nil => cases hx
  | cons y l ih =>
    simp only [modifyFirst]
    split
    · next hy =>
      refine List.mem_cons_of_mem _ ((List.mem_cons.mp hx).resolve_left ?_)
      rintro rfl
      rw [hp] at hy
      cases hy
    · rcases List.mem_cons.mp hx with rfl | hx
      · exact List.mem_cons_self
      · exact List.mem_cons_of_mem _ (ih hx)

theorem map_modifyFirst {β : Type} {g : α → β} {f : α → α} (h : ∀ x, g (f x) = g x)
    (p : α → Bool) (l : List α) : (modifyFirst p f l).map g = l.map g := by
  induction l with
  | nil => rfl
  | cons x l ih =>
    simp only [modifyFirst]
    split
    · simp only [List.map_cons, h]
    · simp only [List.map_cons, ih]

theorem find?_modifyFirst {p : α → Bool} {f : α → α} (hf : ∀ x, p (f x) = p x) (l : List α) :
    (modifyFirst p f l).find? p = (l.find? p).map f := by
  induction l with
  | nil => rfl
  | cons x l ih =>
    by_cases hx : p x = true
    · simp only [modifyFirst, hx, if_true, List.find?_cons, hf, Option.map_some]
    · simp only [modifyFirst, hx, if_false, List.find?_cons, Bool.false_eq_true]
      exact ih

theorem find?_modifyFirst_of_neg {p q : α → Bool} {f : α → α}
    (hq : ∀ x, p x = true → q x = false ∧ q (f x) = false) (l : List α) :
    (modifyFirst p f l).find? q = l.find? q := by
  induction l with
  | nil => rfl
  | cons x l ih =>
    by_cases hx : p x = true
    · simp only [modifyFirst, hx, if_true, List.find?_cons, hq x hx]
    · simp only [modifyFirst, hx, if_false, List.find?_cons, Bool.false_eq_true]
      rw [ih]

/-- Where at most one element passes the test, the first is every. -/
theorem modifyFirst_eq_map {p : α → Bool} {l : List α} (f : α → α)
    (hl : l.Pairwise fun a b ↦ p a = true → p b = false) :
    modifyFirst p f l = l.map fun x ↦ if p x then f x else x := by
  induction l with
  | nil => rfl
  | cons x l ih =>
    obtain ⟨hx, hl⟩ := List.pairwise_cons.mp hl
    simp only [modifyFirst, List.map_cons]
    split
    · next hp =>
      have hsame : l.map (fun y ↦ if p y then f y else y) = l :=
        (List.map_congr_left fun y hy ↦ by simp [hx y hy hp]).trans (List.map_id l)
      rw [hsame]
    · rw [ih hl]

theorem eraseP_eq_filter {p : α → Bool} {l : List α}
    (hl : l.Pairwise fun a b ↦ p a = true → p b = false) : l.eraseP p = l.filter fun x ↦ !p x := by
  induction l with
  | nil => rfl
  | cons x l ih =>
    obtain ⟨hx, hl⟩ := List.pairwise_cons.mp hl
    cases hp : p x
    · rw [List.eraseP_cons_of_neg (by simp [hp]), List.filter_cons_of_pos (by simp [hp]), ih hl]
    · rw [List.eraseP_cons_of_pos hp, List.filter_cons_of_neg (by simp [hp])]
      exact (List.filter_eq_self.mpr fun y hy ↦ by simp [hx y hy hp]).symm

theorem insertBy_eq (past : α → Bool) (x : α) (l : List α) :
    insertBy past x l = l.takeWhile past ++ x :: l.dropWhile past := by
  induction l with
  | nil => rfl
  | cons y l ih => cases h : past y <;> simp [insertBy, h, ih]

@[simp]
theorem mem_insertBy {past : α → Bool} {x y : α} {l : List α} :
    y ∈ insertBy past x l ↔ y = x ∨ y ∈ l := by
  induction l with
  | nil => simp [insertBy]
  | cons z l ih =>
    cases h : past z
    · simp [insertBy, h]
    · simp only [insertBy, h, if_true, List.mem_cons, ih]
      exact or_left_comm

theorem insertBy_perm (past : α → Bool) (x : α) (l : List α) :
    (insertBy past x l).Perm (x :: l) := by
  rw [insertBy_eq]
  refine List.perm_middle.trans ?_
  rw [List.takeWhile_append_dropWhile]

theorem filter_insertBy_of_neg {past q : α → Bool} {x : α} (hx : q x = false) (l : List α) :
    (insertBy past x l).filter q = l.filter q := by
  rw [insertBy_eq, List.filter_append, List.filter_cons_of_neg (by simp [hx]), ← List.filter_append,
    List.takeWhile_append_dropWhile]

theorem filter_eraseP_of_neg {p q : α → Bool} (h : ∀ x, p x = true → q x = false) (l : List α) :
    (l.eraseP p).filter q = l.filter q := by
  induction l with
  | nil => rfl
  | cons x l ih =>
    cases hp : p x
    · rw [List.eraseP_cons_of_neg (by simp [hp]), List.filter_cons, List.filter_cons, ih]
    · rw [List.eraseP_cons_of_pos hp, List.filter_cons_of_neg (by simp [h x hp])]

theorem findWhile_mem {go hit : α → Bool} {l : List α} {x : α}
    (h : findWhile go hit l = some x) : x ∈ l ∧ hit x = true := by
  induction l with
  | nil => simp [findWhile] at h
  | cons y l ih =>
    simp only [findWhile] at h
    split at h
    · split at h
      · next hy => obtain rfl := Option.some.inj h; exact ⟨List.mem_cons_self, hy⟩
      · exact ⟨List.mem_cons_of_mem _ (ih h).1, (ih h).2⟩
    · cases h

theorem findWhile_modifyFirst {go hit : α → Bool} {f : α → α} (hgo : ∀ x, go (f x) = go x)
    (hhit : ∀ x, hit (f x) = hit x) (l : List α) :
    findWhile go hit (modifyFirst hit f l) = (findWhile go hit l).map f := by
  induction l with
  | nil => rfl
  | cons y l ih => cases hy : hit y <;> cases hgy : go y <;> simp [modifyFirst, findWhile, *]

theorem findWhile_modifyFirst_of_neg {go hit p : α → Bool} {f : α → α} (hgo : ∀ x, go (f x) = go x)
    (hhit : ∀ x, hit (f x) = hit x) (hp : ∀ x, p x = true → hit x = false) (l : List α) :
    findWhile go hit (modifyFirst p f l) = findWhile go hit l := by
  induction l with
  | nil => rfl
  | cons y l ih =>
    cases hy : p y
    · simp [modifyFirst, findWhile, hy, ih]
    · simp [modifyFirst, findWhile, hy, hgo, hhit, hp y hy]

theorem findWhile_insertBy {past go hit : α → Bool} {x : α} (hpast : ∀ y, past y = true →
    go y = true ∧ hit y = false) (hgo : go x = true) (hhit : hit x = true) (l : List α) :
    findWhile go hit (insertBy past x l) = some x := by
  induction l with
  | nil => simp [insertBy, findWhile, hgo, hhit]
  | cons y l ih =>
    cases hy : past y
    · simp [insertBy, findWhile, hy, hgo, hhit]
    · simp [insertBy, findWhile, hy, hpast y hy, ih]

theorem findRun_mem {below same hit : α → Bool} {l : List α} {x : α}
    (h : findRun below same hit l = some x) : x ∈ l ∧ same x = true ∧ hit x = true :=
  have hx := List.mem_of_find?_eq_some h
  ⟨(l.dropWhile_subset below) (List.takeWhile_subset _ hx), List.mem_takeWhile_imp hx,
    List.find?_some h⟩

theorem filter_eraseP (p : α → Bool) (l : List α) : (l.eraseP p).filter p = (l.filter p).tail := by
  induction l with
  | nil => rfl
  | cons a l ih =>
    cases h : p a
    · rw [List.eraseP_cons_of_neg (by simp [h]), List.filter_cons_of_neg (by simp [h]),
        List.filter_cons_of_neg (by simp [h]), ih]
    · rw [List.eraseP_cons_of_pos h, List.filter_cons_of_pos h, List.tail_cons]

theorem countP_eraseP (p : α → Bool) (l : List α) : (l.eraseP p).countP p = l.countP p - 1 := by
  rw [List.countP_eq_length_filter, List.countP_eq_length_filter, filter_eraseP, List.length_tail]

theorem eraseP_congr {p q : α → Bool} {l : List α} (h : ∀ x ∈ l, p x = q x) : l.eraseP p = l.eraseP q := by
  induction l with
  | nil => rfl
  | cons x l ih =>
    have hx : p x = q x := h x List.mem_cons_self
    have hrest : l.eraseP p = l.eraseP q := ih fun y hy ↦ h y (List.mem_cons_of_mem _ hy)
    cases hp : p x with
    | true => rw [List.eraseP_cons_of_pos hp, List.eraseP_cons_of_pos (hx ▸ hp)]
    | false =>
      rw [List.eraseP_cons_of_neg (by simp [hp]), List.eraseP_cons_of_neg (by simp [← hx, hp]), hrest]

theorem perm_cons_eraseP {p : α → Bool} {l : List α} {x : α} (h : l.find? p = some x) :
    (x :: l.eraseP p).Perm l := by
  obtain ⟨hx, before, after, rfl, hbefore⟩ := List.find?_eq_some_iff_append.mp h
  rw [List.eraseP_append_right _ (by simpa using hbefore), List.eraseP_cons_of_pos hx]
  exact List.perm_middle.symm

theorem findRun_map {β : Type} (f : α → β) (below same hit : β → Bool) (l : List α) :
    (findRun (below ∘ f) (same ∘ f) (hit ∘ f) l).map f = findRun below same hit (l.map f) := by
  rw [findRun, findRun, List.dropWhile_map, List.takeWhile_map, List.find?_map]

/-- The first hit of the run is the first hit of the list when nothing below
could be in the run. -/
theorem find?_of_findRun {below same hit : α → Bool} {l : List α} {x : α}
    (hbelow : ∀ a, below a = true → same a = false) (h : findRun below same hit l = some x) :
    l.find? (fun a ↦ same a && hit a) = some x := by
  have hskip : (l.takeWhile below).find? (fun a ↦ same a && hit a) = none :=
    List.find?_eq_none.mpr fun a ha ↦ by simp [hbelow a (List.mem_takeWhile_imp ha)]
  have hrun : ((l.dropWhile below).takeWhile same).find? (fun a ↦ same a && hit a) = some x := by
    rw [← h, findRun]
    refine List.find?_congr fun a ha ↦ ?_
    simp [List.mem_takeWhile_imp ha]
  rw [← List.takeWhile_append_dropWhile (p := below) (l := l), List.find?_append, hskip,
    Option.none_or, ← List.takeWhile_append_dropWhile (p := same) (l := l.dropWhile below),
    List.find?_append, hrun, Option.some_or]

section Sorted

variable {r : α → α → Prop}

/-- A prefix cut by a downward closed test is everything that passes it. -/
theorem takeWhile_eq_filter {p : α → Bool} {l : List α} (hl : l.Pairwise r)
    (hp : ∀ a ∈ l, ∀ b ∈ l, r a b → p b = true → p a = true) : l.takeWhile p = l.filter p := by
  induction l with
  | nil => rfl
  | cons a l ih =>
    obtain ⟨ha, hl⟩ := List.pairwise_cons.mp hl
    cases hpa : p a
    · have hnone : ∀ b ∈ l, ¬ p b = true := fun b hb hpb ↦ by
        have := hp a List.mem_cons_self b (List.mem_cons_of_mem _ hb) (ha b hb) hpb
        simp [hpa] at this
      simp only [List.takeWhile_cons, hpa, List.filter_cons]
      exact (List.filter_eq_nil_iff.mpr hnone).symm
    · simp only [List.takeWhile_cons, hpa, List.filter_cons, if_true]
      rw [ih hl fun a ha b hb ↦ hp a (List.mem_cons_of_mem _ ha) b (List.mem_cons_of_mem _ hb)]

theorem dropWhile_eq_filter {p : α → Bool} {l : List α} (hl : l.Pairwise r)
    (hp : ∀ a ∈ l, ∀ b ∈ l, r a b → p b = true → p a = true) :
    l.dropWhile p = l.filter (fun a ↦ !p a) := by
  induction l with
  | nil => rfl
  | cons a l ih =>
    obtain ⟨ha, hl⟩ := List.pairwise_cons.mp hl
    cases hpa : p a
    · have hall : ∀ b ∈ l, (!p b) = true := fun b hb ↦ by
        cases hpb : p b
        · rfl
        · have := hp a List.mem_cons_self b (List.mem_cons_of_mem _ hb) (ha b hb) hpb
          simp [hpa] at this
      simp only [List.dropWhile_cons, hpa, List.filter_cons]
      simp [List.filter_eq_self.mpr hall]
    · simp only [List.dropWhile_cons, hpa, List.filter_cons, if_true]
      rw [ih hl fun a ha b hb ↦ hp a (List.mem_cons_of_mem _ ha) b (List.mem_cons_of_mem _ hb)]
      simp

/-- Insertion keeps any transitive order that the walk respects. -/
theorem insertBy_pairwise {past : α → Bool} {x : α} {l : List α} (hl : l.Pairwise r)
    (htrans : ∀ b ∈ l, ∀ c ∈ l, r x b → r b c → r x c)
    (hpast : ∀ b ∈ l, past b = true → r b x) (hstop : ∀ b ∈ l, past b = false → r x b) :
    (insertBy past x l).Pairwise r := by
  induction l with
  | nil => simp [insertBy]
  | cons y l ih =>
    obtain ⟨hy, hl'⟩ := List.pairwise_cons.mp hl
    cases h : past y
    · simp only [insertBy, h, Bool.false_eq_true, if_false]
      refine List.pairwise_cons.mpr ⟨fun b hb ↦ ?_, hl⟩
      have hxy := hstop y List.mem_cons_self h
      rcases List.mem_cons.mp hb with rfl | hb
      · exact hxy
      · exact htrans y List.mem_cons_self b (List.mem_cons_of_mem _ hb) hxy (hy b hb)
    · simp only [insertBy, h, if_true]
      refine List.pairwise_cons.mpr ⟨fun b hb ↦ ?_, ih hl' ?_ ?_ ?_⟩
      · rcases mem_insertBy.mp hb with rfl | hb
        · exact hpast y List.mem_cons_self h
        · exact hy b hb
      · exact fun b hb c hc ↦ htrans b (List.mem_cons_of_mem _ hb) c (List.mem_cons_of_mem _ hc)
      · exact fun b hb ↦ hpast b (List.mem_cons_of_mem _ hb)
      · exact fun b hb ↦ hstop b (List.mem_cons_of_mem _ hb)

end Sorted

section Keyed

variable [LinearOrder κ] (key : α → κ)

/-- The elements stand in non-decreasing order of their keys. -/
def Sorted (l : List α) : Prop := l.Pairwise fun a b ↦ key a ≤ key b

variable {key}

theorem Sorted.insertBy {past : α → Bool} {x : α} {l : List α} (hl : Sorted key l)
    (hpast : ∀ b ∈ l, past b = true ↔ key b < key x) :
    Sorted key (insertBy past x l) := by
  refine insertBy_pairwise hl (fun _ _ _ _ ↦ le_trans) ?_ ?_
  · exact fun b hb h ↦ ((hpast b hb).mp h).le
  · intro b hb h
    refine le_of_not_gt fun hlt ↦ ?_
    rw [(hpast b hb).mpr hlt] at h
    cases h

theorem Sorted.sublist {l l' : List α} (hl : Sorted key l) (h : l'.Sublist l) : Sorted key l' :=
  List.Pairwise.sublist h hl

/-- On a sorted list the search that stops beyond the key misses nothing. -/
theorem findRun_eq_find? {below same hit : α → Bool} {k : κ} {l : List α} (hl : Sorted key l)
    (hb : ∀ a, below a = true ↔ key a < k) (hs : ∀ a, same a = true ↔ key a = k) :
    findRun below same hit l = l.find? fun a ↦ same a && hit a := by
  have hdown : ∀ a ∈ l, ∀ b ∈ l, key a ≤ key b → below b = true → below a = true :=
    fun a _ b _ hab h ↦ (hb a).mpr (hab.trans_lt ((hb b).mp h))
  have hrun : ∀ a ∈ l.filter (fun a ↦ !below a), ∀ b ∈ l.filter (fun a ↦ !below a),
      key a ≤ key b → same b = true → same a = true := by
    intro a ha b _ hab h
    have hka : ¬ key a < k := fun hlt ↦ by
      have := (List.mem_filter.mp ha).2
      simp [(hb a).mpr hlt] at this
    exact (hs a).mpr (le_antisymm (hab.trans ((hs b).mp h).le) (not_lt.mp hka))
  rw [findRun, dropWhile_eq_filter hl hdown,
    takeWhile_eq_filter (hl.sublist List.filter_sublist) hrun, List.find?_filter, List.find?_filter]
  congr 1
  funext a
  cases h : same a
  · simp
  · have hnb : below a = false := by
      cases hba : below a
      · rfl
      · exact absurd ((hb a).mp hba) (by simp [(hs a).mp h])
    simp [hnb]

/-- Beyond the elements below a key stands first the run that has it. -/
theorem Sorted.dropWhile_eq {below same : α → Bool} {k : κ} {l : List α} (hl : Sorted key l)
    (hb : ∀ a, below a = true ↔ key a < k) (hs : ∀ a, same a = true ↔ key a = k) :
    l.dropWhile below = l.filter same ++ l.filter fun a ↦ !below a && !same a := by
  have hbeyond : l.dropWhile below = l.filter fun a ↦ !below a :=
    dropWhile_eq_filter hl fun a _ b _ hab h ↦ (hb a).mpr (hab.trans_lt ((hb b).mp h))
  have hdown : ∀ a ∈ l.filter (fun a ↦ !below a), ∀ b ∈ l.filter (fun a ↦ !below a),
      key a ≤ key b → same b = true → same a = true := by
    intro a ha b _ hab h
    have hge : ¬ key a < k := fun hlt ↦ by simpa [(hb a).mpr hlt] using (List.mem_filter.mp ha).2
    exact (hs a).mpr (le_antisymm (hab.trans ((hs b).mp h).le) (not_lt.mp hge))
  have hsorted : Sorted key (l.filter fun a ↦ !below a) := hl.sublist List.filter_sublist
  have hsame : (l.filter fun a ↦ !below a && same a) = l.filter same := by
    refine List.filter_congr fun a _ ↦ ?_
    cases h : same a
    · rw [Bool.and_false]
    · have hnot : ¬ below a = true := fun hlt ↦ ((hb a).mp hlt).ne ((hs a).mp h)
      simp [hnot]
  rw [hbeyond, ← List.takeWhile_append_dropWhile (p := same) (l := l.filter fun a ↦ !below a),
    takeWhile_eq_filter hsorted hdown, dropWhile_eq_filter hsorted hdown, List.filter_filter,
    List.filter_filter]
  congr 1
  · rw [← hsame]
    exact List.filter_congr fun a _ ↦ Bool.and_comm _ _
  · exact List.filter_congr fun a _ ↦ Bool.and_comm _ _

/-- A sorted list is what is below a key, the run that has it, and the rest. -/
theorem Sorted.eq_runs {below same : α → Bool} {k : κ} {l : List α} (hl : Sorted key l)
    (hb : ∀ a, below a = true ↔ key a < k) (hs : ∀ a, same a = true ↔ key a = k) :
    l.filter below ++ (l.filter same ++ l.filter fun a ↦ !below a && !same a) = l := by
  rw [← hl.dropWhile_eq hb hs, ← takeWhile_eq_filter hl
    fun a _ b _ hab h ↦ (hb a).mpr (hab.trans_lt ((hb b).mp h))]
  exact List.takeWhile_append_dropWhile

/-- The search that walks up to the key misses nothing either. -/
theorem findWhile_eq_find? {go hit : α → Bool} {k : κ} {l : List α} (hl : Sorted key l)
    (hgo : ∀ a, go a = true ↔ key a ≤ k) (hhit : ∀ a, hit a = true → key a = k) :
    findWhile go hit l = l.find? hit := by
  induction l with
  | nil => rfl
  | cons y l ih =>
    obtain ⟨hy, hl⟩ := List.pairwise_cons.mp hl
    cases hgoy : go y
    · have hlt : k < key y := not_le.mp fun hle ↦ by simp [(hgo y).mpr hle] at hgoy
      have hnone : ∀ b ∈ y :: l, ¬ hit b = true := by
        intro b hb hb'
        rcases List.mem_cons.mp hb with rfl | hb
        · exact hlt.ne' (hhit b hb')
        · exact (hlt.trans_le (hy b hb)).ne' (hhit b hb')
      simp only [findWhile, hgoy, Bool.false_eq_true, if_false]
      exact (List.find?_eq_none.mpr hnone).symm
    · cases hhity : hit y
      · simp only [findWhile, hgoy, hhity, if_true, Bool.false_eq_true, if_false, ih hl]
        rw [List.find?_cons_of_neg (by simp [hhity])]
      · simp only [findWhile, hgoy, hhity, if_true]
        rw [List.find?_cons_of_pos hhity]

variable (key) in
/-- The elements stand in increasing order of their keys. -/
def StrictSorted (l : List α) : Prop := l.Pairwise fun a b ↦ key a < key b

theorem StrictSorted.sorted {l : List α} (hl : StrictSorted key l) : Sorted key l :=
  hl.imp fun h ↦ h.le

theorem StrictSorted.sublist {l l' : List α} (hl : StrictSorted key l) (h : l'.Sublist l) :
    StrictSorted key l' :=
  List.Pairwise.sublist h hl

/-- The order is a matter of the keys alone. -/
theorem StrictSorted.of_map {g : α → κ} {l l' : List α} (hl : StrictSorted g l)
    (h : l'.map g = l.map g) : StrictSorted g l' := by
  have hmap : (l.map g).Pairwise (· < ·) := List.pairwise_map.mpr hl
  exact List.pairwise_map.mp (h ▸ hmap)

theorem StrictSorted.insertBy {past : α → Bool} {x : α} {l : List α} (hl : StrictSorted key l)
    (hpast : ∀ b ∈ l, past b = true ↔ key b < key x) (hnew : ∀ b ∈ l, key b ≠ key x) :
    StrictSorted key (insertBy past x l) := by
  refine insertBy_pairwise hl (fun _ _ _ _ ↦ lt_trans) ?_ ?_
  · exact fun b hb h ↦ (hpast b hb).mp h
  · intro b hb h
    have hle : key x ≤ key b := not_lt.mp fun hlt ↦ by simp [(hpast b hb).mpr hlt] at h
    exact lt_of_le_of_ne hle (hnew b hb).symm

theorem StrictSorted.eq_of_key {l : List α} (hl : StrictSorted key l) {a b : α} (ha : a ∈ l)
    (hb : b ∈ l) (h : key a = key b) : a = b := by
  induction l with
  | nil => cases ha
  | cons y l ih =>
    obtain ⟨hy, hl⟩ := List.pairwise_cons.mp hl
    rcases List.mem_cons.mp ha with rfl | ha' <;> rcases List.mem_cons.mp hb with rfl | hb'
    · rfl
    · exact absurd h (hy b hb').ne
    · exact absurd h (hy a ha').ne'
    · exact ih hl ha' hb'

/-- A search for a key finds exactly the one element that has it. -/
theorem StrictSorted.findWhile_eq_some {go hit : α → Bool} {k : κ} {l : List α}
    (hl : StrictSorted key l) (hgo : ∀ a, go a = true ↔ key a ≤ k)
    (hhit : ∀ a, hit a = true ↔ key a = k) {a : α} :
    findWhile go hit l = some a ↔ a ∈ l ∧ key a = k := by
  rw [findWhile_eq_find? hl.sorted hgo fun a ↦ (hhit a).mp]
  constructor
  · exact fun h ↦ ⟨List.mem_of_find?_eq_some h, (hhit a).mp (List.find?_some h)⟩
  · rintro ⟨ha, hk⟩
    obtain ⟨b, hb⟩ : ∃ b, l.find? hit = some b :=
      Option.isSome_iff_exists.mp (List.find?_isSome.mpr ⟨a, ha, (hhit a).mpr hk⟩)
    have hkb : key b = k := (hhit b).mp (List.find?_some hb)
    rwa [← hl.eq_of_key (List.mem_of_find?_eq_some hb) ha (hkb.trans hk.symm)]

/-- Once the element with a key is unlinked, no element has the key. -/
theorem StrictSorted.key_ne_of_mem_eraseP {p : α → Bool} {k : κ} {l : List α}
    (hl : StrictSorted key l) (hp : ∀ a, p a = true ↔ key a = k) {b : α} (hb : b ∈ l.eraseP p) :
    key b ≠ k := by
  induction l with
  | nil => cases hb
  | cons y l ih =>
    obtain ⟨hy, hl⟩ := List.pairwise_cons.mp hl
    cases hpy : p y
    · rw [List.eraseP_cons_of_neg (by simp [hpy])] at hb
      rcases List.mem_cons.mp hb with rfl | hb
      · exact fun hk ↦ by simp [(hp b).mpr hk] at hpy
      · exact ih hl hb
    · rw [List.eraseP_cons_of_pos hpy] at hb
      exact (hp y).mp hpy ▸ (hy b hb).ne'

/-- Where the walk stops is where an element with the key would be. -/
theorem Sorted.key_ne_of_head? {past same : α → Bool} {k : κ} {l : List α} (hl : Sorted key l)
    (hpast : ∀ a, past a = true ↔ key a < k) (hsame : ∀ a, same a = true ↔ key a = k)
    (h : (l.dropWhile past).head?.any same = false) {b : α} (hb : b ∈ l) : key b ≠ k := by
  induction l with
  | nil => cases hb
  | cons y l ih =>
    obtain ⟨hy, hl⟩ := List.pairwise_cons.mp hl
    cases hpy : past y
    · rw [List.dropWhile_cons_of_neg (by simp [hpy])] at h
      have hle : k ≤ key y := not_lt.mp fun hlt ↦ by simp [(hpast y).mpr hlt] at hpy
      have hne : key y ≠ k := fun hk ↦ by simp [(hsame y).mpr hk] at h
      have hlt : k < key y := lt_of_le_of_ne hle hne.symm
      rcases List.mem_cons.mp hb with rfl | hb
      · exact hne
      · exact (hlt.trans_le (hy b hb)).ne'
    · rw [List.dropWhile_cons_of_pos hpy] at h
      rcases List.mem_cons.mp hb with rfl | hb
      · exact ((hpast b).mp hpy).ne
      · exact ih hl h hb

end Keyed

end Fbaodv.Foundation.OrderedList
