import Fbaodv.Foundation.LinkedPath
import Mathlib.Data.List.Nodup

namespace Fbaodv.Foundation.DoublyLinked

open LinkedPath

variable {α : Type}

/-- The links of a list whose head is kept apart. -/
structure Links (α : Type) where
  head : Option α
  next : α → Option α
  prev : α → Option α

/-- The links lead through the list in both directions. -/
structure Represents (q : Links α) (l : List α) : Prop where
  nodup : l.Nodup
  head : q.head = l.head?
  next : Path q.next l none
  prev : BackPath q.prev l
  first : ∀ x ∈ l.head?, q.prev x = none

/-- Take a node out: the head, the link of the node before it and that of the
node after it are redirected where they lead to it. -/
def Links.remove [DecidableEq α] (x : α) (q : Links α) : Links α :=
  let q := if q.head = some x then { q with head := q.next x } else q
  let q :=
    match q.prev x with
    | some p => { q with next := Function.update q.next p (q.next x) }
    | none => q
  match q.next x with
  | some s => { q with prev := Function.update q.prev s (q.prev x) }
  | none => q

/-- Put a node between two others, of which either may be missing. -/
def Links.insert [DecidableEq α] (before : Option α) (x : α) (after : Option α) (q : Links α) : Links α where
  head := if before.isNone then some x else q.head
  next := Function.update (before.elim q.next fun p ↦ Function.update q.next p (some x)) x after
  prev := Function.update (after.elim q.prev fun s ↦ Function.update q.prev s (some x)) x before

/-- The branches of an insertion that has walked to its place: into an empty
list, before the head, between two nodes and at the end. What a branch does not
set is taken to be null in a new node. -/
def Links.splice [DecidableEq α] (prev : Option α) (x : α) (tmp : Option α) (q : Links α) :
    Option (Links α) :=
  match q.head, tmp with
  | none, _ => some { q with head := some x }
  | some head, some p =>
    if p = head then
      some
        { head := some x
          next := Function.update q.next x (some head)
          prev := Function.update q.prev head (some x) }
    else
      prev.map fun before =>
        { head := some head
          next := Function.update (Function.update q.next x (some p)) before (some x)
          prev := Function.update (Function.update q.prev p (some x)) x (some before) }
  | some head, none =>
    prev.map fun before =>
      { head := some head
        next := Function.update (Function.update q.next x none) before (some x)
        prev := Function.update q.prev x (some before) }

variable {q : Links α} {x : α} {a b : List α}

theorem Represents.prev_eq (h : Represents q (a ++ x :: b)) : q.prev x = a.getLast? := by
  obtain ⟨-, hlink, -⟩ := backPath_append.mp h.prev
  cases ha : a.getLast? with
  | none =>
    obtain rfl := List.getLast?_eq_none_iff.mp ha
    exact h.first x rfl
  | some p => exact hlink p ha x rfl

theorem Represents.next_eq (h : Represents q (a ++ x :: b)) : q.next x = b.head? := by
  obtain ⟨-, hpath⟩ := path_append.mp h.next
  obtain ⟨hnext, -⟩ := path_cons.mp hpath
  rw [hnext, Option.or_none]

theorem Represents.head_eq (h : Represents q (a ++ x :: b)) : q.head = some x ↔ a = [] := by
  rw [h.head]
  cases a with
  | nil => simp
  | cons y a =>
    have hne : y ≠ x := by
      rintro rfl
      exact (List.nodup_cons.mp h.nodup).1 (by simp)
    simp [hne]

variable [DecidableEq α]

theorem remove_spec (h : Represents q (a ++ x :: b)) : Represents (q.remove x) (a ++ b) := by
  have hprev := h.prev_eq
  have hnext := h.next_eq
  have hhead := h.head_eq
  obtain ⟨hpa, hpx⟩ := path_append.mp h.next
  obtain ⟨hna, -, hnx⟩ := backPath_append.mp h.prev
  obtain ⟨-, hpb⟩ := path_cons.mp hpx
  obtain ⟨-, hnb⟩ := backPath_cons.mp hnx
  obtain ⟨hnda, hndx, hdis⟩ := List.nodup_append.mp h.nodup
  obtain ⟨hxb, hndb⟩ := List.nodup_cons.mp hndx
  have hnd : (a ++ b).Nodup := h.nodup.sublist ((List.sublist_cons_self x b).append_left a)
  rcases List.eq_nil_or_concat a with rfl | ⟨a, p, rfl⟩
  · have hremove : q.remove x =
        { head := b.head?
          next := q.next
          prev := (b.head?.map fun s ↦ Function.update q.prev s none).getD q.prev } := by
      cases hb : b.head? with
      | none => simp [Links.remove, hhead, hprev, hnext, hb]
      | some s => simp [Links.remove, hhead, hprev, hnext, hb]
    rw [hremove]
    cases b with
    | nil => exact ⟨List.nodup_nil, rfl, trivial, trivial, by simp⟩
    | cons s b =>
      have hsb := (List.nodup_cons.mp hndb).1
      exact ⟨hndb, rfl, hpb, hnb.update_head hsb, by simp⟩
  · rw [List.concat_eq_append] at *
    have hpx : p ≠ x := fun heq ↦ hdis p (by simp) x List.mem_cons_self heq
    have hpa' : p ∉ a := fun hp ↦ List.disjoint_of_nodup_append hnda hp (by simp)
    have hpb' : p ∉ b := fun hp ↦ hdis p (by simp) p (List.mem_cons_of_mem _ hp) rfl
    have hremove : q.remove x =
        { head := q.head
          next := Function.update q.next p b.head?
          prev := (b.head?.map fun s ↦ Function.update q.prev s (some p)).getD q.prev } := by
      have hprev : q.prev x = some p := by simpa using hprev
      have hhead : q.head ≠ some x := fun hx ↦ by simpa using hhead.mp hx
      cases hb : b.head? with
      | none => simp [Links.remove, hhead, hprev, hnext, hb, hpx.symm]
      | some s => simp [Links.remove, hhead, hprev, hnext, hb, hpx.symm]
    rw [hremove]
    have hpath : Path (Function.update q.next p b.head?) (a ++ [p] ++ b) none := by
      rw [path_append, Option.or_none]
      exact ⟨hpa.update_last hpa', hpb.update hpb'⟩
    have hq : q.head = (a ++ [p] ++ b).head? := by
      rw [h.head]
      cases a <;> simp
    have hfirst : ∀ y ∈ (a ++ [p] ++ b).head?, q.prev y = none := by
      intro y hy
      refine h.first y ?_
      cases a <;> simpa using hy
    cases b with
    | nil =>
      refine ⟨hnd, hq, hpath, ?_, hfirst⟩
      rw [List.append_nil]
      exact hna
    | cons s b =>
      have hsb := (List.nodup_cons.mp hndb).1
      have hsa : s ∉ a ++ [p] := fun hs ↦ hdis s hs s (by simp) rfl
      refine ⟨hnd, hq, hpath, ?_, fun y hy ↦ ?_⟩
      · rw [backPath_append]
        refine ⟨hna.update fun hs ↦ hsa (List.mem_of_mem_tail hs), by simp, hnb.update_head hsb⟩
      · have hys : y ≠ s := by
          rintro rfl
          refine hsa (List.mem_of_mem_head? ?_)
          cases a <;> simpa using hy
        exact (Function.update_of_ne hys _ _).trans (hfirst y hy)

/-- The links of a node outside may hold anything. -/
theorem Represents.update {v w : Option α} {l : List α} (h : Represents q l) (hx : x ∉ l) :
    Represents { q with next := Function.update q.next x v, prev := Function.update q.prev x w } l := by
  refine ⟨h.nodup, h.head, h.next.update hx, h.prev.update fun hmem ↦ hx (List.mem_of_mem_tail hmem), ?_⟩
  intro y hy
  have hne : y ≠ x := by
    rintro rfl
    exact hx (List.mem_of_mem_head? hy)
  exact (Function.update_of_ne hne _ _).trans (h.first y hy)

theorem insert_spec (h : Represents q (a ++ b)) (hx : x ∉ a ++ b) :
    Represents (q.insert a.getLast? x b.head?) (a ++ x :: b) := by
  obtain ⟨hpa, hpb⟩ := path_append.mp h.next
  obtain ⟨hna, -, hnb⟩ := backPath_append.mp h.prev
  obtain ⟨hnda, hndb, hdis⟩ := List.nodup_append.mp h.nodup
  obtain ⟨hxa, hxb⟩ := not_or.mp (List.mem_append.not.mp hx)
  refine ⟨?_, ?_, ?_, ?_, fun y hy ↦ ?_⟩
  · exact List.nodup_append.mpr ⟨hnda, List.nodup_cons.mpr ⟨hxb, hndb⟩, fun y hy z hz ↦ by
      rcases List.mem_cons.mp hz with rfl | hz
      · exact fun heq ↦ hxa (heq ▸ hy)
      · exact hdis y hy z hz⟩
  · cases a with
    | nil => rfl
    | cons y a => simpa [Links.insert] using h.head
  · rw [path_append]
    refine ⟨?_, path_cons.mpr ⟨?_, ?_⟩⟩
    · refine Path.update ?_ hxa
      rcases List.eq_nil_or_concat a with rfl | ⟨a, p, rfl⟩
      · trivial
      · rw [List.concat_eq_append] at *
        have hp : p ∉ a := fun hp ↦ List.disjoint_of_nodup_append hnda hp (by simp)
        simpa using hpa.update_last hp
    · simp [Links.insert]
    · refine Path.update ?_ hxb
      cases hp : a.getLast? with
      | none => exact hpb
      | some p =>
        have hpa' := List.mem_of_getLast? hp
        exact hpb.update fun hpb ↦ hdis p hpa' p hpb rfl
  · rw [backPath_append, backPath_cons]
    refine ⟨?_, fun p hp y hy ↦ ?_, fun s hs ↦ ?_, ?_⟩
    · refine BackPath.update ?_ fun hmem ↦ hxa (List.mem_of_mem_tail hmem)
      cases hs : b.head? with
      | none => exact hna
      | some s =>
        have hsb := List.mem_of_mem_head? hs
        exact hna.update fun hsa ↦ hdis s (List.mem_of_mem_tail hsa) s hsb rfl
    · obtain rfl := Option.some.inj hy
      simpa [Links.insert] using hp
    · have hne : s ≠ x := by
        rintro rfl
        exact hxb (List.mem_of_mem_head? hs)
      rw [Option.mem_def.mp hs]
      simp [Links.insert, hne]
    · refine BackPath.update ?_ fun hmem ↦ hxb (List.mem_of_mem_tail hmem)
      cases b with
      | nil => trivial
      | cons s b => exact hnb.update_head (List.nodup_cons.mp hndb).1
  · cases a with
    | nil =>
      obtain rfl := Option.some.inj hy
      simp [Links.insert]
    | cons z a =>
      obtain rfl := Option.some.inj hy
      have hzx : z ≠ x := fun heq ↦ hxa (heq ▸ List.mem_cons_self)
      have hz := h.first z rfl
      refine (Function.update_of_ne hzx _ _).trans ?_
      cases hs : b.head? with
      | none => exact hz
      | some s =>
        have hzs : z ≠ s := fun heq ↦ hdis z List.mem_cons_self s (List.mem_of_mem_head? hs) heq
        exact (Function.update_of_ne hzs _ _).trans hz

/-- All branches put the new node, whose links are null, between the two that
the walk has come to. -/
theorem splice_eq (h : Represents q (a ++ b)) (hx : x ∉ a ++ b) (hnext : q.next x = none)
    (hprev : q.prev x = none) :
    q.splice a.getLast? x b.head? = some (q.insert a.getLast? x b.head?) := by
  have hself : ∀ f : α → Option α, f x = none → Function.update f x none = f :=
    fun f hf => Function.update_eq_self_iff.mpr hf.symm
  rcases List.eq_nil_or_concat a with rfl | ⟨a, w, rfl⟩
  · cases b with
    | nil => simp [Links.splice, Links.insert, h.head, hself, hnext, hprev]
    | cons z b =>
      have hxz : x ≠ z := fun heq => hx (by simp [heq])
      have hprev' : Function.update q.prev z (some x) x = none :=
        (Function.update_of_ne hxz _ _).trans hprev
      simp [Links.splice, Links.insert, h.head, hself _ hprev']
  · rw [List.concat_eq_append] at *
    have hxw : x ≠ w := fun heq => hx (by simp [heq])
    obtain ⟨v, hv⟩ : ∃ v, (a ++ [w] ++ b).head? = some v := by
      cases a with
      | nil => exact ⟨w, rfl⟩
      | cons y a => exact ⟨y, rfl⟩
    have hhead : q.head = some v := by rw [h.head, hv]
    cases b with
    | nil => simp [Links.splice, Links.insert, hhead, Function.update_comm hxw]
    | cons z b =>
      have hzv : z ≠ v := by
        intro heq
        have hva : v ∈ a ++ [w] := by
          cases a with
          | nil => simpa [eq_comm] using hv
          | cons y a => simpa [eq_comm] using Or.inl (Option.some.inj hv)
        obtain ⟨-, -, hdis⟩ := List.nodup_append.mp h.nodup
        exact hdis v hva z List.mem_cons_self heq.symm
      simp [Links.splice, Links.insert, hhead, hzv, Function.update_comm hxw]

end Fbaodv.Foundation.DoublyLinked
