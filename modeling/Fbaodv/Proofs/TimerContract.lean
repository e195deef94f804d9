import Fbaodv.Model.TimerQueue

namespace Fbaodv.Proofs.TimerContract

open Fbaodv.Foundation Fbaodv.Model OrderedList

inductive TimerOp
  | queue (new : Task)
  | delete (srcIp dstIp : Ip) (tos : UInt8) (type : TaskType)
  | signal (now : ℕ)

def TimerOp.apply (hz : ℕ) (t : TimerQueue) : TimerOp → TimerQueue
  | .queue new => { t with queue := queueTimer new t.queue }
  | .delete srcIp dstIp tos type => deleteTimer srcIp dstIp tos type t
  | .signal now => (timerQueueSignal hz now t).2

/-- One window of less than `2 ^ 31` ms holds `now` and every queued time. -/
def InWindow (q : List Task) (now : ℕ) : Prop :=
  ∃ base, WrapTime.Window ulongSize base now ∧ ∀ t ∈ q, WrapTime.Window ulongSize base t.time

def TimerOp.InWindow (q : List Task) : TimerOp → Prop
  | .queue new => TimerContract.InWindow q new.time
  | .delete _ _ _ _ => True
  | .signal now => TimerContract.InWindow q now

/-- The states reached by calls whose times and clock values stay in a window;
the window may move along the run. -/
inductive Reachable (hz : ℕ) : TimerQueue → Prop
  | init : Reachable hz initTimerQueue
  | step {t : TimerQueue} (op : TimerOp) :
      Reachable hz t → op.InWindow t.queue → Reachable hz (op.apply hz t)

/-- `q'` is `q` without its first entry that passes `p`, which is one of the
earliest that do; nothing changes when no entry passes. -/
def DeletesFirst (p : Task → Bool) (q q' : List Task) : Prop :=
  (∀ x ∈ q, p x = false) ∧ q' = q ∨
    ∃ l₁ x l₂, q = l₁ ++ x :: l₂ ∧ q' = l₁ ++ l₂ ∧ p x = true ∧
      (∀ y ∈ l₁, p y = false) ∧ ∀ y ∈ q, p y = true → x.time ≤ y.time

theorem timeBefore_iff {q : List Task} {now : ℕ} (h : InWindow q now) :
    ∀ t ∈ q, timeBefore t.time now = true ↔ t.time < now := by
  obtain ⟨base, hnow, hq⟩ := h
  exact fun t ht ↦ WrapTime.before_iff (hq t ht) hnow

theorem timeAfter_iff {q : List Task} {now : ℕ} (h : InWindow q now) :
    ∀ t ∈ q, timeAfter now t.time = true ↔ t.time < now :=
  timeBefore_iff h

theorem queueTimer_sorted {q : List Task} {new : Task} (hq : Sorted Task.time q)
    (h : InWindow q new.time) : Sorted Task.time (queueTimer new q) :=
  hq.insertBy (timeAfter_iff h)

/-- On a sorted queue the drain stops at exactly the first entry that is not
due. -/
theorem drainTimers_sorted {q : List Task} {now : ℕ} (hq : Sorted Task.time q)
    (h : InWindow q now) :
    drainTimers now q =
      (q.filter (fun t ↦ decide (t.time < now)), q.filter (fun t ↦ decide (now ≤ t.time))) := by
  have hdown : ∀ a ∈ q, ∀ b ∈ q, a.time ≤ b.time → timeBefore b.time now = true →
      timeBefore a.time now = true := by
    intro a ha b hb hab hdue
    rw [timeBefore_iff h b hb] at hdue
    rw [timeBefore_iff h a ha]
    exact hab.trans_lt hdue
  rw [drainTimers_eq, takeWhile_eq_filter hq hdown, dropWhile_eq_filter hq hdown]
  congr 1
  · apply List.filter_congr
    intro t ht
    rw [Bool.eq_iff_iff, timeBefore_iff h t ht, decide_eq_true_iff]
  · apply List.filter_congr
    intro t ht
    rw [Bool.eq_iff_iff, Bool.not_eq_true', decide_eq_true_iff, ← Bool.not_eq_true,
      timeBefore_iff h t ht, not_lt]

theorem eraseP_deletesFirst {p : Task → Bool} {q : List Task} (hq : Sorted Task.time q) :
    DeletesFirst p q (q.eraseP p) := by
  rcases List.exists_or_eq_self_of_eraseP p q with h | ⟨x, l₁, l₂, hl₁, hx, rfl, he⟩
  · refine Or.inl ⟨fun x hx ↦ ?_, h⟩
    have hlen := congrArg List.length h
    rw [List.length_eraseP] at hlen
    cases hp : p x
    · rfl
    · have hpos := List.length_pos_of_mem hx
      rw [if_pos (List.any_eq_true.mpr ⟨x, hx, hp⟩)] at hlen
      omega
  · refine Or.inr ⟨l₁, x, l₂, rfl, he, hx, fun y hy ↦ by simpa using hl₁ y hy, ?_⟩
    intro y hy hpy
    rcases List.mem_append.mp hy with hy | hy
    · exact absurd hpy (hl₁ y hy)
    · rcases List.mem_cons.mp hy with rfl | hy
      · exact le_rfl
      · exact (List.pairwise_cons.mp (List.pairwise_append.mp hq).2.1).1 y hy

theorem apply_sorted {hz : ℕ} {t : TimerQueue} (op : TimerOp) (ht : Sorted Task.time t.queue)
    (h : op.InWindow t.queue) : Sorted Task.time (op.apply hz t).queue := by
  cases op with
  | queue new => exact queueTimer_sorted ht h
  | delete srcIp dstIp tos type => exact ht.sublist List.eraseP_sublist
  | signal now =>
    simp only [TimerOp.apply, timerQueueSignal, updateTimerQueue_queue, drainTimers_eq]
    exact ht.sublist (List.dropWhile_sublist _)

theorem Reachable.sorted {hz : ℕ} {t : TimerQueue} (h : Reachable hz t) :
    Sorted Task.time t.queue := by
  induction h with
  | init => exact List.Pairwise.nil
  | step op _ hop ih => exact apply_sorted op ih hop

theorem timerQueue_contract {hz : ℕ} {t : TimerQueue} (h : Reachable hz t) :
    (t.queue.Pairwise fun a b ↦ a.time ≤ b.time) ∧
    (∀ srcIp dstIp tos type, DeletesFirst (Task.matches srcIp dstIp tos type) t.queue
      (deleteTimer srcIp dstIp tos type t).queue) ∧
    ∀ now, InWindow t.queue now →
      (timerQueueSignal hz now t).1 = t.queue.filter (fun x ↦ decide (x.time < now)) ∧
      (timerQueueSignal hz now t).2.queue = t.queue.filter (fun x ↦ decide (now ≤ x.time)) ∧
      ((timerQueueSignal hz now t).1.Pairwise fun a b ↦ a.time ≤ b.time) := by
  have hs := h.sorted
  refine ⟨hs, fun srcIp dstIp tos type ↦ eraseP_deletesFirst hs, fun now hnow ↦ ?_⟩
  have hd := drainTimers_sorted hs hnow
  have h₁ : (timerQueueSignal hz now t).1 = t.queue.filter (fun x ↦ decide (x.time < now)) := by
    rw [timerQueueSignal, hd]
  refine ⟨h₁, ?_, ?_⟩
  · rw [timerQueueSignal, updateTimerQueue_queue, hd]
  · rw [h₁]
    exact hs.sublist List.filter_sublist

/-- A run that queues a later task before an earlier one, at the contract's
own statement. -/
theorem timerQueue_contract_two :
    let a := { createTask .hello 0 with time := 2 ^ 32 + 5 }
    let b := { createTask .neighbor 0 with time := 2 ^ 32 - 3 }
    let t := (TimerOp.queue b).apply 100 ((TimerOp.queue a).apply 100 initTimerQueue)
    Reachable 100 t ∧ t.queue = [b, a] ∧ (t.queue.Pairwise fun a b ↦ a.time ≤ b.time) ∧
      (timerQueueSignal 100 (2 ^ 32) t).1 = [b] := by
  intro a b t
  have hw : ∀ x : ℕ, 2 ^ 32 - 3 ≤ x → x ≤ 2 ^ 32 + 5 →
      WrapTime.Window ulongSize (2 ^ 32 - 3) x := by
    intro x h h'
    exact ⟨h, by simp only [ulongSize]; omega⟩
  have ha : Reachable 100 ((TimerOp.queue a).apply 100 initTimerQueue) :=
    .step _ .init ⟨2 ^ 32 - 3, hw _ (by decide) (by decide), by simp [initTimerQueue]⟩
  have ht : Reachable 100 t := by
    refine .step _ ha ⟨2 ^ 32 - 3, hw _ (by decide) (by decide), fun x hx ↦ ?_⟩
    obtain rfl : x = a := by simpa [TimerOp.apply, queueTimer, insertBy, initTimerQueue] using hx
    exact hw _ (by decide) (by decide)
  have hq : t.queue = [b, a] := by decide
  obtain ⟨hsorted, -, hsignal⟩ := timerQueue_contract ht
  refine ⟨ht, hq, hsorted, ?_⟩
  have hnow : InWindow t.queue (2 ^ 32) := by
    refine ⟨2 ^ 32 - 3, hw _ (by decide) (by decide), fun x hx ↦ ?_⟩
    rw [hq] at hx
    rcases List.mem_pair.mp hx with rfl | rfl
    · exact hw _ (by decide) (by decide)
    · exact hw _ (by decide) (by decide)
  rw [(hsignal _ hnow).1, hq]
  decide

end Fbaodv.Proofs.TimerContract
