import Fbaodv.Proofs.TimerTurns
import Fbaodv.Proofs.SilentNeighs
import Fbaodv.Foundation.Alarm

namespace Fbaodv.Proofs.TimerCover

open Fbaodv.Model Fbaodv.Model.Node Fbaodv.Foundation OrderedList
open Fbaodv.Proofs.PacketDiscovery Fbaodv.Proofs.NodeRun Fbaodv.Proofs.NeighLoss
open Fbaodv.Proofs.NeighTables (helloFrom)
open Fbaodv.Proofs.SilentNeighs (wcimNode)
open Fbaodv.Proofs.TimerTurns Relation

/-- The kernel timer expires no later than one jiffy after the time, or within
one jiffy of its setting when the time had passed by then. Both sides count
thousandths of a jiffy. -/
def Expires (hz : ℕ) (p : Pending) (time : ℕ) : Prop :=
  p.jiffies * 1000 ≤ (time - p.base) * hz + 1000

/-- If the timer queue is not empty, the kernel timer is pending for its head. -/
def Covered (n : Node) : Prop :=
  Alarm.Guards Task.time (Expires n.cfg.hz) n.timers.aodvTimer n.timers.queue

/-- `HZ` is such that rounding milliseconds to jiffies adds no more than one
jiffy. -/
structure Rounds (hz : ℕ) : Prop where
  pos : 0 < hz
  small : hz ≤ 1000000
  round : ∀ ms < 1000, (ms * 1000 + 1000000 / hz - 1) / (1000000 / hz) * 1000 ≤ ms * hz + 1000

/-- The times around which the comparisons of 32 bits are exact. -/
def Fits (now time : ℕ) : Prop := time ≤ now + horizon ∧ now + horizon < time + 2 ^ 31

section Delays

variable {hz now time time' : ℕ}

theorem horizon_eq : horizon = 180100 := by decide

/-- The frequencies that kernels are configured with. -/
theorem rounds_usual (h : hz ∈ [100, 128, 200, 250, 300, 500, 1000]) : Rounds hz := by
  simp only [List.mem_cons, List.not_mem_nil, or_false] at h
  rcases h with rfl | rfl | rfl | rfl | rfl | rfl | rfl
  all_goals
    refine ⟨by decide, by decide, ?_⟩
    intro ms hms
    omega

theorem expires_lasting (hz : ℕ) : Alarm.Lasting (Expires hz) := by
  intro p s t hst h
  have hle := Nat.mul_le_mul_right hz (Nat.sub_le_sub_right hst p.base)
  unfold Expires at h ⊢
  omega

theorem Fits.window (h : Fits now time) : WrapTime.Window ulongSize (now + horizon + 1 - 2 ^ 31) time := by
  obtain ⟨hnear, hdue⟩ := h
  unfold WrapTime.Window ulongSize
  omega

theorem fits_now (now : ℕ) : Fits now now := by
  have hhorizon := horizon_eq
  unfold Fits
  omega

theorem fits_later (h : time' ≤ horizon) : Fits now (now + time') := by
  have hhorizon := horizon_eq
  unfold Fits
  omega

theorem timeBefore_iff_lt (h : Fits now time) (h' : Fits now time') :
    timeBefore time time' = true ↔ time < time' := WrapTime.before_iff h.window h'.window

theorem tvtojiffies_eq (hr : Rounds hz) {sec usec : ℕ} (hsec : sec ≤ 180) (husec : usec ≤ 999000) :
    tvtojiffies hz sec usec = hz * sec + (usec + 1000000 / hz - 1) / (1000000 / hz) := by
  have hsmall := hr.small
  have hmul : hz * sec ≤ 1000000 * 180 := Nat.mul_le_mul hsmall hsec
  have htick : 1000000 / hz ≤ 1000000 := Nat.div_le_self _ _
  have hround : (usec + 1000000 / hz - 1) / (1000000 / hz) ≤ usec + 1000000 / hz - 1 := Nat.div_le_self _ _
  have hno : ¬ (ulongSize - 1) / hz < sec := by
    rw [not_lt, Nat.le_div_iff_mul_le hr.pos, Nat.mul_comm]
    unfold ulongSize
    omega
  unfold tvtojiffies
  rw [if_neg hno, Nat.mod_eq_of_lt]
  unfold ulongSize
  omega

theorem headDelay_expires (hr : Rounds hz) (h : Fits now time) : Expires hz ⟨now, headDelay hz now time⟩ time := by
  have hbefore := timeBefore_iff_lt h (fits_now now)
  unfold Expires headDelay
  split
  · -- the time has passed, and the timer is set to one microsecond
    have htick : 0 < 1000000 / hz := Nat.div_pos hr.small hr.pos
    have hone : tvtojiffies hz 0 1 = 1 := by
      rw [tvtojiffies_eq hr (Nat.zero_le _) (by decide), Nat.mul_zero, Nat.zero_add, Nat.add_sub_cancel_left,
        Nat.div_self htick]
    dsimp only
    rw [hone]
    omega
  · next hnot =>
    have hle : now ≤ time := Nat.le_of_not_lt (mt hbefore.mpr hnot)
    have hhorizon := horizon_eq
    obtain ⟨hnear, -⟩ := h
    obtain ⟨d, rfl⟩ := Nat.exists_eq_add_of_le hle
    have hd : d ≤ 180100 := by omega
    have hms : d % 1000 < 1000 := Nat.mod_lt _ (by decide)
    have hnumerator : (now + d + 2 ^ 64 - now) % 2 ^ 64 = d := by omega
    have hsec : d / 1000 % ulongSize = d / 1000 := Nat.mod_eq_of_lt (by unfold ulongSize; omega)
    have hjiffies : tvtojiffies hz (d / 1000) (d % 1000 * 1000) =
        hz * (d / 1000) + (d % 1000 * 1000 + 1000000 / hz - 1) / (1000000 / hz) :=
      tvtojiffies_eq hr (by omega) (by omega)
    have hsplit : d * hz = 1000 * (hz * (d / 1000)) + d % 1000 * hz := by
      calc d * hz = (1000 * (d / 1000) + d % 1000) * hz := by rw [Nat.div_add_mod]
        _ = 1000 * (hz * (d / 1000)) + d % 1000 * hz := by
          rw [Nat.add_mul, Nat.mul_assoc, Nat.mul_comm (d / 1000) hz]
    have hround := hr.round (d % 1000) hms
    dsimp only
    rw [hnumerator, hsec, hjiffies, Nat.add_sub_cancel_left, hsplit, Nat.add_mul, Nat.mul_comm _ 1000, Nat.add_assoc]
    exact Nat.add_le_add_left hround _

end Delays

/-- The timer queue is in the order of its times, which fit the clock. -/
structure InOrder (now : ℕ) (q : TimerQueue) : Prop where
  sorted : Sorted Task.time q.queue
  fits : ∀ t ∈ q.queue, Fits now t.time
  retries : ∀ t ∈ q.queue, RetriesLeft t

/-- A queue in order whose head the kernel timer is set for. -/
structure Kept (hz now : ℕ) (q : TimerQueue) : Prop extends InOrder now q where
  guards : Alarm.Guards Task.time (Expires hz) q.aodvTimer q.queue

section Queues

variable {hz now : ℕ} {q q' : TimerQueue}

theorem inOrder_empty (h : q.queue = []) : InOrder now q := by
  have hnone : ∀ t, t ∉ q.queue := by
    intro t ht
    rw [h] at ht
    exact List.not_mem_nil ht
  constructor
  · rw [h]
    exact List.Pairwise.nil
  · intro t ht
    exact absurd ht (hnone t)
  · intro t ht
    exact absurd ht (hnone t)

theorem InOrder.sublist (hq : InOrder now q) (hsub : q'.queue.Sublist q.queue) : InOrder now q' where
  sorted := hq.sorted.sublist hsub
  fits t ht := hq.fits t (hsub.subset ht)
  retries t ht := hq.retries t (hsub.subset ht)

theorem InOrder.insert (hq : InOrder now q) {new : Task} (hfits : Fits now new.time) (hretries : RetriesLeft new) :
    InOrder now (q.insert new) := by
  have hmem : ∀ {t}, t ∈ (q.insert new).queue → t = new ∨ t ∈ q.queue := mem_insert
  constructor
  · unfold TimerQueue.insert
    split
    · exact hq.sorted.insertBy fun t ht ↦ timeBefore_iff_lt (hq.fits t ht) hfits
    · exact hq.sorted
  · intro t ht
    rcases hmem ht with rfl | ht
    · exact hfits
    · exact hq.fits t ht
  · intro t ht
    rcases hmem ht with rfl | ht
    · exact hretries
    · exact hq.retries t ht

theorem InOrder.simple (hq : InOrder now q) (type : TaskType) {delay : ℕ} (ip : Ip) (h : delay ≤ horizon) :
    InOrder now (insertTimerSimple now type delay ip q) := by
  refine hq.insert (fits_later h) fun _ ↦ ?_
  exact UInt16.zero_le

theorem resendDelay_bounds {retries : UInt8} (h : retries ≤ rreqRetries) :
    0 ≤ resendDelay retries ∧ resendDelay retries ≤ 2400 := by
  have hle : retries.toNat ≤ 2 := h
  have hcases : retries = 0 ∨ retries = 1 ∨ retries = 2 := by
    simp only [← UInt8.toNat_inj]
    have h₀ : (0 : UInt8).toNat = 0 := rfl
    have h₁ : (1 : UInt8).toNat = 1 := rfl
    have h₂ : (2 : UInt8).toNat = 2 := rfl
    omega
  rcases hcases with rfl | rfl | rfl
  all_goals exact ⟨by decide, by decide⟩

theorem InOrder.edit (hclock : now + horizon < 2 ^ 64) (hq : InOrder now q) (h : Edit now q q') :
    InOrder now q' := by
  cases h with
  | simple type ip h => exact hq.simple type ip h
  | answer srcIp dstIp tos =>
    refine hq.insert (fits_later (by decide)) fun _ ↦ ?_
    exact UInt16.zero_le
  | @resend retries srcIp dstIp tos h =>
    obtain ⟨hpos, hle⟩ := resendDelay_bounds h
    have hhorizon := horizon_eq
    refine hq.insert ?_ fun _ ↦ ?_
    · obtain ⟨d, hd⟩ := Int.eq_ofNat_of_zero_le hpos
      have htime : (((now : ℤ) + resendDelay retries) % 2 ^ 64).toNat = now + d := by omega
      have hfits : Fits now (now + d) := fits_later (by omega)
      rw [← htime] at hfits
      exact hfits
    · have hretries : retries.toUInt16 ≤ rreqRetries.toUInt16 := by
        rw [UInt16.le_iff_toNat_le, UInt8.toNat_toUInt16, UInt8.toNat_toUInt16]
        exact h
      exact hretries
  | delete => exact hq.sublist List.eraseP_sublist

theorem InOrder.edits (hclock : now + horizon < 2 ^ 64) (hq : InOrder now q) (h : Edits now q q') :
    InOrder now q' := by
  induction h with
  | refl => exact hq
  | tail _ hedit ih => exact ih.edit hclock hedit

theorem InOrder.update (hr : Rounds hz) (hq : InOrder now q) : Kept hz now (updateTimerQueue hz now q) := by
  refine ⟨hq.sublist (by rw [updateTimerQueue_queue]), ?_⟩
  unfold updateTimerQueue
  cases hqueue : q.queue with
  | nil =>
    dsimp only
    rw [hqueue]
    exact Alarm.guards_nil
  | cons head queue =>
    intro t ht
    obtain rfl := Option.some.inj ht
    exact ⟨_, rfl, headDelay_expires hr (hq.fits head (hqueue ▸ List.mem_cons_self))⟩

theorem Kept.turn (hr : Rounds hz) (hclock : now + horizon < 2 ^ 64) (hq : Kept hz now q)
    (h : Turn hz now q q') : Kept hz now q' := by
  cases h with
  | delete =>
    refine ⟨hq.toInOrder.edit hclock (.delete _ _ _ _), ?_⟩
    exact hq.guards.sublist (expires_lasting hz) hq.sorted List.eraseP_sublist
  | program h => exact (hq.toInOrder.edits hclock h).update hr

theorem Kept.turns (hr : Rounds hz) (hclock : now + horizon < 2 ^ 64) (hq : Kept hz now q)
    (h : Turns hz now q q') : Kept hz now q' := by
  induction h with
  | refl => exact hq
  | tail _ hturn ih => exact ih.turn hr hclock hturn

/-- A timer that is set without programming the kernel timer needs one that is
set already. -/
theorem Kept.simple_iff (hq : Kept hz now q) (type : TaskType) {delay : ℕ} (ip : Ip) (h : delay ≤ horizon)
    (hmemory : q.kmalloc.next = true) :
    Kept hz now (insertTimerSimple now type delay ip q) ↔ ∃ p ∈ q.aodvTimer, Expires hz p (now + delay) := by
  have horder := hq.toInOrder.simple type ip h
  unfold insertTimerSimple TimerQueue.insert at horder ⊢
  rw [if_pos hmemory] at horder ⊢
  constructor
  · intro hkept
    exact ((Alarm.guards_insertBy (expires_lasting hz) hq.sorted horder.sorted).mp hkept.guards).1
  · intro hp
    exact ⟨horder, (Alarm.guards_insertBy (expires_lasting hz) hq.sorted horder.sorted).mpr ⟨hp, hq.guards⟩⟩

end Queues

/-- The timers of a node are in order, and the kernel timer covers them. -/
structure Tidy (n : Node) : Prop where
  rounds : Rounds n.cfg.hz
  sorted : Sorted Task.time n.timers.queue
  near : ∀ t ∈ n.timers.queue, t.time ≤ n.now + horizon
  retries : ∀ t, t ∈ n.timers.queue ∨ t ∈ n.tasks.elems → RetriesLeft t
  covered : Covered n

/-- The clock does not overflow, and no timer is overdue by so much that the
comparisons of 32 bits take it for a later one. -/
structure OnTime (n : Node) : Prop where
  clock : n.now + horizon < 2 ^ 64
  due : ∀ t ∈ n.timers.queue, n.now + horizon < t.time + 2 ^ 31

/-- `output_handler` makes a route active and sets the timer by which the load
is computed anew. -/
def SetsLoadTimer (skb : Skb) (n : Node) : Prop :=
  isSignalling skb = false ∧ n.flowAddr skb.daddr ≠ n.flowAddr skb.saddr ∧
    (n.routing.findAodvRoute (n.flowAddr skb.saddr) (n.flowAddr skb.daddr) skb.tos).map AodvRoute.state =
      some .replied ∧
    n.cfg.gRoutingMetric = .wcim ∧ n.timers.kmalloc.next = true

/-- The kernel timer is already set for the timer that `output_handler` adds. -/
def LoadCovered (n : Node) : Event → Prop
  | .output skb => SetsLoadTimer skb n → ∃ p ∈ n.timers.aodvTimer, Expires n.cfg.hz p (n.now + 1)
  | _ => True

def Punctual (n : Node) (e : Event) : Prop := OnTime n ∧ LoadCovered n e

instance : DecidablePred OnTime := fun n ↦
  decidable_of_iff (n.now + horizon < 2 ^ 64 ∧ ∀ t ∈ n.timers.queue, n.now + horizon < t.time + 2 ^ 31)
    ⟨fun h ↦ ⟨h.1, h.2⟩, fun h ↦ ⟨h.clock, h.due⟩⟩

instance (hz : ℕ) (p : Pending) (time : ℕ) : Decidable (Expires hz p time) :=
  inferInstanceAs (Decidable (_ ≤ _))

instance (skb : Skb) (n : Node) : Decidable (SetsLoadTimer skb n) :=
  inferInstanceAs (Decidable (_ ∧ _ ∧ _ ∧ _ ∧ _))

instance (n : Node) : (e : Event) → Decidable (LoadCovered n e)
  | .output skb => inferInstanceAs (Decidable (SetsLoadTimer skb n → _))
  | .wait _ | .input _ | .signal | .thread => .isTrue trivial

instance (n : Node) (e : Event) : Decidable (Punctual n e) := inferInstanceAs (Decidable (_ ∧ _))

section Steps

variable {n n' : Node}

theorem Tidy.kept (hn : Tidy n) (hdue : ∀ t ∈ n.timers.queue, n.now + horizon < t.time + 2 ^ 31) :
    Kept n.cfg.hz n.now n.timers where
  sorted := hn.sorted
  fits t ht := ⟨hn.near t ht, hdue t ht⟩
  retries t ht := hn.retries t (.inl ht)
  guards := hn.covered

theorem Kept.tidy (hr : Rounds n.cfg.hz) (hkept : Kept n.cfg.hz n.now n.timers)
    (htasks : ∀ t ∈ n.tasks.elems, RetriesLeft t) : Tidy n where
  rounds := hr
  sorted := hkept.sorted
  near t ht := (hkept.fits t ht).1
  retries t ht := ht.elim (hkept.retries t) (htasks t)
  covered := hkept.guards

theorem Tidy.tends (hn : Tidy n) (hontime : OnTime n) (h : Tends n n') : Tidy n' := by
  have hkept := (hn.kept hontime.due).turns hn.rounds hontime.clock h.timers
  rw [← h.cfg, ← h.now] at hkept
  refine hkept.tidy (h.cfg ▸ hn.rounds) fun t ht ↦ ?_
  rcases h.tasks t ht with ht | hretries
  · exact hn.retries t (.inr ht)
  · exact hretries

/-- `output_handler` sets at most the timer of the load, and then it does not
program the kernel timer. -/
theorem outputHandler_timers {skb : Skb} {v : Verdict} (h : n.outputHandler skb = some (v, n')) :
    Tends n n' ∨ n'.cfg = n.cfg ∧ n'.now = n.now ∧ n'.tasks = n.tasks ∧
      n'.timers = insertTimerSimple n.now .updateLoad 1 n.cfg.gMeshIp n.timers ∧
      (n.timers.kmalloc.next = true → SetsLoadTimer skb n) := by
  have hsame : ∀ {w : Verdict}, some (w, n) = some (v, n') → Tends n n' := by
    intro w heq
    obtain ⟨-, rfl⟩ := Prod.mk.inj (Option.some.inj heq)
    exact .refl n
  unfold outputHandler at h
  split at h
  · exact .inl (hsame h)
  next hsignalling =>
  dsimp only at h
  split at h
  · exact .inl (hsame h)
  next haddr =>
  split at h
  · split at h
    · split at h
      · cases h
      · obtain ⟨-, rfl⟩ := Prod.mk.inj (Option.some.inj h)
        refine .inl ⟨rfl, rfl, fun t ht ↦ ?_, .refl⟩
        rcases List.mem_cons.mp ((ClassQueue.pushFront_perm _ _ _).mem_iff.mp ht) with rfl | ht
        · exact .inr nofun
        · exact .inl ht
    · split at h
      · exact .inl (hsame h)
      · exact .inl (hsame h)
  · next e he =>
    obtain ⟨hfind, -⟩ := Option.filter_eq_some_iff.mp he
    obtain ⟨-, rfl⟩ := Prod.mk.inj (Option.some.inj h)
    split
    · next hreplied =>
      split
      · next hwcim =>
        refine .inr ⟨rfl, rfl, rfl, rfl, fun hmemory ↦ ?_⟩
        refine ⟨by simpa using hsignalling, haddr, ?_, hwcim, hmemory⟩
        rw [hfind, Option.map_some, hreplied]
      · exact .inl (tends_of_eq rfl rfl rfl rfl)
    · exact .inl (tends_of_eq rfl rfl rfl rfl)

/-- The kernel timer covers the head after the timer of the load has been set if
and only if it was already set for that. -/
theorem Tidy.load_iff {skb : Skb} (hn : Tidy n) (hontime : OnTime n) (hload : SetsLoadTimer skb n)
    (hcfg : n'.cfg = n.cfg) (hnow : n'.now = n.now) (htasks : n'.tasks = n.tasks)
    (htimers : n'.timers = insertTimerSimple n.now .updateLoad 1 n.cfg.gMeshIp n.timers) :
    Tidy n' ↔ ∃ p ∈ n.timers.aodvTimer, Expires n.cfg.hz p (n.now + 1) := by
  have hiff := (hn.kept hontime.due).simple_iff .updateLoad n.cfg.gMeshIp (by decide : 1 ≤ horizon) hload.2.2.2.2
  have horder : InOrder n.now (insertTimerSimple n.now .updateLoad 1 n.cfg.gMeshIp n.timers) :=
    (hn.kept hontime.due).toInOrder.simple .updateLoad _ (by decide)
  rw [← hiff, ← htimers]
  rw [← htimers] at horder
  constructor
  · intro hn'
    exact ⟨horder, hcfg ▸ hn'.covered⟩
  · intro hkept
    rw [← hcfg, ← hnow] at hkept
    exact hkept.tidy (hcfg ▸ hn.rounds) fun t ht ↦ hn.retries t (.inr (htasks ▸ ht))

theorem Tidy.output {skb : Skb} {v : Verdict} (hn : Tidy n) (hpunctual : Punctual n (.output skb))
    (h : n.outputHandler skb = some (v, n')) : Tidy n' := by
  rcases outputHandler_timers h with htends | ⟨hcfg, hnow, htasks, htimers, hload⟩
  · exact hn.tends hpunctual.1 htends
  by_cases hmemory : n.timers.kmalloc.next = true
  · have hsets := hload hmemory
    exact (hn.load_iff hpunctual.1 hsets hcfg hnow htasks htimers).mpr (hpunctual.2 hsets)
  · -- without memory nothing is queued
    have hqueue : n'.timers.queue = n.timers.queue ∧ n'.timers.aodvTimer = n.timers.aodvTimer := by
      rw [htimers, insertTimerSimple, TimerQueue.insert, if_neg hmemory]
      exact ⟨rfl, rfl⟩
    refine ⟨hcfg ▸ hn.rounds, hqueue.1 ▸ hn.sorted, ?_, ?_, ?_⟩
    · rw [hqueue.1, hnow]
      exact hn.near
    · rw [hqueue.1, htasks]
      exact hn.retries
    · unfold Covered
      rw [hqueue.1, hqueue.2, hcfg]
      exact hn.covered

theorem Tidy.signal (hn : Tidy n) (hontime : OnTime n) : Tidy n.signal := by
  obtain ⟨tasks, heq, hperm⟩ := signal_eq n
  have horder : InOrder n.now { n.timers with queue := (drainTimers n.now n.timers.queue).2, aodvTimer := none } := by
    refine (hn.kept hontime.due).toInOrder.sublist ?_
    rw [drainTimers_eq]
    exact List.dropWhile_sublist _
  rw [heq]
  refine (horder.update hn.rounds).tidy hn.rounds fun t ht ↦ ?_
  rcases List.mem_append.mp (hperm.mem_iff.mp ht) with ht | ht
  · exact hn.retries t (.inl (NodeOps.mem_of_due ht))
  · exact hn.retries t (.inr ht)

theorem Tidy.step {e : Event} (hn : Tidy n) (hpunctual : Punctual n e) (h : n.step e = some n') : Tidy n' := by
  have hontime := hpunctual.1
  cases e with
  | wait ms =>
    obtain rfl := Option.some.inj h
    refine { hn with near := fun t ht ↦ ?_ }
    have hle := hn.near t ht
    dsimp only
    omega
  | input p => exact Option.some.inj h ▸ hn.tends hontime (tends_inputHandler p)
  | output skb =>
    obtain ⟨⟨v, n₁⟩, hsend, rfl⟩ := Option.map_eq_some_iff.mp h
    obtain ⟨⟨w, n₂⟩, hout, hsend⟩ := Option.bind_eq_some_iff.mp hsend
    have hn₂ := hn.output hpunctual hout
    dsimp only at hsend
    split at hsend
    · obtain ⟨-, rfl⟩ := Prod.mk.inj (Option.some.inj hsend)
      exact { hn₂ with }
    · obtain ⟨-, rfl⟩ := Prod.mk.inj (Option.some.inj hsend)
      exact hn₂
  | signal => exact Option.some.inj h ▸ hn.signal hontime
  | thread =>
    simp only [Node.step, threadStep] at h
    split at h
    · exact Option.some.inj h ▸ hn
    · next t tasks hpop =>
      have hpopped : Tidy { n with tasks := tasks } :=
        { hn with retries := fun t ht ↦ hn.retries t (ht.imp_right (ClassQueue.pop_subset hpop ·)) }
      have ht : RetriesLeft t := hn.retries t (.inr (ClassQueue.pop_mem hpop))
      exact hpopped.tends ⟨hontime.clock, hontime.due⟩ (tends_handle ht h)

end Steps

theorem tidy_init {cfg : Config} (hr : Rounds cfg.hz) (env : Environment) : Tidy (Node.init cfg env) := by
  unfold Node.init
  dsimp only
  generalize hempty : (Node.mk _ _ _ _ _ _ _ _ _ _ _ _ _ _ _ _ _ _ _ _) = n
  have hcfg : n.cfg = cfg := hempty ▸ rfl
  have hqueue : n.timers.queue = [] := hempty ▸ rfl
  have htasks : n.tasks.elems = [] := hempty ▸ rfl
  have horder : InOrder n.now n.timers := inOrder_empty hqueue
  generalize hn₁ : (if cfg.gAodvGateway = true then n.insertTimer .st helloInterval cfg.gMeshIp else n) = n₁
  have h₁ : n₁.cfg = cfg ∧ n₁.now = n.now ∧ n₁.tasks = n.tasks ∧ InOrder n.now n₁.timers := by
    rw [← hn₁]
    split
    · exact ⟨hcfg, rfl, rfl, horder.simple .st _ (by decide)⟩
    · exact ⟨hcfg, rfl, rfl, horder⟩
  obtain ⟨hcfg₁, hnow₁, htasks₁, horder₁⟩ := h₁
  rw [← hnow₁] at horder₁
  have hhello := horder₁.simple .hello cfg.gMeshIp (by decide : helloInterval ≤ horizon)
  have hgw := hhello.simple .gwCleanup cfg.gMeshIp (by decide : activeGwrouteTimeout ≤ horizon)
  have hcleanup := hgw.simple .cleanup cfg.gMeshIp (by decide : helloInterval + helloInterval / 2 ≤ horizon)
  have hr₁ : Rounds n₁.cfg.hz := hcfg₁ ▸ hr
  refine (hcleanup.update hr₁).tidy hr₁ fun t ht ↦ ?_
  have ht : t ∈ n.tasks.elems := htasks₁ ▸ ht
  rw [htasks] at ht
  exact absurd ht List.not_mem_nil

theorem timer_covers_head {n : Node} (h : Reach (fun cfg _ ↦ Rounds cfg.hz) Punctual n) : Covered n := by
  have htidy : Tidy n :=
    h.induct (fun _ env hr ↦ tidy_init hr env) fun _ _ _ hn hpunctual hs ↦ hn.step hpunctual hs
  exact htidy.covered

/-- A route to 192.168.1.9 is found, and the packets may go out on it. -/
def routeReplied : List Event :=
  helloFrom 0x0201a8c0 [] ++ [.output (packetTo 0x0901a8c0), .thread,
    .input (heard 0x0201a8c0 (.rrep ⟨0, 1, 0x0901a8c0, 0x0101a8c0, 5, 0, 1, 1, 0, 0, 0⟩)), .thread]

theorem rounds_wcimNode : Rounds ({ station.cfg with gRoutingMetric := .wcim } : Config).hz :=
  rounds_usual (by decide)

/-- The next packet goes out just before the HELLO is due. -/
theorem timer_covers_head_late_packet :
    ∃ n, runs (routeReplied ++ [.wait 999, .output (packetTo 0x0901a8c0)]) wcimNode = some n ∧
      n.timers.queue.head?.map (fun t ↦ (t.type, t.time)) = some (.updateLoad, 1000) ∧ Covered n := by
  have hinit : Reach (fun cfg _ ↦ Rounds cfg.hz) Punctual wcimNode := .init rounds_wcimNode
  have hcond : Lockstep.Along Node.step Punctual
      (routeReplied ++ [.wait 999, .output (packetTo 0x0901a8c0)]) wcimNode := by decide +kernel
  have hrun : (runs (routeReplied ++ [.wait 999, .output (packetTo 0x0901a8c0)]) wcimNode).map
      (fun n ↦ n.timers.queue.head?.map fun t ↦ (t.type, t.time)) = some (some (.updateLoad, 1000)) := by
    decide +kernel
  obtain ⟨n, hn, hhead⟩ := Option.map_eq_some_iff.mp hrun
  exact ⟨n, hn, hhead, timer_covers_head (hinit.of_along hcond hn)⟩

/-- The next packet goes out at once. The load is to be computed after 1 ms, and
the kernel timer stays set for the HELLO after 1000 ms. -/
theorem kernel_timer_misses_load :
    ∃ n, Reach (fun cfg _ ↦ Rounds cfg.hz) (fun n _ ↦ OnTime n) n ∧
      n.timers.queue.head?.map (fun t ↦ (t.type, t.time)) = some (.updateLoad, 1) ∧
      n.timers.aodvTimer = some ⟨0, 100⟩ ∧ ¬ Covered n := by
  have hinit : Reach (fun cfg _ ↦ Rounds cfg.hz) (fun n _ ↦ OnTime n) wcimNode := .init rounds_wcimNode
  have hcond : Lockstep.Along Node.step (fun n _ ↦ OnTime n)
      (routeReplied ++ [.output (packetTo 0x0901a8c0)]) wcimNode := by decide +kernel
  have hrun : (runs (routeReplied ++ [.output (packetTo 0x0901a8c0)]) wcimNode).map
      (fun n ↦ (n.cfg.hz, n.timers.queue.head?.map fun t ↦ (t.type, t.time), n.timers.aodvTimer)) =
        some (100, some (.updateLoad, 1), some ⟨0, 100⟩) := by
    decide +kernel
  obtain ⟨n, hn, hfacts⟩ := Option.map_eq_some_iff.mp hrun
  simp only [Prod.mk.injEq] at hfacts
  obtain ⟨hhz, hhead, htimer⟩ := hfacts
  refine ⟨n, hinit.of_along hcond hn, hhead, htimer, fun hcovered ↦ ?_⟩
  obtain ⟨t, ht, heq⟩ := Option.map_eq_some_iff.mp hhead
  obtain ⟨p, hp, hexpires⟩ := hcovered t ht
  rw [htimer] at hp
  obtain rfl := Option.some.inj hp
  unfold Expires at hexpires
  rw [(Prod.mk.inj heq).2, hhz] at hexpires
  exact absurd hexpires (by decide)

end Fbaodv.Proofs.TimerCover
