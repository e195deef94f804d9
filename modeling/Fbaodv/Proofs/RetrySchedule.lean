import Fbaodv.Proofs.DiscoveryEnds
import Mathlib.Data.Multiset.ZeroCons

namespace Fbaodv.Proofs.RetrySchedule

open Fbaodv.Model Fbaodv.Model.Node Fbaodv.Foundation
open Fbaodv.Proofs.NodeOps Fbaodv.Proofs.NodeRun Fbaodv.Proofs.NeighLoss Fbaodv.Proofs.PacketDiscovery
open Fbaodv.Proofs.DiscoveryEnds

/-- A call of `gen_rreq` or `resend_rreq`, and the timer that it puts into the
queue. -/
structure Attempt where
  before : Node
  after : Node
  timer : Option Task

namespace Attempt

def Sets (a : Attempt) : Prop :=
  a.after.timers.queue = a.timer.elim a.before.timers.queue fun t ↦ queueTimer t a.before.timers.queue

/-- The allocations of the RREQ and of its timer succeed. -/
def HasMemory (a : Attempt) : Prop := a.before.kmalloc.next = true ∧ a.before.timers.kmalloc.next = true

instance (a : Attempt) : Decidable a.Sets := inferInstanceAs (Decidable (_ = _))

instance (a : Attempt) : Decidable a.HasMemory := inferInstanceAs (Decidable (_ ∧ _))

def Broadcasts (f : Flow) (a : Attempt) : Prop :=
  ∃ m : Rreq, (m.srcIp, m.dstIp, m.tos) = f ∧ a.after.sent = a.before.sent ++ [.broadcast netDiameter (.rreq m)]

def Drops (f : Flow) (a : Attempt) : Prop :=
  a.after.packets = a.before.packets.ipqDropIp f.1 f.2.1 f.2.2 ∧ a.after.sent = a.before.sent

/-- From the call to the time of the timer, on the 64-bit clock. -/
def wait (a : Attempt) : ℕ := a.timer.elim 0 fun t ↦ (t.time + 2 ^ 64 - a.before.now % 2 ^ 64) % 2 ^ 64

end Attempt

/-- A discovery of the flow from its start on. In between the node may do
anything, and each timer is handled at or after its time. -/
inductive Discovery (f : Flow) : List Attempt → Prop
  | start {a : Attempt} (hmem : a.HasMemory) (hs : a.before.genRreq f.1 f.2.1 f.2.2 = some a.after)
      (hsets : a.Sets) : Discovery f [a]
  | resend {l : List Attempt} {a b : Attempt} {t : Task} {tasks : ClassQueue Task}
      (h : Discovery f (l ++ [a])) (ht : a.timer = some t) (hpop : b.before.tasks.pop = (some t, tasks))
      (hdue : t.time ≤ b.before.now) (hmem : b.HasMemory) (hs : b.before.step .thread = some b.after)
      (hsets : b.Sets) : Discovery f (l ++ [a] ++ [b])

/-- What is asked of a discovery with these calls and this last one. -/
structure OnSchedule (f : Flow) (l : List Attempt) (d : Attempt) : Prop where
  count : l.length = rreqRetries.toNat + 1
  broadcasts : ∀ a ∈ l, a.Broadcasts f
  drops : d.Drops f
  waits : l.map Attempt.wait = (List.range (rreqRetries.toNat + 1)).map fun k ↦ 2 ^ k * netTraversalTime
  patient : ∀ a ∈ l.getLast?, a.before.now + netTraversalTime ≤ d.before.now

/-- The call broadcasts an RREQ of the flow and sets a timer with this number of
retries. -/
structure Floods (f : Flow) (retries : UInt8) (a : Attempt) : Prop where
  broadcasts : a.Broadcasts f
  timer : ∃ t, a.timer = some t ∧ t.type = .resendRreq ∧ taskFlow t = f ∧ t.retries = retries.toUInt16
  wait : (a.wait : ℤ) = resendDelay retries % 2 ^ 64

/-- The call gives the packets of the flow up. -/
structure GivesUp (f : Flow) (a : Attempt) : Prop where
  drops : a.Drops f
  timer : a.timer = none

section Calls

variable {f : Flow} {a b : Attempt} {l : List Attempt} {t t' : Task} {q : List Task}

theorem queueTimer_ne : queueTimer t q ≠ q := by
  intro heq
  have hlength := (OrderedList.insertBy_perm (fun x ↦ timeAfter t.time x.time) t q).length_eq
  change (queueTimer t q).length = _ at hlength
  rw [heq, List.length_cons] at hlength
  omega

theorem queueTimer_inj (h : queueTimer t q = queueTimer t' q) : t = t' := by
  have hperm : (t :: q).Perm (t' :: q) := by
    have hnew : (queueTimer t q).Perm (t :: q) := OrderedList.insertBy_perm _ t q
    have hnew' : (queueTimer t' q).Perm (t' :: q) := OrderedList.insertBy_perm _ t' q
    exact hnew.symm.trans (h ▸ hnew')
  exact (Multiset.cons_inj_left (q : Multiset Task)).mp (Multiset.coe_eq_coe.mpr hperm)

/-- The timer of a call is the one that it queues. -/
theorem Attempt.Sets.timer_eq (ha : a.Sets) (h : a.after.timers.queue = queueTimer t a.before.timers.queue) :
    a.timer = some t := by
  rw [Attempt.Sets, h] at ha
  cases htimer : a.timer with
  | none =>
    rw [htimer] at ha
    exact absurd ha queueTimer_ne
  | some t' =>
    rw [htimer] at ha
    rw [queueTimer_inj ha]

theorem Attempt.Sets.timer_none (ha : a.Sets) (h : a.after.timers.queue = a.before.timers.queue) :
    a.timer = none := by
  rw [Attempt.Sets, h] at ha
  cases htimer : a.timer with
  | none => rfl
  | some t =>
    rw [htimer] at ha
    exact absurd ha.symm queueTimer_ne

/-- The timer that `insert_timer_directional` makes for `gen_rreq`. -/
def resendTimer (f : Flow) (retries : UInt8) (now : ℕ) : Task :=
  { createTask .resendRreq now with
    srcIp := f.1
    dstIp := f.2.1
    tos := f.2.2
    retries := retries.toUInt16
    ttl := 30
    time := (((now : ℤ) + resendDelay retries) % 2 ^ 64).toNat }

theorem insertTimerDir_queue {retries : UInt8} {n : Node} (hmem : n.timers.kmalloc.next = true) :
    (n.insertTimerDir .resendRreq 0 retries f.1 f.2.1 f.2.2).timers.queue =
      queueTimer (resendTimer f retries n.now) n.timers.queue := by
  rw [insertTimerDir, insertTimerDirectional]
  dsimp only
  rw [TimerQueue.insert, if_pos hmem]
  rfl

theorem wait_eq (now : ℕ) (d : ℤ) :
    (((((now : ℤ) + d) % 2 ^ 64).toNat + 2 ^ 64 - now % 2 ^ 64) % 2 ^ 64 : ℕ) = d % 2 ^ 64 := by
  omega

theorem floods_of_flooded {retries : UInt8} {n : Node} {m : Rreq} (hmem : a.before.timers.kmalloc.next = true)
    (hsets : a.Sets) (htimers : n.timers = a.before.timers) (hnow : n.now = a.before.now)
    (hsent : n.sent = a.before.sent) (h : Flooded n f.1 f.2.1 f.2.2 retries m a.after) : Floods f retries a := by
  have hqueue : a.after.timers.queue = queueTimer (resendTimer f retries a.before.now) a.before.timers.queue := by
    rw [← htimers] at hmem
    rw [h.timers, ← hnow, ← htimers, ← insertTimerDir_queue hmem]
    exact updateTimerQueue_queue _ _ _
  have htimer := hsets.timer_eq hqueue
  refine ⟨⟨m, ?_, by rw [h.sent, hsent]⟩, ⟨_, htimer, rfl, rfl, rfl⟩, ?_⟩
  · obtain ⟨hsrc, hdst, htos⟩ := h.flow
    rw [hsrc, hdst, htos]
  · rw [Attempt.wait, htimer, Option.elim_some, resendTimer]
    exact wait_eq a.before.now (resendDelay retries)

theorem genRreq_flooded {n n' : Node} {srcIp dstIp : Ip} {tos : UInt8} (hmem : n.kmalloc.next = true)
    (h : n.genRreq srcIp dstIp tos = some n') : ∃ m, Flooded n srcIp dstIp tos rreqRetries m n' := by
  rcases genRreq_cases h with ⟨hnone, -⟩ | hflooded
  · exact absurd hmem (ne_true_of_eq_false hnone)
  · exact hflooded

theorem resendRreq_flooded {n n' : Node} (hmem : n.kmalloc.next = true) (h : n.resendRreq t = some n') :
    t.retries = 0 ∧ n' = { n with packets := n.packets.ipqDropIp t.srcIp t.dstIp t.tos } ∨
      t.retries ≠ 0 ∧ ∃ m, Flooded n t.srcIp t.dstIp t.tos (t.retries - 1).toUInt8 m n' := by
  have hzero : t.retries ≤ 0 ↔ t.retries = 0 := by
    rw [UInt16.le_iff_toNat_le, ← UInt16.toNat_inj, UInt16.toNat_zero, Nat.le_zero]
  rcases resendRreq_cases h with ⟨hretries, hdrop⟩ | ⟨hretries, ⟨hnone, -⟩ | hflooded⟩
  · exact .inl ⟨hzero.mp hretries, hdrop⟩
  · exact absurd hmem (ne_true_of_eq_false hnone)
  · exact .inr ⟨fun h ↦ hretries (hzero.mpr h), hflooded⟩

theorem floods_or_givesUp {tasks : ClassQueue Task} (htype : t.type = .resendRreq) (hflow : taskFlow t = f)
    (hpop : b.before.tasks.pop = (some t, tasks)) (hmem : b.HasMemory) (hs : b.before.step .thread = some b.after)
    (hsets : b.Sets) :
    t.retries = 0 ∧ GivesUp f b ∨ t.retries ≠ 0 ∧ Floods f (t.retries - 1).toUInt8 b := by
  have hresent : { b.before with tasks := tasks }.resendRreq t = some b.after := by
    simpa only [step, threadStep, hpop, handle, htype] using hs
  subst hflow
  rcases resendRreq_flooded (n := { b.before with tasks := tasks }) hmem.1 hresent with
    ⟨hzero, hdrop⟩ | ⟨hretries, m, hflooded⟩
  · exact .inl ⟨hzero, ⟨by rw [hdrop]; rfl, by rw [hdrop]⟩, hsets.timer_none (by rw [hdrop])⟩
  · exact .inr ⟨hretries, floods_of_flooded (n := { b.before with tasks := tasks }) hmem.2 hsets rfl rfl rfl hflooded⟩

end Calls

section Discoveries

variable {f : Flow} {a b d : Attempt} {l : List Attempt}

/-- The calls so far have flooded, with the retries counting down. -/
structure Flooding (f : Flow) (l : List Attempt) : Prop where
  few : l.length ≤ rreqRetries.toNat + 1
  floods : ∀ i a, l[i]? = some a → Floods f (UInt8.ofNat (rreqRetries.toNat - i)) a

theorem Flooding.concat (h : Flooding f l) (hfew : l.length ≤ rreqRetries.toNat)
    (hb : Floods f (UInt8.ofNat (rreqRetries.toNat - l.length)) b) : Flooding f (l ++ [b]) where
  few := by
    rw [List.length_append, List.length_singleton]
    omega
  floods i a ha := by
    by_cases hi : i < l.length
    · rw [List.getElem?_append_left hi] at ha
      exact h.floods i a ha
    · rw [List.getElem?_append_right (not_lt.mp hi), List.getElem?_singleton] at ha
      split at ha
      · next hlast =>
        obtain rfl := Option.some.inj ha
        obtain rfl : i = l.length := by omega
        exact hb
      · cases ha

/-- A discovery floods, until the retries are out and it gives up. -/
theorem Discovery.stages (h : Discovery f l) : Flooding f l ∨
    ∃ l' d, l = l' ++ [d] ∧ Flooding f l' ∧ l'.length = rreqRetries.toNat + 1 ∧ GivesUp f d := by
  have hthree : rreqRetries.toNat = 2 := rfl
  induction h with
  | @start a hmem hs hsets =>
    obtain ⟨m, hflooded⟩ := genRreq_flooded hmem.1 hs
    have ha : Floods f rreqRetries a := floods_of_flooded hmem.2 hsets rfl rfl rfl hflooded
    have hfirst : UInt8.ofNat (rreqRetries.toNat - ([] : List Attempt).length) = rreqRetries := by decide
    have hnil : Flooding f [] := ⟨Nat.zero_le _, fun i a ha ↦ by cases ha⟩
    exact .inl (hnil.concat (Nat.zero_le _) (hfirst ▸ ha))
  | @resend l a b t tasks h ht hpop hdue hmem hs hsets ih =>
    rcases ih with hflooding | ⟨l', d, hl, -, -, hd⟩
    · have ha := hflooding.floods l.length a (List.getElem?_concat_length)
      obtain ⟨t', ht', htype, hflow, hretries⟩ := ha.timer
      obtain rfl := Option.some.inj (ht.symm.trans ht')
      have hfew := hflooding.few
      rw [List.length_append, List.length_singleton] at hfew
      have hlength : (l ++ [a]).length = l.length + 1 := List.length_append
      have hleft : t.retries.toNat = rreqRetries.toNat - l.length := by
        rw [hretries, UInt8.toNat_toUInt16, UInt8.toNat_ofNat']
        omega
      rcases floods_or_givesUp htype hflow hpop hmem hs hsets with ⟨hzero, hd⟩ | ⟨hretries', hb⟩
      · refine .inr ⟨l ++ [a], b, rfl, hflooding, ?_, hd⟩
        rw [hzero, UInt16.toNat_zero] at hleft
        omega
      · have hpos : t.retries.toNat ≠ 0 := fun heq ↦ hretries' (UInt16.toNat_inj.mp heq)
        have hnext : (t.retries - 1).toUInt8 = UInt8.ofNat (rreqRetries.toNat - (l ++ [a]).length) := by
          refine UInt8.toNat_inj.mp ?_
          have hone : (1 : UInt16) ≤ t.retries := UInt16.le_iff_toNat_le.mpr (Nat.one_le_iff_ne_zero.mpr hpos)
          rw [UInt16.toNat_toUInt8, UInt16.toNat_sub_of_le _ _ hone, UInt16.toNat_one, UInt8.toNat_ofNat']
          omega
        exact .inl (hflooding.concat (by omega) (hnext ▸ hb))
    · obtain ⟨rfl, hlast⟩ := List.append_inj' hl rfl
      obtain rfl := List.cons.inj hlast |>.1
      rw [hd.timer] at ht
      cases ht

theorem Discovery.length_le (h : Discovery f l) : l.length ≤ rreqRetries.toNat + 2 := by
  rcases h.stages with hflooding | ⟨l', d, rfl, -, hlength, -⟩
  · exact Nat.le_succ_of_le hflooding.few
  · rw [List.length_append, hlength]
    rfl

/-- A discovery that has ended has flooded three times and then dropped, and its
timers were set for `2 ^ k` in the sense of C. -/
theorem Discovery.ended (h : Discovery f (l ++ [d])) (hend : d.timer = none) :
    l.length = rreqRetries.toNat + 1 ∧ (∀ a ∈ l, a.Broadcasts f) ∧ d.Drops f ∧ l.map Attempt.wait = [1600, 2400, 0] := by
  rcases h.stages with hflooding | ⟨l', d', hl, hflooding, hlength, hd⟩
  · obtain ⟨t, ht, -⟩ := (hflooding.floods l.length d List.getElem?_concat_length).timer
    rw [hend] at ht
    cases ht
  · obtain ⟨rfl, hlast⟩ := List.append_inj' hl rfl
    obtain rfl := (List.cons.inj hlast).1
    refine ⟨hlength, fun a ha ↦ ?_, hd.drops, ?_⟩
    · obtain ⟨i, hi⟩ := List.getElem?_of_mem ha
      exact (hflooding.floods i a hi).broadcasts
    · obtain ⟨a, b, c, rfl⟩ := List.length_eq_three.mp hlength
      have ha : a.wait = 1600 := by
        have hwait := (hflooding.floods 0 a rfl).wait
        have hdelay : resendDelay (UInt8.ofNat (rreqRetries.toNat - 0)) = 1600 := by decide
        rw [hdelay] at hwait
        omega
      have hb : b.wait = 2400 := by
        have hwait := (hflooding.floods 1 b rfl).wait
        have hdelay : resendDelay (UInt8.ofNat (rreqRetries.toNat - 1)) = 2400 := by decide
        rw [hdelay] at hwait
        omega
      have hc : c.wait = 0 := by
        have hwait := (hflooding.floods 2 c rfl).wait
        have hdelay : resendDelay (UInt8.ofNat (rreqRetries.toNat - 2)) = 0 := by decide
        rw [hdelay] at hwait
        omega
      rw [List.map_cons, List.map_cons, List.map_cons, List.map_nil, ha, hb, hc]

end Discoveries

/-- No discovery keeps the schedule: `2 ^ k` is the exclusive or, so that the
first two timers come late, and the third at once. All discoveries end after the
broadcasts asked for and drop then. -/
theorem retry_schedule_never (f : Flow) : (∀ l, Discovery f l → l.length ≤ rreqRetries.toNat + 2) ∧
    ∀ l d, Discovery f (l ++ [d]) → d.timer = none → ¬ OnSchedule f l d ∧ l.length = rreqRetries.toNat + 1 ∧
      (∀ a ∈ l, a.Broadcasts f) ∧ d.Drops f ∧ l.map Attempt.wait = [1600, 2400, 0] := by
  refine ⟨fun l ↦ Discovery.length_le, fun l d h hend ↦ ?_⟩
  obtain ⟨hcount, hbroadcasts, hdrops, hwaits⟩ := h.ended hend
  refine ⟨fun hschedule ↦ ?_, hcount, hbroadcasts, hdrops, hwaits⟩
  exact absurd (hwaits.symm.trans hschedule.waits) (by decide)

/-- The flow that the station asks for. -/
def asked : Flow := (0x0101a8c0, 0x0901a8c0, 0)

def stationAfter (l : List Event) : Node := (runs l metStation).getD station

/-- The thread's turn after these events, as a call of the discovery. -/
def turn (l : List Event) : Attempt :=
  ⟨stationAfter l, stationAfter (l ++ [.thread]), (stationAfter (l ++ [.thread])).timers.queue.find? (isResend asked)⟩

/-- Each timer is handled one millisecond after its time. -/
def untilSecond : List Event := ask ++ [.wait 1601, .signal, .thread, .thread]

def untilThird : List Event := untilSecond ++ [.thread, .wait 2401, .signal, .thread, .thread]

def untilDrop : List Event := untilThird ++ [.thread, .wait 1, .signal]

def firstTurn : Attempt :=
  let n := stationAfter [.output (packetTo 0x0901a8c0)]
  { turn [.output (packetTo 0x0901a8c0)] with before := { n with tasks := n.tasks.pop.2 } }

theorem step_stationAfter {l : List Event} {e : Event} (h : (runs (l ++ [e]) metStation).isSome = true) :
    (stationAfter l).step e = some (stationAfter (l ++ [e])) := by
  have hconcat : ∀ (l : List Event) (n : Node), runs (l ++ [e]) n = (runs l n).bind fun n ↦ n.step e := by
    intro l
    induction l with
    | nil =>
      intro n
      cases hs : n.step e <;> simp [runs, hs]
    | cons e' l ih =>
      intro n
      rw [List.cons_append, runs, runs]
      cases n.step e' with
      | none => rfl
      | some n' => exact ih n'
  obtain ⟨n', hn'⟩ := Option.isSome_iff_exists.mp h
  have hrest := hn'
  rw [hconcat] at hrest
  obtain ⟨n, hn, hs⟩ := Option.bind_eq_some_iff.mp hrest
  rw [stationAfter, hn, stationAfter, hn', Option.getD_some, Option.getD_some, hs]

/-- The thread takes the timer of the call before. -/
theorem Discovery.turn {l : List Attempt} {a : Attempt} {p : List Event} (h : Discovery asked (l ++ [a]))
    (hruns : (runs (p ++ [.thread]) metStation).isSome = true) (hpop : (stationAfter p).tasks.pop.1 = a.timer)
    (hdue : a.timer.any (fun t ↦ t.time ≤ (stationAfter p).now) = true) (hmem : (turn p).HasMemory)
    (hsets : (turn p).Sets) : Discovery asked (l ++ [a] ++ [turn p]) := by
  obtain ⟨t, ht, hle⟩ := (Option.any_eq_true _ _).mp hdue
  exact h.resend ht (Prod.ext (hpop.trans ht) rfl) (of_decide_eq_true hle) hmem (step_stationAfter hruns) hsets

theorem discovery_asked : Discovery asked ([firstTurn, turn untilSecond, turn untilThird] ++ [turn untilDrop]) := by
  have hfirst : Discovery asked [firstTurn] := .start (by decide +kernel) rfl (by decide +kernel)
  have hsecond := Discovery.turn (l := []) (p := untilSecond) hfirst (by decide +kernel) (by decide +kernel)
    (by decide +kernel) (by decide +kernel) (by decide +kernel)
  have hthird := Discovery.turn (p := untilThird) hsecond (by decide +kernel) (by decide +kernel)
    (by decide +kernel) (by decide +kernel) (by decide +kernel)
  exact Discovery.turn (p := untilDrop) hthird (by decide +kernel) (by decide +kernel)
    (by decide +kernel) (by decide +kernel) (by decide +kernel)

theorem retry_schedule_never_asked :
    ¬ OnSchedule asked [firstTurn, turn untilSecond, turn untilThird] (turn untilDrop) ∧
      [firstTurn, turn untilSecond, turn untilThird].map Attempt.wait = [1600, 2400, 0] := by
  obtain ⟨hnot, -, -, -, hwaits⟩ := (retry_schedule_never asked).2 _ _ discovery_asked (by decide +kernel)
  exact ⟨hnot, hwaits⟩

/-- The station gives its packet up one millisecond after its last RREQ. -/
theorem dropped_at_once : Reachable (turn untilDrop).before ∧
    Discovery asked ([firstTurn, turn untilSecond, turn untilThird] ++ [turn untilDrop]) ∧
    (turn untilDrop).timer = none ∧ (turn untilDrop).before.now = (turn untilThird).before.now + 1 ∧
    ¬ OnSchedule asked [firstTurn, turn untilSecond, turn untilThird] (turn untilDrop) := by
  have hnow : (turn untilDrop).before.now = (turn untilThird).before.now + 1 := by decide +kernel
  have hruns : (runs untilDrop metStation).isSome = true := by decide +kernel
  have hreach : Reachable (stationAfter untilDrop) := metStation_reachable.getD_runs hruns station
  refine ⟨hreach, discovery_asked, by decide +kernel, hnow, fun hschedule ↦ ?_⟩
  have hlast : [firstTurn, turn untilSecond, turn untilThird].getLast? = some (turn untilThird) := by
    rw [List.getLast?_cons_cons, List.getLast?_cons_cons, List.getLast?_singleton]
  have hpatient := hschedule.patient (turn untilThird) hlast
  rw [hnow] at hpatient
  have htime : netTraversalTime = 800 := rfl
  omega

end Fbaodv.Proofs.RetrySchedule
