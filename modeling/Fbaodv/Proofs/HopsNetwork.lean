import Fbaodv.Proofs.FreedRoutes
import Fbaodv.Proofs.GatewayExpiry
import Fbaodv.Proofs.HopsHandlers

namespace Fbaodv.Proofs.HopsNetwork

open Fbaodv.Model Fbaodv.Model.Node Fbaodv.Foundation
open Fbaodv.Proofs.NodeRun Fbaodv.Proofs.NetPaths Fbaodv.Proofs.NetRuns Fbaodv.Proofs.HopsHandlers
open Fbaodv.Proofs.FreedRoutes (FreesLinked RefusesNeigh step_freed)
open Fbaodv.Proofs.GatewayExpiry (updateGwLifetimes_ends_iff)
open Fbaodv.Proofs.RoutingInvariant (WellFormed)
open Fbaodv.Proofs.BrkListFlush (brkRule)
open Fbaodv.Proofs.Upkeep (isUpkeep)
open Fbaodv.Proofs.NeighActs (Acts NeighAct isProbeType handle_acts step_neigh)
open Fbaodv.Proofs.Pending (pending isEttType touches)
open Relation

/-- What a task needs that the node cannot be sure of. -/
structure Provided (t : Task) (n : Node) : Prop where
  unexpired : t.type = .neighbor ∨ t.type = .recvRerr → Unexpired n
  memory : ∀ m, t.type = .recvRrep → t.data = some (.rrep m) → m.dttl > 0 → n.routing.kmalloc.next = true

section Handler

variable {n n' : Node} {t : Task}

theorem handle_runs (hhops : n.cfg.gRoutingMetric = .hops) (hn : HasOwn n) (htype : isEttType t.type = false)
    (hdata : ∀ m, t.data = some m → isEstimate m = false) (hprovided : Provided t n) :
    ∃ n', n.handle t = some n' ∧ NoEstimates n n' := by
  have hestimate : ∀ {m : Message}, isEstimate m = true → t.data ≠ some m := by
    intro m hm hdata'
    rw [hdata m hdata'] at hm
    cases hm
  have hflush : NoEstimates n n.flushRoutes := fun s hs ↦ .inl hs
  unfold handle
  split
  · exact (genRreq_runs _ _ _ hn).handled
  · next m htype' hdata' => exact (recvRrep_runs hhops t m (hprovided.memory m htype' hdata')).handled
  · next m htype' _ => exact ((recording_recvRerr t m n).runs (hprovided.unexpired (.inr htype'))).handled
  · next m _ _ => exact (recvHello_runs hhops t m hn).handled
  · next m _ _ => exact (keeps_recvRcvp m n).runs.handled
  · next m _ _ => exact (keeps_recvRrdp t m n).runs.handled
  · exact ⟨_, rfl, hflush⟩
  · exact (keeps_genHello hhops).runs.handled
  · exact genStRreq_runs.handled
  · exact ⟨_, rfl, fun s hs ↦ .inl hs⟩
  · next htype' => exact ((recording_deleteAodvNeigh t.srcIp n).runs (hprovided.unexpired (.inl htype'))).handled
  · exact ⟨_, rfl, hflush⟩
  · next htype' => simp [htype', isEttType] at htype
  · next hdata' => exact absurd hdata' (hestimate rfl)
  · next hdata' => exact absurd hdata' (hestimate rfl)
  · next htype' => simp [htype', isEttType] at htype
  · exact (keeps_deleteAodvNeigh2h t.srcIp n).runs.handled
  · next m _ _ => exact (recvRreq_runs hhops t m).handled
  · exact (resendRreq_runs t hn).handled
  · next hdata' => exact absurd hdata' (hestimate rfl)
  · exact (genRrep_runs _ _ _ hn).handled
  · next m _ _ => exact (keeps_recvRreqSt t m n).runs.handled
  · exact ⟨_, rfl, fun s hs ↦ .inl hs⟩
  · exact (genRreq_runs _ _ _ hn).handled
  · exact ⟨n, rfl, fun s hs ↦ .inl hs⟩

/-- Whether a task comes to its end or not, nothing is sent that estimates a link. -/
theorem noEstimates_of_handle (hhops : n.cfg.gRoutingMetric = .hops) (hn : HasOwn n)
    (htype : isEttType t.type = false) (hdata : ∀ m, t.data = some m → isEstimate m = false)
    (h : n.handle t = some n') : NoEstimates n n' := by
  by_cases hprovided : Provided t n
  · obtain ⟨n'', hrun, hquiet⟩ := handle_runs hhops hn htype hdata hprovided
    obtain rfl := Option.some.inj (hrun.symm.trans h)
    exact hquiet
  have hkeeps : (t.type = .neighbor ∨ t.type = .recvRerr) ∨ ∃ m, t.type = .recvRrep ∧ t.data = some (.rrep m) := by
    by_contra hother
    rw [not_or, not_exists] at hother
    refine hprovided ⟨fun htype' ↦ absurd htype' hother.1, fun m htype' hdata' ↦ ?_⟩
    exact absurd ⟨htype', hdata'⟩ (hother.2 m)
  rcases hkeeps with (htype' | htype') | ⟨m, htype', hdata'⟩
  · simp only [handle, htype'] at h
    exact ((recording_deleteAodvNeigh t.srcIp n).records n' h).sent
  · cases hdata' : t.data with
    | none =>
      simp only [handle, htype', hdata'] at h
      exact Option.some.inj h ▸ fun s hs ↦ .inl hs
    | some m =>
      cases m with
      | rerr m =>
        simp only [handle, htype', hdata'] at h
        exact ((recording_recvRerr t m n).records n' h).sent
      | _ =>
        simp only [handle, htype', hdata'] at h
        exact Option.some.inj h ▸ fun s hs ↦ .inl hs
  · simp only [handle, htype', hdata'] at h
    exact (keeps_recvRrep hhops h).sent

end Handler

section Network

variable {n₀ n n' : Node} {t : Task}

theorem isUpkeep_of_isEtt {t : Task} (h : isEttType t.type = true) : isUpkeep t = true := by
  simp only [isEttType, Bool.or_eq_true, beq_iff_eq] at h
  rcases h with h | h
  · rw [isUpkeep, h]
  · rw [isUpkeep, h]

theorem isEttType_of_touches {type type' : TaskType} (hprobe : isProbeType type = false)
    (h : touches type type' = true) : isEttType type' = false := by
  have hrenew : ∀ type type', NeighActs.renewedBy type = some type' → isEttType type' = false := by
    intro type type' h
    cases type <;> cases h <;> rfl
  simp only [touches, hprobe, Bool.false_and, Bool.or_false, Bool.or_eq_true, beq_iff_eq] at h
  rcases h with h | h
  · simp only [Pending.isNeighType, Bool.or_eq_true, beq_iff_eq] at h
    rcases h with rfl | rfl
    · rfl
    · rfl
  · exact hrenew _ _ h

/-- A task of a node that counts hops sets no timer for the probes. -/
theorem pending_ett_acts (hhops : n₀.cfg.gRoutingMetric = .hops) (hprobe : isProbeType t.type = false)
    (h : Acts n₀ t n₀ n) :
    pending (fun t ↦ isEttType t.type) n ≤ pending (fun t ↦ isEttType t.type) n₀ := by
  induction h with
  | refl => exact le_rfl
  | @tail n n' _ hact ih =>
    refine le_trans ?_ ih
    rcases Pending.ops_of_act hact with hops | ⟨rfl, -, rfl⟩ | ⟨rfl, -, -, -, ok, hcreate⟩
    · exact (Pending.keeps_of_ops (fun _ ↦ isUpkeep_of_isEtt) (fun _ ↦ isEttType_of_touches hprobe) hops).pending.le
    · exact Pending.pending_unlinkNeigh _ _ _
    · have htake : pending (fun t ↦ isEttType t.type) (n.takeNeigh2h t.srcIp).2.2 =
          pending (fun t ↦ isEttType t.type) n :=
        (Pending.keeps_of_ops (S := fun _ ↦ false) (fun _ ↦ isUpkeep_of_isEtt) (fun _ h ↦ absurd h (by simp))
          (Pending.ops_takeNeigh2h _)).pending
      rw [← htake]
      rcases Upkeep.createAodvNeigh_spec hcreate with ⟨-, hsame⟩ | ⟨-, hmeets⟩
      · exact (Pending.keeps_same (fun _ ↦ isUpkeep_of_isEtt) hsame).pending.le
      have hmetric : (n.takeNeigh2h t.srcIp).2.2.cfg.gRoutingMetric = .hops := by
        rw [(keeps_takeNeigh2h t.srcIp n).cfg, hhops]
      rcases hmeets.timers with ⟨-, htimers⟩ | ⟨hne, -⟩
      · rw [pending, pending, hmeets.tasks, Pending.countP_of_filter (fun _ ↦ isUpkeep_of_isEtt) htimers.queue]
      · exact absurd hmetric hne

/-- Nothing that a node has pending, holds or has said is about the
transmission time of a link. -/
structure Unprobed (n : Node) : Prop where
  metric : n.cfg.gRoutingMetric = .hops
  ett : pending (fun t ↦ isEttType t.type) n = 0
  tasks : ∀ t ∈ n.tasks.elems, ∀ m, t.data = some m → isEstimate m = false
  sent : ∀ s ∈ n.sent, ∀ m, payload s = some m → isEstimate m = false

theorem isEstimate_stamp (sec usec : UInt32) (m : Message) : isEstimate (m.stamp sec usec) = isEstimate m := by
  cases m <;> rfl

theorem idle_of_unprobed (hprobe : isProbeType t.type = true) (hett : isEttType t.type = false)
    (hdata : ∀ m, t.data = some m → isEstimate m = false) : n₀.handle t = some n₀ := by
  have htype : t.type = .recvLEtt ∨ t.type = .ettInfo := by
    simp only [isProbeType, isEttType, Bool.or_eq_true, Bool.or_eq_false_iff, beq_iff_eq, beq_eq_false_iff_ne]
      at hprobe hett
    tauto
  cases hm : t.data with
  | none => rcases htype with htype | htype <;> simp only [handle, htype, hm]
  | some m =>
    have hplain := hdata m hm
    cases m with
    | sprobe | lprobe | ettInfo => cases hplain
    | _ => rcases htype with htype | htype <;> simp only [handle, htype, hm]

theorem Unprobed.step {net : Network} {a : Ip} {e : Event} (hall : ∀ b, Unprobed (net b))
    (hplaced : Placed a (net a)) (hin : ∀ p, e = .input p → net.Deliverable a p)
    (h : (net a).step e = some n) : Unprobed n := by
  have hn := hall a
  have hcfg := Isolation.step_cfg hplaced.routes h
  have hown : HasOwn (net a) := by
    obtain ⟨e, he, hptr, -⟩ := hplaced.hasLocal
    exact ⟨e, he, hptr⟩
  have hpop : ∀ {t tasks}, (net a).tasks.pop = (some t, tasks) → isEttType t.type = false ∧
      pending (fun t ↦ isEttType t.type) { net a with tasks := tasks } = 0 := by
    intro t tasks hpop
    have hcount := Pending.pending_pop (p := fun t ↦ isEttType t.type) hpop
    rw [hn.ett] at hcount
    by_cases hett : isEttType t.type = true
    · rw [if_pos hett] at hcount
      omega
    · rw [if_neg hett] at hcount
      exact ⟨eq_false_of_ne_true hett, hcount.symm⟩
  refine ⟨by rw [hcfg, hn.metric], ?_, ?_, ?_⟩
  · cases step_neigh h with
    | wait => exact hn.ett
    | idle hidle => rw [Pending.pending_idle (fun _ ↦ isUpkeep_of_isEtt) hidle, hn.ett]
    | signal => rw [Pending.pending_signal, hn.ett]
    | @thread t tasks _ htask hacts =>
      obtain ⟨hett, hrest⟩ := hpop htask
      have hdata := hn.tasks t (ClassQueue.pop_mem htask)
      simp only [Node.step, threadStep, htask] at h
      by_cases hprobe : isProbeType t.type = true
      · rw [idle_of_unprobed hprobe hett hdata] at h
        exact Option.some.inj h ▸ hrest
      · have hle : pending (fun t ↦ isEttType t.type) n ≤
            pending (fun t ↦ isEttType t.type) { net a with tasks := tasks } :=
          pending_ett_acts hn.metric (eq_false_of_ne_true hprobe) hacts
        rw [hrest] at hle
        exact Nat.le_zero.mp hle
  · rcases step_path hplaced.routes h with ⟨t, tasks, rfl, htask, hpath⟩ | hhook
    · intro t' ht'
      rw [(onward_of_path hpath).tasks] at ht'
      exact hn.tasks t' (ClassQueue.pop_subset htask ht')
    · intro t' ht' m hm
      rcases hhook.tasks t' ht' with ht' | ht' | harrival | ⟨-, hnone, -⟩
      · exact hn.tasks t' ht' m hm
      · rw [hplaced.bare t' ht'] at hm
        cases hm
      · obtain ⟨m₀, hdelivered⟩ := delivered_of_arrival hin harrival
        obtain ⟨sec, usec, hdata⟩ := hdelivered.data
        obtain ⟨s, hs, hpay, -⟩ := hdelivered.sent
        obtain rfl := Option.some.inj (hdata.symm.trans hm)
        rw [isEstimate_stamp]
        exact (hall t'.srcIp).sent s hs m₀ hpay
      · rw [hnone] at hm
        cases hm
  · have hquiet : NoEstimates (net a) n := by
      rcases step_path hplaced.routes h with ⟨t, tasks, rfl, htask, -⟩ | hhook
      · simp only [Node.step, threadStep, htask] at h
        exact noEstimates_of_handle (n := { net a with tasks := tasks }) hn.metric hown (hpop htask).1
          (hn.tasks t (ClassQueue.pop_mem htask)) h
      · exact fun s hs ↦ .inl (hhook.sent ▸ hs)
    intro s hs m hm
    rcases hquiet s hs with hs | hnew
    · exact hn.sent s hs m hm
    · exact hnew m hm

end Network

section Stations

variable {net : Network} {b : Ip}

/-- The RREQ of a station for 192.168.1.1. -/
def seekRreq (b : Ip) : Rreq where
  tos := 2
  numHops := 0
  gateway := 0
  dstIp := 0x0101a8c0
  srcIp := b
  dstId := 2
  pathMetric := 0
  dttl := 0

/-- Both of the messages of a station are on their way. -/
def Sought (net : Network) (b : Ip) : Prop :=
  .broadcast 1 (.hello ⟨0, 0, 1, []⟩) ∈ (net b).sent ∧ .broadcast 10 (.rreq (seekRreq b)) ∈ (net b).sent

end Stations

end Fbaodv.Proofs.HopsNetwork
