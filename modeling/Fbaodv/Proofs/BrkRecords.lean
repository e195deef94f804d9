import Fbaodv.Proofs.BrkLists
import Fbaodv.Proofs.NeighLoss

namespace Fbaodv.Proofs.BrkRecords

open Fbaodv.Foundation Fbaodv.Foundation.OrderedList Fbaodv.Foundation.TwoPhase
open Fbaodv.Model Fbaodv.Model.Node
open Fbaodv.Proofs.NodeRun Fbaodv.Proofs.NodeOps Fbaodv.Proofs.BrkListFlush Fbaodv.Proofs.BrkLists
open Fbaodv.Proofs.RoutingInvariant Fbaodv.Proofs.PacketDiscovery Fbaodv.Proofs.NeighLoss

/-- The loop of `flush_brk_list` comes to no link whose time has passed before a
link whose time has not and that it would remove with it. -/
def Spares (now : ℕ) : List BrkLink → Prop
  | [] => True
  | x :: l =>
    if (brkRule now).due x = false then Spares now l
    else if x.state ≠ .invalid then
      match l with
      | y :: _ :: l => (brkRule now).due y = true ∧ Spares now l
      | _ => True
    else
      match l with
      | _ :: l => Spares now l
      | [] => True

/-- A break of the route from `srcIp` to `dstIp` is on record as it should be. -/
structure OnRecord (srcIp dstIp : Ip) (now : ℕ) (l l' : List BrkLink) : Prop where
  own : ∃ x, l'.filter (isBrkLink srcIp dstIp) = [x] ∧ x.state = .active ∧
    x.lifetime = now + brkLinkTimeout
  others : ∀ y ∈ l, brkPair y ≠ (srcIp, dstIp) → (brkRule now).due y = false → y ∈ l'

/-- The link for the pair is absent, with memory for it, or `ACTIVE`, and the
flush comes upon no link whose time has passed before one whose time has not. -/
structure Recordable (srcIp dstIp lastHop lastAvail : Ip) (n : Node) : Prop where
  active : ∀ x ∈ n.brkList, brkPair x = (srcIp, dstIp) → x.state = .active
  memory : (∀ x ∈ n.brkList, brkPair x ≠ (srcIp, dstIp)) → n.kmalloc.next = true
  spares : Spares n.now (recordedLinks srcIp dstIp lastHop lastAvail n)

/-- The last hop that is recorded for the break of a route. -/
def recordedHop (n : Node) (e : AodvRoute) : Ip := if n.replyToRrer e.srcIp then 0 else e.lastHop

variable {n n' : Node} {now : ℕ} {l r : List BrkLink} {x : BrkLink} {srcIp dstIp lastHop lastAvail : Ip}

section Flush

theorem spares_fresh (hx : (brkRule now).due x = false) : Spares now (x :: l) ↔ Spares now l := by
  rw [Spares.eq_def]
  simp [hx]

theorem spares_of_fresh (hl : ∀ x ∈ l, (brkRule now).due x = false) : Spares now l := by
  induction l with
  | nil => trivial
  | cons x l ih =>
    obtain ⟨hx, hl⟩ := List.forall_mem_cons.mp hl
    exact (spares_fresh hx).mpr (ih hl)

theorem spares_expire {y z : BrkLink} (hx : (brkRule now).due x = true) (hr : x.state ≠ .invalid) :
    Spares now (x :: y :: z :: l) ↔ (brkRule now).due y = true ∧ Spares now l := by
  rw [Spares.eq_def]
  simp [hx, hr]

theorem spares_remove {z : BrkLink} (hx : (brkRule now).due x = true) (hr : x.state = .invalid) :
    Spares now (x :: z :: l) ↔ Spares now l := by
  rw [Spares.eq_def]
  simp [hx, hr]

/-- The flush keeps the links whose time has not passed exactly when it spares
them. -/
theorem flush_keeps_iff (hl : (l.map brkPair).Nodup) (h : Flushes now l r) :
    (∀ y ∈ l, (brkRule now).due y = false → y ∈ r) ↔ Spares now l := by
  induction h with
  | nil => exact iff_of_true (fun _ hy ↦ absurd hy List.not_mem_nil) trivial
  | @fresh x l l' hx _ ih =>
    obtain ⟨hnew, hl⟩ := List.nodup_cons.mp hl
    rw [spares_fresh hx, ← ih hl]
    refine ⟨fun h y hy hdue ↦ ?_, fun h y hy hdue ↦ ?_⟩
    · refine (List.mem_cons.mp (h y (List.mem_cons_of_mem _ hy) hdue)).resolve_left ?_
      rintro rfl
      exact hnew (List.mem_map_of_mem hy)
    · rcases List.mem_cons.mp hy with rfl | hy
      · exact List.mem_cons_self
      · exact List.mem_cons_of_mem _ (h y hy hdue)
  | @expire x y z l l' hx hstate hflush ih =>
    simp only [List.map_cons, List.nodup_cons, List.mem_cons, not_or] at hl
    obtain ⟨⟨hxy, hxz, hxl⟩, ⟨hyz, hyl⟩, hzl, hl⟩ := hl
    have hdrop : ∀ w, brkPair w ≠ brkPair x → brkPair w ≠ brkPair z →
        w ∈ expireBrkLink now x :: z :: l' → w ∈ l' := by
      intro w hwx hwz hw
      rcases List.mem_cons.mp hw with rfl | hw
      · exact absurd rfl hwx
      rcases List.mem_cons.mp hw with rfl | hw
      · exact absurd rfl hwz
      · exact hw
    rw [spares_expire hx hstate, ← ih hl]
    refine ⟨fun h ↦ ⟨?_, fun w hw hdue ↦ ?_⟩, fun h w hw hdue ↦ ?_⟩
    · by_contra hdue
      have hy := h y (by simp) (eq_false_of_ne_true hdue)
      exact hflush.not_mem hyl (hdrop y (Ne.symm hxy) hyz hy)
    · have hpair : brkPair w ∈ l.map brkPair := List.mem_map_of_mem hw
      refine hdrop w ?_ ?_ (h w (by simp [hw]) hdue)
      · exact fun heq ↦ hxl (heq ▸ hpair)
      · exact fun heq ↦ hzl (heq ▸ hpair)
    · rcases List.mem_cons.mp hw with rfl | hw
      · rw [hx] at hdue
        cases hdue
      rcases List.mem_cons.mp hw with rfl | hw
      · rw [h.1] at hdue
        cases hdue
      rcases List.mem_cons.mp hw with rfl | hw
      · simp
      · simp [h.2 w hw hdue]
  | @remove x z l l' hx hstate hflush ih =>
    simp only [List.map_cons, List.nodup_cons, List.mem_cons, not_or] at hl
    obtain ⟨-, hzl, hl⟩ := hl
    rw [spares_remove hx hstate, ← ih hl]
    refine ⟨fun h w hw hdue ↦ ?_, fun h w hw hdue ↦ ?_⟩
    · refine (List.mem_cons.mp (h w (by simp [hw]) hdue)).resolve_left ?_
      rintro rfl
      exact hzl (List.mem_map_of_mem hw)
    · rcases List.mem_cons.mp hw with rfl | hw
      · rw [hx] at hdue
        cases hdue
      rcases List.mem_cons.mp hw with rfl | hw
      · simp
      · simp [h w hw hdue]

end Flush

section Record

theorem due_recorded (h : x.lifetime = now + brkLinkTimeout) : (brkRule now).due x = false := by
  have hperiod : 2 * x.lifetime < 2 * now + ulongSize := by
    have hperiod : 2 * brkLinkTimeout < ulongSize := by decide
    omega
  refine Bool.eq_false_iff.mpr fun hdue ↦ ?_
  have hlt : x.lifetime < now := WrapTime.lt_of_before hperiod hdue
  omega

theorem filter_eq_singleton (hl : BrkOrdered l) (hx : x ∈ l) (hpair : brkPair x = (srcIp, dstIp)) :
    l.filter (isBrkLink srcIp dstIp) = [x] := by
  obtain ⟨a, b, rfl⟩ := List.append_of_mem hx
  have hnodup : ((a ++ x :: b).map brkPair).Nodup := hl.distinct
  rw [List.map_append, List.map_cons, List.nodup_middle, List.nodup_cons, ← List.map_append] at hnodup
  have hothers : ∀ y ∈ a ++ b, ¬ isBrkLink srcIp dstIp y = true := by
    intro y hy hmatch
    refine hnodup.1 (hpair ▸ isBrkLink_iff.mp hmatch ▸ List.mem_map_of_mem hy)
  rw [List.filter_append, List.filter_cons_of_pos (isBrkLink_iff.mpr hpair),
    List.filter_eq_nil_iff.mpr fun y hy ↦ hothers y (List.mem_append_left _ hy),
    List.filter_eq_nil_iff.mpr fun y hy ↦ hothers y (List.mem_append_right _ hy), List.nil_append]

theorem mem_recorded_of_ne {y : BrkLink} (hy : brkPair y ≠ (srcIp, dstIp)) :
    y ∈ recordedLinks srcIp dstIp lastHop lastAvail n ↔ y ∈ n.brkList := by
  have hmatch : isBrkLink srcIp dstIp y = false := eq_false_of_ne_true fun h ↦ hy (isBrkLink_iff.mp h)
  unfold recordedLinks
  split
  · refine ⟨fun hmem ↦ (mem_modifyFirst hmem).resolve_right ?_, fun hmem ↦ mem_modifyFirst_of_neg hmem hmatch⟩
    rintro ⟨z, -, hz, rfl⟩
    exact hy (isBrkLink_iff.mp hz)
  · split
    · refine mem_insertBy.trans (or_iff_right ?_)
      rintro rfl
      exact hy rfl
    · exact Iff.rfl

theorem recordedLinks_none (habsent : ∀ x ∈ n.brkList, brkPair x ≠ (srcIp, dstIp))
    (hl : BrkOrdered n.brkList) (hmem : n.kmalloc.next = false) :
    recordedLinks srcIp dstIp lastHop lastAvail n = n.brkList := by
  unfold recordedLinks
  split
  · next x hfind =>
    obtain ⟨hx, hpair⟩ := hl.find_iff.mp hfind
    exact absurd hpair (habsent x hx)
  · rw [if_neg (by simp [hmem])]

/-- With a link for the pair or memory for a new one there is a link for the pair
whose time runs from now. -/
theorem exists_recorded (lastHop lastAvail : Ip) (hl : BrkOrdered n.brkList)
    (h : (∀ x ∈ n.brkList, brkPair x ≠ (srcIp, dstIp)) → n.kmalloc.next = true) :
    ∃ own ∈ recordedLinks srcIp dstIp lastHop lastAvail n, brkPair own = (srcIp, dstIp) ∧
      own.lifetime = n.now + brkLinkTimeout ∧
      (own.state = .active ↔ ∀ x ∈ n.brkList, brkPair x = (srcIp, dstIp) → x.state = .active) := by
  unfold recordedLinks
  cases hfind : n.findBrkLink srcIp dstIp with
  | none =>
    have habsent := hl.find_none hfind
    dsimp only
    rw [if_pos (h habsent)]
    exact ⟨_, mem_insertBy.mpr (.inl rfl), rfl, rfl,
      ⟨fun _ x hx hpair ↦ absurd hpair (habsent x hx), fun _ ↦ rfl⟩⟩
  | some x =>
    obtain ⟨hx, hpair⟩ := hl.find_iff.mp hfind
    rw [hl.find_eq] at hfind
    have hfind' := find?_modifyFirst (p := isBrkLink srcIp dstIp)
      (f := fun x ↦ { x with lifetime := n.now + brkLinkTimeout }) (fun _ ↦ rfl) n.brkList
    refine ⟨_, List.mem_of_find?_eq_some (hfind'.trans (congrArg _ hfind)), hpair, rfl,
      ⟨fun hstate y hy hypair ↦ ?_, fun hall ↦ hall x hx hpair⟩⟩
    exact hl.eq_of_pair hy hx (hypair.trans hpair.symm) ▸ hstate

theorem onRecord_iff (hl : BrkOrdered n.brkList)
    (h : n.recordBrkLink srcIp dstIp lastHop lastAvail = some n') :
    OnRecord srcIp dstIp n.now n.brkList n'.brkList ↔ Recordable srcIp dstIp lastHop lastAvail n := by
  have hflush := flushes_of_some (recordBrkLink_frame h).1
  have hrec : BrkOrdered (recordedLinks srcIp dstIp lastHop lastAvail n) := hl.recorded
  have hkeeps := flush_keeps_iff hrec.distinct hflush
  constructor
  · rintro ⟨⟨x, hx, hstate, hlife⟩, hothers⟩
    obtain ⟨hmem, hmatch⟩ := List.mem_filter.mp (hx ▸ List.mem_singleton_self x)
    have hpair := isBrkLink_iff.mp hmatch
    have hmem' : x ∈ recordedLinks srcIp dstIp lastHop lastAvail n := by
      refine (hflush.mem hmem).resolve_right ?_
      rintro ⟨y, -, rfl⟩
      cases hstate
    have hmemory : (∀ x ∈ n.brkList, brkPair x ≠ (srcIp, dstIp)) → n.kmalloc.next = true := by
      intro habsent
      by_contra hnone
      rw [recordedLinks_none habsent hl (eq_false_of_ne_true hnone)] at hmem'
      exact habsent x hmem' hpair
    refine ⟨?_, hmemory, hkeeps.mp fun y hy hdue ↦ ?_⟩
    · obtain ⟨own, hown, hownPair, -, hiff⟩ := exists_recorded lastHop lastAvail hl hmemory
      exact hiff.mp (hrec.eq_of_pair hown hmem' (hownPair.trans hpair.symm) ▸ hstate)
    · by_cases hy' : brkPair y = (srcIp, dstIp)
      · exact hrec.eq_of_pair hmem' hy (hpair.trans hy'.symm) ▸ hmem
      · exact hothers y ((mem_recorded_of_ne hy').mp hy) hy' hdue
  · rintro ⟨hactive, hmemory, hspares⟩
    have hall := hkeeps.mpr hspares
    obtain ⟨own, hown, hownPair, hlife, hiff⟩ := exists_recorded lastHop lastAvail hl hmemory
    refine ⟨⟨own, ?_, hiff.mpr hactive, hlife⟩, fun y hy hne hdue ↦ ?_⟩
    · exact filter_eq_singleton (hl.record h) (hall own hown (due_recorded hlife)) hownPair
    · exact hall y ((mem_recorded_of_ne hne).mpr hy) hdue

theorem onRecord_iff_of_sent {sent : List Sent} (hl : BrkOrdered n.brkList)
    (h : recordBrkLink srcIp dstIp lastHop lastAvail { n with sent := sent } = some n') :
    OnRecord srcIp dstIp n.now n.brkList n'.brkList ↔ Recordable srcIp dstIp lastHop lastAvail n := by
  have hiff : _ ↔ Recordable srcIp dstIp lastHop lastAvail { n with sent := sent } :=
    onRecord_iff (n := { n with sent := sent }) hl h
  exact hiff.trans ⟨fun h ↦ ⟨h.active, h.memory, h.spares⟩, fun h ↦ ⟨h.active, h.memory, h.spares⟩⟩

theorem genRerrRoute_record {e : AodvRoute} (hstate : e.state ≠ .invalid)
    (h : n.genRerrRoute e = some (true, n')) : ∃ sent n₁,
      recordBrkLink e.srcIp e.dstIp (recordedHop n e) n.lastAvail
        { (if n.replyToRrer e.srcIp then n else n.alloc.2) with sent := sent } = some n₁ ∧
      n₁.brkList = n'.brkList := by
  unfold genRerrRoute at h
  unfold recordedHop
  split at h
  · next hreply =>
    have hreply : ¬ n.replyToRrer e.srcIp = true := by simpa using hreply
    rw [if_neg hreply, if_neg hreply]
    dsimp only at h
    split at h
    · simp at h
    · obtain ⟨n₁, hrecord, h⟩ := Option.bind_eq_some_iff.mp h
      simp only [Option.some.injEq, Prod.mk.injEq, true_and] at h
      rw [notify_eq, sendMessage_eq] at hrecord
      exact ⟨_, n₁, hrecord, h ▸ rfl⟩
  · next hreply =>
    have hreply : n.replyToRrer e.srcIp = true := by simpa using hreply
    obtain ⟨n₁, hrecord, h⟩ := Option.bind_eq_some_iff.mp h
    simp only [Option.some.injEq, Prod.mk.injEq, true_and] at h
    rw [notify_eq] at hrecord
    rw [if_pos hreply, if_pos hreply]
    exact ⟨_, n₁, hrecord, h ▸ rfl⟩

/-- For every list of broken links and every usable route that `gen_rerr` or
`recv_rerr` tears down: the break is on record afterwards exactly when it was
recordable. -/
theorem recorded_breaks_live_iff {e : AodvRoute} (hl : BrkOrdered n.brkList) (hstate : e.state ≠ .invalid) :
    (∀ n', n.genRerrRoute e = some (true, n') →
      (OnRecord e.srcIp e.dstIp n.now n.brkList n'.brkList ↔
        Recordable e.srcIp e.dstIp (recordedHop n e) n.lastAvail
          (if n.replyToRrer e.srcIp then n else n.alloc.2))) ∧
    ∀ (m : Rerr) (firstDtn : Bool) (n' : Node), n.recvRerrRoute m firstDtn e = some n' →
      (OnRecord e.srcIp e.dstIp n.now n.brkList n'.brkList ↔
        Recordable e.srcIp e.dstIp (recordedHop n e) (if firstDtn then n.cfg.gMeshIp
          else if n.replyToRrer e.srcIp then 0 else m.lastAvailIp) n) := by
  refine ⟨fun n' h ↦ ?_, fun m firstDtn n' h ↦ ?_⟩
  · obtain ⟨sent, n₁, hrecord, hbrk⟩ := genRerrRoute_record hstate h
    generalize hk : (if n.replyToRrer e.srcIp = true then n else n.alloc.2) = k at hrecord ⊢
    obtain ⟨hbrk', hnow⟩ : k.brkList = n.brkList ∧ k.now = n.now := by
      rw [← hk]
      split
      · exact ⟨rfl, rfl⟩
      · exact ⟨rfl, rfl⟩
    have hl' : BrkOrdered k.brkList := hbrk' ▸ hl
    rw [← hbrk, ← hbrk', ← hnow]
    exact onRecord_iff_of_sent hl' hrecord
  · unfold recvRerrRoute at h
    unfold recordedHop
    split at h
    · next hreply =>
      have hreply : ¬ n.replyToRrer e.srcIp = true := by simpa using hreply
      rw [if_neg hreply, if_neg hreply]
      dsimp only at h
      rw [sendMessage_eq] at h
      exact onRecord_iff_of_sent hl h
    · next hreply =>
      have hreply : n.replyToRrer e.srcIp = true := by simpa using hreply
      rw [if_pos hreply, if_pos hreply]
      exact onRecord_iff hl h

/-- A usable route of 192.168.1.7 to 192.168.1.9. -/
def usableRoute : AodvRoute := { freshEntry 1 0x0701a8c0 0x0901a8c0 0 5 0 with state := .active }

/-- The breaks of three flows, of which the one in the middle is of that route. -/
def earlierBreaks : List BrkLink :=
  [newBrkLink 0x0701a8c0 0x0801a8c0 0x0201a8c0 0 0, newBrkLink 0x0701a8c0 0x0901a8c0 0x0201a8c0 0 500,
    newBrkLink 0x0801a8c0 0x0a01a8c0 0x0201a8c0 0 900]

/-- A station that has recorded them in the last 20 seconds. -/
def recordingStation : Node := { metStation with now := 20000, brkList := earlierBreaks }

/-- The break is recorded anew, whether the station has found it or has heard of
it, and those of the other flows stay. -/
theorem recorded_breaks_live_iff_first : ∃ n₁ n₂,
    recordingStation.genRerrRoute usableRoute = some (true, n₁) ∧
    recordingStation.recvRerrRoute ⟨0, 0x0901a8c0, 5, 0, 0x0701a8c0⟩ false usableRoute = some n₂ ∧
    OnRecord 0x0701a8c0 0x0901a8c0 20000 earlierBreaks n₁.brkList ∧
    OnRecord 0x0701a8c0 0x0901a8c0 20000 earlierBreaks n₂.brkList := by
  have hsorted : (earlierBreaks.map brkKey).Pairwise (· ≤ ·) := by decide
  have hl : BrkOrdered recordingStation.brkList := ⟨List.pairwise_map.mp hsorted, by decide⟩
  have hrun₁ : (recordingStation.genRerrRoute usableRoute).map Prod.fst = some true := by decide +kernel
  have hrun₂ : (recordingStation.recvRerrRoute ⟨0, 0x0901a8c0, 5, 0, 0x0701a8c0⟩ false usableRoute).isSome = true := by
    decide +kernel
  obtain ⟨⟨go, n₁⟩, hroute₁, rfl⟩ := Option.map_eq_some_iff.mp hrun₁
  obtain ⟨n₂, hroute₂⟩ := Option.isSome_iff_exists.mp hrun₂
  have hactive : ∀ x ∈ earlierBreaks, brkPair x = (0x0701a8c0, 0x0901a8c0) → x.state = .active := by decide
  obtain ⟨hfound, hheard⟩ := recorded_breaks_live_iff (e := usableRoute) hl (by decide)
  refine ⟨n₁, n₂, hroute₁, hroute₂, (hfound n₁ hroute₁).mpr ?_, (hheard _ false n₂ hroute₂).mpr ?_⟩
  · exact ⟨hactive, fun _ ↦ rfl, spares_of_fresh (by decide +kernel)⟩
  · exact ⟨hactive, fun _ ↦ rfl, spares_of_fresh (by decide +kernel)⟩

/-- The neighbour 192.168.1.2 asks for a route from `srcIp` to 192.168.1.7. -/
def hearFlow (srcIp : Ip) : List Event :=
  [.input (heard 0x0201a8c0 (.rreq
    { tos := 0
      numHops := 0
      gateway := 0
      dstIp := 0x0701a8c0
      srcIp := srcIp
      dstId := 5
      pathMetric := 0
      dttl := 0 })), .thread]

/-- The neighbour reports that route as broken. -/
def loseFlow (dstIp : Ip) : List Event :=
  [.input (heard 0x0201a8c0 (.rerr ⟨0, dstIp, 5, 0, 0x0701a8c0⟩)), .thread]

/-- The break of 192.168.1.8 is due and that of 192.168.1.10 is not when the route
to 192.168.1.9 breaks. -/
def breaks : List Event :=
  meetNeigh ++ hearFlow 0x0801a8c0 ++ loseFlow 0x0801a8c0 ++ [.wait 1000] ++ hearFlow 0x0a01a8c0 ++
    loseFlow 0x0a01a8c0 ++ [.wait 59500] ++ hearFlow 0x0901a8c0

/-- The new link is removed in place of the one that is due. -/
theorem breaks_forgotten : ¬ ∀ (n n' : Node) (e : AodvRoute) (m : Rerr), Reachable n →
    e ∈ n.routing.table → e.state ≠ .invalid → n.recvRerrRoute m false e = some n' →
    OnRecord e.srcIp e.dstIp n.now n.brkList n'.brkList := by
  intro h
  have hrun : ((runs breaks station).bind fun n ↦
      (n.routing.table.find? fun e ↦ e.dstIp == 0x0901a8c0).bind fun e ↦
        (n.recvRerrRoute ⟨0, 0x0901a8c0, 5, 0, 0x0701a8c0⟩ false e).map fun n' ↦
          e.state != .invalid && n'.brkList.filter (isBrkLink e.srcIp e.dstIp) == []) = some true := by
    decide +kernel
  obtain ⟨n, hn, hrun⟩ := Option.bind_eq_some_iff.mp hrun
  obtain ⟨e, he, hrun⟩ := Option.bind_eq_some_iff.mp hrun
  obtain ⟨n', hn', hp⟩ := Option.map_eq_some_iff.mp hrun
  obtain ⟨hstate, hnone⟩ : e.state ≠ .invalid ∧ n'.brkList.filter (isBrkLink e.srcIp e.dstIp) = [] := by
    simpa only [Bool.and_eq_true, beq_iff_eq, bne_iff_ne] using hp
  have hstart : Reachable station := .init trivial
  have hreach : Reachable n := hstart.of_runs hn
  obtain ⟨x, hx, -⟩ := (h n n' e _ hreach (List.mem_of_find?_eq_some he) hstate hn').own
  rw [hnone] at hx
  cases hx

end Record

end Fbaodv.Proofs.BrkRecords
