import Fbaodv.Foundation.Tickets
import Fbaodv.Proofs.NetRuns
import Fbaodv.Proofs.OrphanRoutes

namespace Fbaodv.Proofs.OwnNumber

open Fbaodv.Model Fbaodv.Model.Node Fbaodv.Foundation Fbaodv.Foundation.Tickets
open Fbaodv.Proofs.RouteFrame Fbaodv.Proofs.RoutingInvariant Fbaodv.Proofs.NodeRun
open Fbaodv.Proofs.NetOps Fbaodv.Proofs.NetPaths Fbaodv.Proofs.NetRuns
open Fbaodv.Proofs.PacketDiscovery Fbaodv.Proofs.NeighLoss

/-- The `dst_id` of a message that the node builds in a task of the type: an RREQ
of `gen_rreq` or `resend_rreq`, an RREP of `gen_rrep`, an ST-RREQ of
`gen_st_rreq`. What it passes on is not its own. -/
def ownNumber (type : TaskType) (s : Sent) : Option UInt32 :=
  match payload s with
  | some (.rreq m) => if isSeekType type then some m.dstId else none
  | some (.rrep m) => if type == .sendRrep then some m.dstId else none
  | some (.strreq m) => if type == .st then some m.dstId else none
  | _ => none

/-- The type of the task that a step takes. -/
def taskOf (n : Node) : Event → Option TaskType
  | .thread => n.tasks.pop.1.map Task.type
  | _ => none

/-- The numbers of the node's own messages of a step, in the order in which they
are sent. -/
def ownNumbers (n : Node) (e : Event) (n' : Node) : List UInt32 :=
  match taskOf n e with
  | some type => (n'.sent.drop n.sent.length).filterMap (ownNumber type)
  | none => []

/-- How often a step calls `gen_rrep`. -/
def answersOf (n : Node) (e : Event) : ℕ := if taskOf n e = some .sendRrep then 1 else 0

/-- The task is an RREP of a neighbour for which `rreq_aodv_route` finds
`g_local_route` and gives it up. -/
def OverwritesSelf (n : Node) (t : Task) : Prop :=
  ∃ m x e, t.type = .recvRrep ∧ t.data = some (.rrep m) ∧ n.findAodvNeigh t.srcIp = some x ∧
    n.routing.findAodvRoute m.srcIp m.dstIp m.tos = some e ∧ e.ptr = n.routing.localRoute ∧
    GivesWay n.cfg n.routing ⟨m.srcIp, m.dstIp, m.tos, x, m.numHops + 1, m.dstId, m.pathMetric⟩ e

/-- The task makes a gateway build an ST-RREQ from another route to itself than
`g_local_route`. -/
def CountsOther (n : Node) (t : Task) : Prop :=
  t.type = .st ∧ n.cfg.gAodvGateway = true ∧ n.kmalloc.next = true ∧
    ∃ e, n.routing.findAodvRoute n.cfg.gMeshIp n.cfg.gMeshIp 0 = some e ∧ e.ptr ≠ n.routing.localRoute

/-- The step takes no such task. -/
def Intact (n : Node) (e : Event) : Prop :=
  ∀ t tasks, e = .thread → n.tasks.pop = (some t, tasks) → ¬ OverwritesSelf n t ∧ ¬ CountsOther n t

/-- A run whose steps are intact, with the number of calls of `gen_rrep` and the
numbers of the node's own messages. -/
inductive OwnRun : ℕ → List UInt32 → Node → Prop
  | init (cfg : Config) (env : Environment) : OwnRun 0 [] (Node.init cfg env)
  | step {answers : ℕ} {nums : List UInt32} {n n' : Node} {e : Event} (h : OwnRun answers nums n)
      (hintact : Intact n e) (hs : n.step e = some n') :
      OwnRun (answers + answersOf n e) (nums ++ ownNumbers n e n') n'

/-- `g_local_route` has this number and this next hop. -/
def LocalIs (r : Routing) (dstId : UInt32) (nextHop : Ip) : Prop :=
  ∀ e ∈ r.table, e.ptr = r.localRoute → e.dstId = dstId ∧ e.nextHop = nextHop

section Tables

variable {cfg : Config} {r r' : Routing} {c : UInt32} {ip : Ip}

theorem LocalIs.soft (hr : LocalIs r c ip) (h : Soft r r') : LocalIs r' c ip := by
  intro e' he' hptr
  obtain ⟨e, he, _, _, _, _, rfl⟩ := Pointwise.exists_of_mem_right h.entries he'
  exact hr e he (hptr.trans h.localRoute)

theorem LocalIs.inserts {new : AodvRoute} (hwf : WellFormed cfg r) (hr : LocalIs r c ip)
    (h : Inserts new r r') : LocalIs r' c ip := by
  intro e he hptr
  rw [h.localRoute] at hptr
  rcases h.mem.mp he with rfl | he
  · have hlt := hwf.localFresh
    rw [h.ptr] at hptr
    omega
  · exact hr e he hptr

theorem LocalIs.modifyOther {ptr : ℕ} {f : AodvRoute → AodvRoute} (hr : LocalIs r c ip)
    (hf : ∀ e, (f e).ptr = e.ptr) (hptr : ptr ≠ r.localRoute) : LocalIs (r.modifyAt ptr f) c ip := by
  intro e' he' hlocal
  obtain ⟨e, he, rfl⟩ := List.mem_map.mp he'
  split at hlocal
  · next hsame =>
    rw [hf] at hlocal
    exact absurd (hsame.symm.trans hlocal) hptr
  · next hsame =>
    rw [if_neg hsame]
    exact hr e he hlocal

theorem LocalIs.count {ptr : ℕ} (hr : LocalIs r c ip) (hptr : ptr = r.localRoute) :
    LocalIs (r.modifyAt ptr fun e ↦ { e with dstId := e.dstId + 1 }) (c + 1) ip := by
  intro e' he' hlocal
  obtain ⟨e, he, rfl⟩ := List.mem_map.mp he'
  split at hlocal
  · next hsame =>
    rw [if_pos hsame]
    obtain ⟨hc, hip⟩ := hr e he (hsame.trans hptr)
    exact ⟨congrArg (· + 1) hc, hip⟩
  · next hsame => exact absurd (hlocal.trans hptr.symm) hsame

theorem LocalIs.flush {now : ℕ} (hr : LocalIs r c ip) :
    LocalIs (r.flushAodvRouteTable cfg now) c ip := by
  obtain ⟨hlocal, hall⟩ := flush_entries cfg now r
  intro e' he' hptr
  obtain ⟨e, he, _, _, _, _, rfl⟩ := hall e' he'
  exact hr e he (hptr.trans hlocal)

theorem LocalIs.write {now : ℕ} {heard : HeardRoute} {ok : Bool} (hwf : WellFormed cfg r)
    (hr : LocalIs r c ip) (h : RouteWrite cfg now r heard ok r')
    (hother : ∀ e, r.findAodvRoute heard.srcIp heard.dstIp heard.tos = some e →
      GivesWay cfg r heard e → e.ptr ≠ r.localRoute) : LocalIs r' c ip := by
  cases h with
  | kept hs => exact hr.soft hs
  | unlisted _ hins hs | created _ hins hs => exact (hr.inserts hwf hins).soft hs
  | @replaced _ e hfind hgives hs =>
    have hupdated : LocalIs (r.modifyAt e.ptr (rreqUpdate now heard.nextHop.ip heard.hops heard.dstId
        heard.pathMetric)) c ip := hr.modifyOther (fun _ ↦ rfl) (hother e hfind hgives)
    exact hupdated.soft hs

theorem localDstId_of_localIs {n : Node} (hlocal : HasLocal n.routing) (hn : LocalIs n.routing c ip) :
    n.localDstId = some c := by
  obtain ⟨e, he, hptr, -⟩ := hlocal
  cases hat : n.routing.entryAt n.routing.localRoute with
  | none => exact absurd hptr (by simpa using List.find?_eq_none.mp hat e he)
  | some e' =>
    obtain ⟨hmem, hptr'⟩ := entryAt_mem hat
    rw [localDstId, hat]
    exact congrArg some (hn e' hmem hptr').1

theorem eq_of_localDstId {n : Node} {dstId : UInt32} (hn : LocalIs n.routing c ip)
    (h : n.localDstId = some dstId) : dstId = c := by
  obtain ⟨e, hat, rfl⟩ := Option.map_eq_some_iff.mp h
  obtain ⟨hmem, hptr⟩ := entryAt_mem hat
  exact (hn e hmem hptr).1

end Tables

section Handlers

variable {n₀ n n' : Node} {t : Task} {k k' : ℕ} {ip : Ip}

/-- The counter goes from `k` to `k'` while the node's own messages take numbers
from it, and at most `spare` of them stay unused. -/
structure Advance (type : TaskType) (ip : Ip) (spare : ℕ) (n : Node) (k : ℕ) (n' : Node) (k' : ℕ) :
    Prop where
  counter : LocalIs n'.routing (.ofNat k') ip
  numbers : ∃ l, n'.sent = n.sent ++ l ∧ Draws UInt32.ofNat k k' (l.filterMap (ownNumber type)) ∧
    k' ≤ k + (l.filterMap (ownNumber type)).length + spare

theorem Advance.refl (hn : LocalIs n.routing (.ofNat k) ip) : Advance t.type ip 0 n k n k :=
  ⟨hn, [], (List.append_nil _).symm, .refl _ _, le_rfl⟩

theorem Advance.trans {type : TaskType} {s s' k'' : ℕ} {n'' : Node} (h : Advance type ip s n k n' k')
    (h' : Advance type ip s' n' k' n'' k'') : Advance type ip (s + s') n k n'' k'' := by
  obtain ⟨l, hl, hdraws, hle⟩ := h.numbers
  obtain ⟨l', hl', hdraws', hle'⟩ := h'.numbers
  refine ⟨h'.counter, l ++ l', by rw [hl', hl, List.append_assoc], ?_, ?_⟩
  · rw [List.filterMap_append]
    exact hdraws.trans hdraws'
  · rw [List.filterMap_append, List.length_append]
    omega

theorem ownNumber_of_routeless {type : TaskType} {s : Sent} (h : isRouteless s) (htype : type ≠ .st) :
    ownNumber type s = none := by
  cases s with
  | toDtn => rfl
  | broadcast ttl m | unicast dst ttl m =>
    cases m with
    | rreq | rrep => exact h.elim
    | strreq => simp [ownNumber, payload, htype]
    | _ => rfl

theorem Advance.of_none {type : TaskType} {l : List Sent} (hn : LocalIs n'.routing (.ofNat k) ip)
    (hl : n'.sent = n.sent ++ l) (hnone : ∀ s ∈ l, ownNumber type s = none) :
    Advance type ip 0 n k n' k := by
  have hnil : l.filterMap (ownNumber type) = [] := List.filterMap_eq_nil_iff.mpr hnone
  refine ⟨hn, l, hl, ?_, ?_⟩
  · rw [hnil]
    exact .refl _ _
  · omega

theorem advance_silent {type : TaskType} (htype : type ≠ .st) (hn : LocalIs n.routing (.ofNat k) ip)
    (h : Silent n n') : Advance type ip 0 n k n' k := by
  obtain ⟨l, hl, hall⟩ := h.sent
  exact .of_none (hn.soft h.routing) hl fun s hs ↦ ownNumber_of_routeless (hall s hs) htype

theorem Advance.of_one {type : TaskType} {s : Sent} (hn : LocalIs n'.routing (.ofNat k + 1) ip)
    (hs : n'.sent = n.sent ++ [s]) (hnumber : ownNumber type s = some (.ofNat k + 1)) :
    Advance type ip 0 n k n' (k + 1) := by
  have hnext : UInt32.ofNat (k + 1) = .ofNat k + 1 := UInt32.ofNat_add k 1
  have hnums : [s].filterMap (ownNumber type) = [UInt32.ofNat (k + 1)] := by
    rw [hnext]
    simp [hnumber]
  refine ⟨hnext ▸ hn, [s], hs, ?_, ?_⟩
  · rw [hnums]
    exact .one _ k
  · rw [hnums]
    exact le_rfl

theorem Advance.of_spare {type : TaskType} (hn : LocalIs n'.routing (.ofNat k + 1) ip)
    (hs : n'.sent = n.sent) : Advance type ip 1 n k n' (k + 1) := by
  have hnext : UInt32.ofNat (k + 1) = .ofNat k + 1 := UInt32.ofNat_add k 1
  exact ⟨hnext ▸ hn, [], by rw [hs, List.append_nil], .of_le _ (Nat.le_succ k), le_rfl⟩

/-- Only an RREP can reach `g_local_route`. -/
theorem ptr_ne_of_call {r : Routing} {c : HeardRoute} {e : AodvRoute} (hr : WellFormed n₀.cfg r)
    (h : RouteCall n₀ t r c) (hkept : ¬ OverwritesSelf n₀ t)
    (hfind : r.findAodvRoute c.srcIp c.dstIp c.tos = some e) (hgives : GivesWay n₀.cfg r c e) :
    e.ptr ≠ r.localRoute := by
  intro hptr
  obtain ⟨hmem, hkey⟩ := findAodvRoute_some hfind
  obtain ⟨hsrc, hdst⟩ := hr.localEntry e hmem hptr
  cases h with
  | rreq _ _ hcall => exact hcall.source (hdst.symm.trans hkey.2.1)
  | rrepSource htype hdata hx => exact hkept ⟨_, _, e, htype, hdata, hx, hfind, hptr, hgives⟩
  | @rrepForward m _ _ _ _ _ _ _ hsource =>
    have hown : m.srcIp = n₀.cfg.gMeshIp := hkey.1.symm.trans hsrc
    simp [isRrepSource, hown] at hsource

theorem advance_of_op (h : NetOp n₀ t n n') (hcfg : n.cfg = n₀.cfg) (hst : t.type ≠ .st)
    (hanswer : t.type ≠ .sendRrep) (hkept : ¬ OverwritesSelf n₀ t)
    (hn : LocalIs n.routing (.ofNat k) ip) : ∃ k', Advance t.type ip 0 n k n' k' := by
  cases h with
  | silent h => exact ⟨k, advance_silent hst hn h⟩
  | flood hname h _ hdstId hm =>
    refine ⟨k + 1, .of_one ?_ h.sent ?_⟩
    · rw [h.routing]
      exact hn.count rfl
    · simp [ownNumber, payload, hname.1, hm.1, eq_of_localDstId hn hdstId]
  | create h _ _ hr => exact ⟨k, .of_none (hn.inserts hr h) (List.append_nil _).symm nofun⟩
  | route hcall hr h =>
    refine ⟨k, .of_none (hn.write hr h fun e hfind hgives ↦ ?_) (List.append_nil _).symm nofun⟩
    rw [hcfg] at hr hgives
    exact ptr_ne_of_call hr hcall hkept hfind hgives
  | forward _ htype =>
    exact ⟨k, .of_none hn rfl (by simp [ownNumber, payload, htype, isSeekType])⟩
  | await => exact ⟨k, .of_none hn (List.append_nil _).symm nofun⟩
  | bump htype => exact absurd htype hanswer
  | answer htype => exact absurd htype hanswer
  | relay _ htype => exact ⟨k, .of_none hn rfl (by simp [ownNumber, payload, htype])⟩
  | flush => exact ⟨k, .of_none hn.flush (List.append_nil _).symm nofun⟩
  | strreq htype => exact absurd htype hst

theorem advance_of_path (h : NetPath n₀ t n₀ n) (hst : t.type ≠ .st) (hanswer : t.type ≠ .sendRrep)
    (hkept : ¬ OverwritesSelf n₀ t) (hn : LocalIs n₀.routing (.ofNat k) ip) :
    ∃ k', Advance t.type ip 0 n₀ k n k' := by
  induction h with
  | refl => exact ⟨k, .refl hn⟩
  | tail hpath hop ih =>
    obtain ⟨k₁, h₁⟩ := ih
    obtain ⟨k', h'⟩ := advance_of_op hop (onward_of_path hpath).cfg hst hanswer hkept h₁.counter
    exact ⟨k', h₁.trans h'⟩

theorem advance_answered {e : AodvRoute} {m : Rrep} (htype : t.type = .sendRrep)
    (hn : LocalIs n.routing (.ofNat k) ip) (h : Answered n t e m n') :
    Advance t.type ip 1 n k n' (k + 1) := by
  have hcount : LocalIs n'.routing (.ofNat k + 1) ip := (hn.count rfl).soft h.routing
  obtain ⟨dstId, hdstId, hm⟩ := h.number
  rcases h.sent with hs | hs
  · exact .of_spare hcount hs
  · obtain ⟨hcounter, l, hl, hdraws, hle⟩ : Advance t.type ip 0 n k n' (k + 1) := .of_one hcount hs
      (by simp [ownNumber, payload, htype, hm, eq_of_localDstId hn hdstId])
    exact ⟨hcounter, l, hl, hdraws, Nat.le_succ_of_le hle⟩

theorem advance_genRrep (hr : WellFormed n.cfg n.routing) (htype : t.type = .sendRrep)
    (hn : LocalIs n.routing (.ofNat k) ip) (h : n.genRrep t.srcIp t.dstIp t.tos = some n') :
    ∃ k', Advance t.type ip 2 n k n' k' := by
  have hst : t.type ≠ .st := by simp [htype]
  have hbump : ∀ {n : Node}, LocalIs n.routing (.ofNat k) ip →
      Advance t.type ip 1 n k n.bumpLocalDstId (k + 1) := fun hn ↦ .of_spare (hn.count rfl) rfl
  have hspare : ∀ {s k' : ℕ}, s ≤ 2 → Advance t.type ip s n k n' k' → Advance t.type ip 2 n k n' k' :=
    fun hs ⟨hcounter, l, hl, hdraws, hle⟩ ↦ ⟨hcounter, l, hl, hdraws, by omega⟩
  cases genRrep_ops hr htype h with
  | silent h => exact ⟨k, hspare (by omega) (advance_silent hst hn h)⟩
  | refused h h' =>
    have h₁ := advance_silent hst hn h
    have h₂ := h₁.trans (hbump h₁.counter)
    exact ⟨k + 1, hspare (by omega) (h₂.trans (advance_silent hst h₂.counter h'))⟩
  | answered h _ h' =>
    have h₁ := advance_silent hst hn h
    exact ⟨k + 1, hspare (by omega) (h₁.trans (advance_answered htype h₁.counter h'))⟩
  | @copied n₁ new e r m h hcopy _ _ hr' _ h' =>
    have h₁ := advance_silent hst hn h
    have h₂ := h₁.trans (hbump h₁.counter)
    have hcopied : Advance t.type ip 0 n₁.bumpLocalDstId (k + 1)
        { n₁.bumpLocalDstId with routing := r } (k + 1) :=
      .of_none (h₂.counter.inserts hr' hcopy) (List.append_nil _).symm nofun
    have h₃ := h₂.trans hcopied
    exact ⟨k + 2, hspare (by omega) (h₃.trans (advance_answered htype h₃.counter h'))⟩

theorem advance_genStRreq (htype : t.type = .st) (hother : ¬ CountsOther n t)
    (hn : LocalIs n.routing (.ofNat k) ip) (h : n.genStRreq = some n') :
    ∃ k', Advance t.type ip 0 n k n' k' := by
  unfold genStRreq at h
  split at h
  · exact ⟨k, Option.some.inj h ▸ .refl hn⟩
  next hgateway =>
  have hsame : Advance t.type ip 0 n k n.alloc.2 k := .of_none hn (List.append_nil _).symm nofun
  dsimp only at h
  split at h
  · exact ⟨k, Option.some.inj h ▸ hsame⟩
  next hmemory =>
  split at h
  · exact ⟨k, Option.some.inj h ▸ hsame⟩
  next e hfind =>
  have hptr : e.ptr = n.routing.localRoute := by
    by_contra hptr
    exact hother ⟨htype, by simpa using hgateway, by simpa [alloc] using hmemory, e, hfind, hptr⟩
  obtain ⟨hdstId, -⟩ := hn e (findAodvRoute_some hfind).1 hptr
  obtain rfl := Option.some.inj h
  refine ⟨k + 1, .of_one (hn.count hptr) rfl ?_⟩
  simp [ownNumber, payload, htype, hdstId]

end Handlers

section Runs

variable {n n' : Node} {e : Event} {a : Ip} {k answers : ℕ} {nums : List UInt32}

theorem advance_handle {t : Task} (hr : WellFormed n.cfg n.routing) (hkept : ¬ OverwritesSelf n t)
    (hother : ¬ CountsOther n t) (hn : LocalIs n.routing (.ofNat k) a) (h : n.handle t = some n') :
    ∃ k', Advance t.type a (if t.type = .sendRrep then 2 else 0) n k n' k' := by
  by_cases hanswer : t.type = .sendRrep
  · rw [if_pos hanswer]
    rw [handle, hanswer] at h
    exact advance_genRrep hr hanswer hn h
  rw [if_neg hanswer]
  by_cases hst : t.type = .st
  · rw [handle, hst] at h
    exact advance_genStRreq hst hother hn h
  · exact advance_of_path (handle_path hr h) hst hanswer hkept hn

theorem step_counts (hr : WellFormed n.cfg n.routing) (hintact : Intact n e)
    (hn : LocalIs n.routing (.ofNat k) a) (hs : n.step e = some n') :
    ∃ k', LocalIs n'.routing (.ofNat k') a ∧ Draws UInt32.ofNat k k' (ownNumbers n e n') ∧
      k' ≤ k + (ownNumbers n e n').length + 2 * answersOf n e := by
  by_cases hthread : e = .thread ∧ n.tasks.pop.1.isSome = true
  · obtain ⟨rfl, hsome⟩ := hthread
    obtain ⟨t, ht⟩ := Option.isSome_iff_exists.mp hsome
    obtain ⟨tasks, hpop⟩ : ∃ tasks, n.tasks.pop = (some t, tasks) := ⟨_, Prod.ext ht rfl⟩
    obtain ⟨hkept, hother⟩ := hintact t n.tasks.pop.2 rfl (Prod.ext ht rfl)
    simp only [step, threadStep, hpop] at hs
    obtain ⟨k', hcounter, l, hl, hdraws, hle⟩ :=
      advance_handle (n := { n with tasks := tasks }) hr hkept hother hn hs
    have hl : n'.sent = n.sent ++ l := hl
    have htask : taskOf n .thread = some t.type := by simp [taskOf, ht]
    have hnums : ownNumbers n .thread n' = l.filterMap (ownNumber t.type) := by
      simp [ownNumbers, htask, hl]
    refine ⟨k', hcounter, hnums ▸ hdraws, ?_⟩
    rw [hnums, answersOf, htask]
    simp only [Option.some.injEq]
    split at hle
    · next htype => simpa only [htype, if_true] using hle
    · next htype => simpa only [htype, if_false] using hle
  · have hnone : taskOf n e = none := by
      cases e with
      | thread => simpa [taskOf] using hthread
      | _ => rfl
    rcases step_path hr hs with ⟨t, tasks, rfl, hpop, -⟩ | hhook
    · simp [taskOf, hpop] at hnone
    · refine ⟨k, hn.soft hhook.routing, ?_⟩
      simp only [ownNumbers, hnone]
      exact ⟨.refl _ _, by omega⟩

theorem OwnRun.counts (h : OwnRun answers nums n) : ∃ k a, Placed a n ∧
    LocalIs n.routing (.ofNat k) a ∧ Draws UInt32.ofNat 1 k nums ∧
      k ≤ 1 + nums.length + 2 * answers := by
  induction h with
  | init cfg env =>
    refine ⟨1, cfg.gMeshIp, placed_init cfg env, ?_, .refl _ 1, by omega⟩
    rw [(init_frame cfg env).2]
    intro e he _
    obtain rfl := List.mem_singleton.mp he
    exact ⟨rfl, rfl⟩
  | step _ hintact hs ih =>
    obtain ⟨k, a, hplaced, hlocal, hdraws, hle⟩ := ih
    obtain ⟨k', hlocal', hdraws', hle'⟩ := step_counts hplaced.routes hintact hlocal hs
    refine ⟨k', a, hplaced.step hs, hlocal', hdraws.trans hdraws', ?_⟩
    rw [List.length_append]
    omega

/-- The counter is at `k`, having started at 1. It goes up by one for each number
that the node puts into a message of its own and at most twice in a call of
`gen_rrep`, and nothing else changes it. -/
structure Owns (k answers : ℕ) (nums : List UInt32) (n : Node) : Prop where
  counter : n.localDstId = some (.ofNat k)
  numbers : Draws UInt32.ofNat 1 k nums
  spent : k ≤ 1 + nums.length + 2 * answers
  increasing : k < 2 ^ 32 → nums.Pairwise (· < ·)
  nextHop : ∀ e ∈ n.routing.table, e.ptr = n.routing.localRoute → e.nextHop = n.cfg.gMeshIp
  step : ∀ e n', Intact n e → n.step e = some n' →
    ∃ k', n'.localDstId = some (.ofNat k') ∧ Draws UInt32.ofNat k k' (ownNumbers n e n') ∧
      k' ≤ k + (ownNumbers n e n').length + 2 * answersOf n e

/-- As long as no RREP overwrites `g_local_route` and no ST-RREQ is counted in
another entry, a node owns its sequence number. -/
theorem owns_number (h : OwnRun answers nums n) : ∃ k, Owns k answers nums n := by
  obtain ⟨k, a, hplaced, hlocal, hdraws, hle⟩ := h.counts
  refine ⟨k, localDstId_of_localIs hplaced.hasLocal hlocal, hdraws, hle, fun hk ↦ ?_, ?_, ?_⟩
  · refine hdraws.pairwise fun i j hij hj ↦ ?_
    have hi : i < UInt32.size := (hij.trans_le hj).trans hk
    have hj : j < UInt32.size := hj.trans_lt hk
    rw [UInt32.lt_iff_toNat_lt, UInt32.toNat_ofNat_of_lt' hi, UInt32.toNat_ofNat_of_lt' hj]
    exact hij
  · intro e he hptr
    rw [hplaced.address]
    exact (hlocal e he hptr).2
  · intro e n' hintact hs
    obtain ⟨k', hlocal', hdraws', hle'⟩ := step_counts hplaced.routes hintact hlocal hs
    exact ⟨k', localDstId_of_localIs (hplaced.step hs).hasLocal hlocal', hdraws', hle'⟩

end Runs

/-- The station looks for 192.168.1.8. -/
def seek : List Event := [.output (packetTo 0x0801a8c0), .thread]

theorem owns_number_seek : ∃ n k, runs seek station = some n ∧ Owns k 0 [2] n := by
  have hrun : (runs [.output (packetTo 0x0801a8c0)] station).map
      (fun n ↦ ((n.tasks.pop.1.map Task.type, n.sent.length),
        (n.step .thread).map fun n' ↦ n'.sent.filterMap (ownNumber .genRreq))) =
      some ((some .genRreq, 0), some [2]) := by
    decide +kernel
  obtain ⟨n₁, hn₁, hfacts⟩ := Option.map_eq_some_iff.mp hrun
  simp only [Prod.mk.injEq] at hfacts
  obtain ⟨⟨htask, hsent⟩, hstep⟩ := hfacts
  obtain ⟨n, hn, hnums⟩ := Option.map_eq_some_iff.mp hstep
  obtain ⟨n₂, hout, rfl⟩ : ∃ n₂, station.step (.output (packetTo 0x0801a8c0)) = some n₂ ∧ n₂ = n₁ := by
    obtain ⟨n₂, hout, h⟩ := Option.bind_eq_some_iff.mp hn₁
    exact ⟨n₂, hout, Option.some.inj h⟩
  have hquiet : Intact station (.output (packetTo 0x0801a8c0)) := by
    intro t tasks h
    cases h
  have hstation : OwnRun 0 [] station := .init _ _
  have hfirst : OwnRun 0 [] n₂ := hstation.step hquiet hout
  have hintact : Intact n₂ .thread := by
    intro t tasks _ hpop
    rw [hpop] at htask
    have htype : t.type = .genRreq := Option.some.inj htask
    refine ⟨fun h ↦ ?_, fun h ↦ ?_⟩
    · obtain ⟨_, _, _, hrrep, -⟩ := h
      cases htype.symm.trans hrrep
    · cases htype.symm.trans h.1
  have hsecond := hfirst.step hintact hn
  have hanswers : answersOf n₂ .thread = 0 := by simp [answersOf, taskOf, htask]
  have hnumbers : ownNumbers n₂ .thread n = [2] := by simp [ownNumbers, taskOf, htask, hsent, hnums]
  rw [hanswers, hnumbers] at hsecond
  obtain ⟨k, hk⟩ := owns_number hsecond
  exact ⟨n, k, by simp [seek, runs, hout, hn], hk⟩

/-- An RREP for the flow of 192.168.1.1 to itself. -/
def selfRrep : Rrep := ⟨0, 0, 0x0101a8c0, 0x0101a8c0, 0xffffffff, 0, 0, 0, 0, 0, 0⟩

/-- The number of the node is not its own, its route to itself leads elsewhere,
and the number of its second RREQ is not above that of the first. -/
def isOverwritten (n : Node) : Bool :=
  n.localDstId == some 0xffffffff &&
    (n.routing.table.any fun e ↦ e.ptr == n.routing.localRoute && e.nextHop != n.cfg.gMeshIp) &&
    (runs [.output (packetTo 0x0901a8c0), .thread] n).map
      (fun n ↦ n.sent.filterMap (ownNumber .genRreq)) == some [2, 0]

/-- The neighbour of the station overwrites its number and its route to itself
after an RREQ, so that the number of the next RREQ wraps around. -/
theorem own_number_overwritten : ∃ n n', Reachable n ∧ taskOf n .thread = some .recvRrep ∧
    n.step .thread = some n' ∧ n.localDstId = some 2 ∧ n'.localDstId = some 0xffffffff ∧
    (∃ e ∈ n'.routing.table, e.ptr = n'.routing.localRoute ∧ e.nextHop ≠ n'.cfg.gMeshIp) ∧
    (runs [.output (packetTo 0x0901a8c0), .thread] n').map
      (fun n ↦ n.sent.filterMap (ownNumber .genRreq)) = some [2, 0] := by
  have hrun : (runs (seek ++ [.input (heard 0x0201a8c0 (.rrep selfRrep))]) metStation).map
      (fun n ↦ (taskOf n .thread == some .recvRrep && n.localDstId == some 2,
        (n.step .thread).map isOverwritten)) = some (true, some true) := by
    decide +kernel
  obtain ⟨n, hn, hfacts⟩ := Option.map_eq_some_iff.mp hrun
  simp only [Prod.mk.injEq, Bool.and_eq_true, beq_iff_eq] at hfacts
  obtain ⟨⟨htask, hcounter⟩, hstep⟩ := hfacts
  obtain ⟨n', hn', hafter⟩ := Option.map_eq_some_iff.mp hstep
  simp only [isOverwritten, Bool.and_eq_true, beq_iff_eq] at hafter
  obtain ⟨⟨hcounter', hroute⟩, hnums⟩ := hafter
  obtain ⟨e, he, hself⟩ := List.any_eq_true.mp hroute
  simp only [Bool.and_eq_true, beq_iff_eq, bne_iff_ne] at hself
  exact ⟨n, n', metStation_reachable.of_runs hn, htask, hn', hcounter, hcounter', ⟨e, he, hself⟩, hnums⟩

end Fbaodv.Proofs.OwnNumber
