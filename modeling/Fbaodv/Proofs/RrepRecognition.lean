import Fbaodv.Proofs.NetRuns

namespace Fbaodv.Proofs.RrepRecognition

open Fbaodv.Model Fbaodv.Model.Node
open Fbaodv.Proofs.RouteFrame Fbaodv.Proofs.RoutingInvariant Fbaodv.Proofs.Background
open Fbaodv.Proofs.RouteEffects Fbaodv.Proofs.HandlerSpecs Fbaodv.Proofs.NodeRun
open Fbaodv.Proofs.NodeOps Fbaodv.Proofs.NetOps Fbaodv.Proofs.NetPaths Fbaodv.Proofs.NetRuns
open Fbaodv.Proofs.PacketDiscovery

/-- The branches of `recv_rrep`. -/
inductive RrepBranch
  | unknownNeigh
  | destination
  | forward
  deriving DecidableEq

/-- The branch that `recv_rrep` takes for the message of a task. -/
def rrepBranch (t : Task) (m : Rrep) (n : Node) : RrepBranch :=
  if (n.findAodvNeigh t.srcIp).isNone then .unknownNeigh
  else if isRrepSource n m then .destination
  else .forward

/-- The message as it would be with another content of its unwritten bytes. -/
def withGateway (w : Ip) (m : Rrep) : Rrep := { m with gateway := w }

/-- A transmission without the bytes that `gen_rrep` does not write. -/
def blank : Sent → Sent
  | .broadcast ttl (.rrep m) => .broadcast ttl (.rrep (withGateway 0 m))
  | .unicast ip ttl (.rrep m) => .unicast ip ttl (.rrep (withGateway 0 m))
  | s => s

/-- What there is to see of a node, but for the unwritten bytes of its RREPs. -/
def observe (n : Node) : Node := { n with sent := n.sent.map blank }

/-- `recv_rrep` behaves the same for two contents of the unwritten bytes. -/
def SameBehaviour (t : Task) (m : Rrep) (w w' : Ip) (n : Node) : Prop :=
  rrepBranch t (withGateway w m) n = rrepBranch t (withGateway w' m) n ∧
    (n.recvRrep t (withGateway w m)).map observe = (n.recvRrep t (withGateway w' m)).map observe

section TwoContents

variable {n : Node} {t : Task} {m : Rrep} {w w' : Ip}

theorem recvRrep_eq (t : Task) (m : Rrep) (n : Node) : n.recvRrep t m =
    match n.findAodvNeigh t.srcIp with
    | none => some n
    | some x =>
      let n' := n.updateNeighLifetime x.ip
      let m' := { m with numHops := m.numHops + 1 }
      if rrepBranch t m n = .destination then n'.recvRrepSource m' x else n'.recvRrepForward m' x := by
  unfold recvRrep rrepBranch
  cases n.findAodvNeigh t.srcIp with
  | none => rfl
  | some x =>
    simp only [Option.isNone_some, Bool.false_eq_true, if_false]
    by_cases hsource : isRrepSource n m = true
    · simp only [hsource, if_true]
      exact if_pos hsource
    · simp only [hsource]
      exact if_neg hsource

theorem rrepBranch_eq_iff : rrepBranch t (withGateway w m) n = rrepBranch t (withGateway w' m) n ↔
    n.findAodvNeigh t.srcIp = none ∨ m.srcIp ≠ gNullIp ∨ n.cfg.gMeshIp = gNullIp ∨
      (w = n.cfg.gMeshIp ↔ w' = n.cfg.gMeshIp) := by
  unfold rrepBranch
  cases hx : n.findAodvNeigh t.srcIp with
  | none => simp
  | some x =>
    have hiff : isRrepSource n (withGateway w m) = isRrepSource n (withGateway w' m) ↔
        m.srcIp ≠ gNullIp ∨ n.cfg.gMeshIp = gNullIp ∨ (w = n.cfg.gMeshIp ↔ w' = n.cfg.gMeshIp) := by
      rw [Bool.eq_iff_iff]
      simp only [isRrepSource, withGateway, Bool.or_eq_true, Bool.and_eq_true, beq_iff_eq]
      constructor
      · intro h
        by_cases hsrc : m.srcIp = gNullIp
        · by_cases hmesh : n.cfg.gMeshIp = gNullIp
          · exact .inr (.inl hmesh)
          · have hne : ¬ gNullIp = n.cfg.gMeshIp := Ne.symm hmesh
            simp only [hsrc, hne, false_or, true_and] at h
            exact .inr (.inr h)
        · exact .inl hsrc
      · rintro (hsrc | hmesh | h)
        · simp only [hsrc, false_and]
        · rw [hmesh]
          constructor
          · rintro (h | h)
            · exact .inl h
            · exact .inl h.1
          · rintro (h | h)
            · exact .inl h
            · exact .inl h.1
        · rw [h]
    simp only [Option.isNone_some, Bool.false_eq_true, if_false, reduceCtorEq, false_or]
    rw [← hiff]
    cases isRrepSource n (withGateway w m)
    all_goals cases isRrepSource n (withGateway w' m)
    all_goals simp

theorem rrepRecvRoute_withGateway (m : Rrep) (n : Node) : n.rrepRecvRoute (withGateway w m) =
    (n.rrepRecvRoute m).map fun (o, m', n') ↦ (o, withGateway w m', n') := by
  unfold rrepRecvRoute withGateway
  by_cases hdttl : m.dttl > 0
  · simp only [if_pos hdttl]
    cases n.routing.findAodvRoute n.cfg.dtnHelloIp m.srcIp m.tos with
    | none => cases n.dtnRegister <;> rfl
    | some old =>
      rcases n.createRoute m.dstIp m.srcIp m.tos m.dstId with ⟨_ | e, n₁⟩
      · rfl
      · cases n.dtnRegister <;> rfl
  · simp only [if_neg hdttl]
    rfl

theorem observe_sendMessage (ip : Ip) (ttl : UInt8) (m : Rrep) (n : Node) :
    observe (n.sendMessage ip ttl (.rrep (withGateway w m))) =
      observe (n.sendMessage ip ttl (.rrep (withGateway w' m))) := by
  unfold sendMessage
  by_cases hx : (n.findAodvNeigh ip).isNone = true
  · rw [if_pos hx, if_pos hx]
  · rw [if_neg hx, if_neg hx]
    by_cases httl : ttl = 0
    · rw [if_pos httl, if_pos httl]
    · rw [if_neg httl, if_neg httl]
      simp only [observe, List.map_append, List.map_cons, List.map_nil]
      rfl

theorem map_bind_congr {α β γ : Type} {o : Option α} {f f' : α → Option β} {g : β → γ}
    (h : ∀ a, (f a).map g = (f' a).map g) : (o.bind f).map g = (o.bind f').map g := by
  cases o with
  | none => rfl
  | some a => exact h a

theorem recvRrepForward_withGateway (m : Rrep) (x : AodvNeigh) (n : Node) :
    (n.recvRrepForward (withGateway w m) x).map observe =
      (n.recvRrepForward (withGateway w' m) x).map observe := by
  unfold recvRrepForward
  rw [rrepRecvRoute_withGateway, rrepRecvRoute_withGateway]
  cases n.rrepRecvRoute m with
  | none => rfl
  | some found =>
    obtain ⟨o, m', n₁⟩ := found
    simp only [Option.map_some, Option.bind_eq_bind, Option.bind_some]
    cases o with
    | none => rfl
    | some recv =>
      refine map_bind_congr fun routed ↦ ?_
      dsimp only [withGateway]
      cases routed.2.routing.findAodvRouteById m'.dstIp m'.dstId with
      | none => rfl
      | some send =>
        refine map_bind_congr fun n₂ ↦ map_bind_congr fun n₃ ↦ ?_
        refine map_bind_congr fun recv' ↦ map_bind_congr fun send' ↦ ?_
        exact congrArg some (observe_sendMessage _ _ _ _)

theorem sameBehaviour_iff : SameBehaviour t m w w' n ↔
    n.findAodvNeigh t.srcIp = none ∨ m.srcIp ≠ gNullIp ∨ n.cfg.gMeshIp = gNullIp ∨
      (w = n.cfg.gMeshIp ↔ w' = n.cfg.gMeshIp) := by
  rw [← rrepBranch_eq_iff]
  refine ⟨And.left, fun hbranch ↦ ⟨hbranch, ?_⟩⟩
  rw [recvRrep_eq, recvRrep_eq, ← hbranch]
  cases n.findAodvNeigh t.srcIp with
  | none => rfl
  | some x =>
    dsimp only
    split
    · rfl
    · exact recvRrepForward_withGateway { m with numHops := m.numHops + 1 } x _

end TwoContents

/-- The thread of a node, on its way from loading the module, takes a task. -/
structure Handles (n : Node) (t : Task) (n' : Node) : Prop where
  reached : ∃ k tasks, Reachable k ∧ k.tasks.pop = (some t, tasks) ∧ n = { k with tasks := tasks }
  handled : n.handle t = some n'

/-- The node sends a message. -/
def Emits (n n' : Node) (m : Message) : Prop :=
  ∃ l, n'.sent = n.sent ++ l ∧ ∃ s ∈ l, payload s = some m

/-- An RREQ that the gateway `g` floods for a flow from outside the mesh, or
what other nodes pass on of it. -/
inductive Sought (g : Ip) : Rreq → Prop
  | originated {n n' : Node} {t : Task} {m : Rreq} (h : Handles n t n') (hg : n.cfg.gMeshIp = g)
      (htype : t.type = .genRreq ∨ t.type = .resendRreq) (hsrc : t.srcIp = gNullIp)
      (hm : Emits n n' (.rreq m)) : Sought g m
  | passed {n n' : Node} {t : Task} {m m' : Rreq} (hsought : Sought g m) (h : Handles n t n')
      (htype : t.type = .recvRreq) (hdata : t.data = some (.rreq m)) (hm : Emits n n' (.rreq m')) :
      Sought g m'

/-- An RREP that `gen_rrep` builds for such an RREQ where the fresh buffer holds
`w`, or what other nodes pass on of it. -/
inductive Replied (g w : Ip) : Rrep → Prop
  | built {n n' : Node} {t : Task} {m : Rreq} {m' : Rrep} (hsought : Sought g m) (h : Handles n t n')
      (htype : t.type = .sendRrep)
      (hflow : t.srcIp = m.srcIp ∧ t.dstIp = m.dstIp ∧ t.tos = m.tos)
      (hw : n.junk.headD 0 = w) (hm : Emits n n' (.rrep m')) : Replied g w m'
  | passed {n n' : Node} {t : Task} {m m' : Rrep} (hreplied : Replied g w m) (h : Handles n t n')
      (htype : t.type = .recvRrep) (hdata : t.data = some (.rrep m)) (hm : Emits n n' (.rrep m')) :
      Replied g w m'

section Chains

variable {n₀ n n' : Node} {t : Task}

theorem Handles.wellFormed (h : Handles n t n') : WellFormed n.cfg n.routing := by
  obtain ⟨k, tasks, hreach, -, rfl⟩ := h.reached
  have hwf : WellFormed k.cfg k.routing := reach_wellFormed hreach
  exact hwf

theorem Emits.of_appended {m : Message} {P : Sent → Prop} (h : Emits n n' m)
    (hall : ∃ l, n'.sent = n.sent ++ l ∧ ∀ s ∈ l, P s) : ∃ s, payload s = some m ∧ P s := by
  obtain ⟨l, hl, s, hs, hpayload⟩ := h
  obtain ⟨l', hl', hall⟩ := hall
  obtain rfl := List.append_cancel_left (hl.symm.trans hl')
  exact ⟨s, hpayload, hall s hs⟩

theorem appended_of_path (h : NetPath n₀ t n n') :
    ∃ l, n'.sent = n.sent ++ l ∧ ∀ s ∈ l, ∃ k, SentFrom n₀ t k s := by
  induction h with
  | refl => exact ⟨[], (List.append_nil _).symm, nofun⟩
  | @tail k _ _ hop ih =>
    refine sent_trans ih ?_
    obtain ⟨l, hl, hall⟩ := appended_of_op hop
    exact ⟨l, hl, fun s hs ↦ ⟨k, hall s hs⟩⟩

theorem flooded_appended {srcIp dstIp : Ip} {tos retries : UInt8}
    (h : n.kmalloc.next = false ∧ n' = n.alloc.2 ∨ ∃ m, Flooded n srcIp dstIp tos retries m n') :
    ∃ l, n'.sent = n.sent ++ l ∧ ∀ s ∈ l, ∀ m, payload s = some (.rreq m) → m.srcIp = srcIp := by
  rcases h with ⟨-, rfl⟩ | ⟨m, h⟩
  · exact ⟨[], (List.append_nil _).symm, nofun⟩
  · refine ⟨_, h.sent, fun s hs m' hm' ↦ ?_⟩
    obtain rfl := List.mem_singleton.mp hs
    obtain rfl : m = m' := by simpa [payload] using hm'
    exact h.flow.1

theorem originated_appended (h : Handles n t n') (htype : t.type = .genRreq ∨ t.type = .resendRreq) :
    ∃ l, n'.sent = n.sent ++ l ∧ ∀ s ∈ l, ∀ m, payload s = some (.rreq m) → m.srcIp = t.srcIp := by
  have hhandled := h.handled
  rcases htype with htype | htype
  · rw [handle, htype] at hhandled
    exact flooded_appended (genRreq_cases hhandled)
  · rw [handle, htype] at hhandled
    rcases resendRreq_cases hhandled with ⟨-, rfl⟩ | ⟨-, hflooded⟩
    · exact ⟨[], (List.append_nil _).symm, nofun⟩
    · exact flooded_appended hflooded

theorem not_isRouteless {s : Sent} {m : Message} (hpayload : payload s = some m)
    (hm : (∃ m', m = .rreq m') ∨ ∃ m', m = .rrep m') : ¬ isRouteless s := by
  intro h
  cases s with
  | toDtn => cases hpayload
  | broadcast | unicast =>
    obtain rfl := Option.some.inj hpayload
    rcases hm with ⟨m', rfl⟩ | ⟨m', rfl⟩
    all_goals exact h

theorem Sought.srcIp {g : Ip} {m : Rreq} (h : Sought g m) : m.srcIp = gNullIp := by
  induction h with
  | originated h hg htype hsrc hm =>
    obtain ⟨s, hpayload, hsource⟩ := hm.of_appended (originated_appended h htype)
    exact (hsource _ hpayload).trans hsrc
  | passed _ h htype hdata hm ih =>
    obtain ⟨s, hpayload, k, hfrom⟩ := hm.of_appended (appended_of_path (handle_path h.wellFormed h.handled))
    cases hfrom with
    | routeless hrouteless => exact absurd hrouteless (not_isRouteless hpayload (.inl ⟨_, rfl⟩))
    | flood hname =>
      rw [SeeksAs, htype] at hname
      cases hname.1
    | forward _ hdata' =>
      obtain rfl : _ = _ := Message.rreq.inj (Option.some.inj (hdata.symm.trans hdata'))
      obtain rfl := Message.rreq.inj (Option.some.inj hpayload)
      exact ih
    | answer => cases hpayload
    | relay => cases hpayload

/-- The RREP that is sent along an entry goes to its destination and has what
the fresh buffer held. -/
theorem answerRrep_appended {ptr : ℕ} {tos dttl : UInt8} {P : AodvRoute → Prop}
    (hentry : ∀ e, n.bumpLocalDstId.routing.entryAt ptr = some e → P e)
    (h : n.answerRrep ptr tos dttl = some n') :
    ∃ l, n'.sent = n.sent ++ l ∧ ∀ s ∈ l, ∀ m, payload s = some (.rrep m) →
      m.gateway = n.junk.headD 0 ∧ ∃ e, P e ∧ m.srcIp = e.dstIp := by
  obtain ⟨dstId, -, h⟩ := Option.bind_eq_some_iff.mp h
  obtain ⟨e, he, h⟩ := Option.bind_eq_some_iff.mp h
  obtain ⟨n₁, hrep, h⟩ := Option.bind_eq_some_iff.mp h
  obtain rfl := Option.some.inj h
  obtain ⟨o, r, packets, -, rfl⟩ := rrepRoute_routing hrep
  rcases sendMessage_cases e.nextHop netDiameter (.rrep (n.bumpLocalDstId.newRrep e tos dttl dstId))
    ({ n.bumpLocalDstId with
      junk := n.bumpLocalDstId.junk.tail, routing := r, packets := packets }.setLastHop ptr e.srcIp)
    with hsend | hsend
  · rw [hsend]
    exact ⟨[], (List.append_nil _).symm, nofun⟩
  · rw [hsend]
    refine ⟨_, rfl, fun s hs m hm ↦ ?_⟩
    obtain rfl := List.mem_singleton.mp hs
    obtain rfl := Message.rrep.inj (Option.some.inj hm)
    exact ⟨rfl, e, hentry e he, rfl⟩

theorem entryAt_bump {ptr : ℕ} {e : AodvRoute} (h : n.bumpLocalDstId.routing.entryAt ptr = some e) :
    ∃ e₀ ∈ n.routing.table, e₀.ptr = ptr ∧ e.dstIp = e₀.dstIp := by
  obtain ⟨hmem, hptr⟩ := entryAt_mem h
  obtain ⟨e₀, he₀, rfl⟩ := List.mem_map.mp hmem
  refine ⟨e₀, he₀, ?_⟩
  split at hptr
  · next hlocal =>
    rw [if_pos hlocal]
    exact ⟨hptr, rfl⟩
  · next hlocal =>
    rw [if_neg hlocal]
    exact ⟨hptr, rfl⟩

theorem genRrep_appended {srcIp dstIp : Ip} {tos : UInt8} (hr : WellFormed n.cfg n.routing)
    (h : n.genRrep srcIp dstIp tos = some n') :
    ∃ l, n'.sent = n.sent ++ l ∧ ∀ s ∈ l, ∀ m, payload s = some (.rrep m) →
      m.gateway = n.junk.headD 0 ∧ m.srcIp = srcIp := by
  have hnone : n'.sent = n.sent → ∃ l, n'.sent = n.sent ++ l ∧ ∀ s ∈ l, ∀ m, payload s = some (.rrep m) →
      m.gateway = n.junk.headD 0 ∧ m.srcIp = srcIp :=
    fun heq ↦ ⟨[], by rw [heq, List.append_nil], nofun⟩
  unfold genRrep at h
  dsimp only at h
  split at h
  · exact hnone (Option.some.inj h ▸ rfl)
  split at h
  · exact hnone (Option.some.inj h ▸ rfl)
  next src hsrc =>
  have hsrc' : n.routing.findAodvRoute dstIp srcIp tos = some src := hsrc
  split at h
  · exact hnone (Option.some.inj h ▸ rfl)
  obtain ⟨⟨o, n₁⟩, hentry, h⟩ := Option.bind_eq_some_iff.mp h
  rcases rrepRouteEntry_cases (n := n.alloc.2.alloc.2) hr hentry with ⟨rfl, rfl, -⟩ | ⟨rfl, hcalm⟩ |
    ⟨e, new, r, rfl, rfl, -, hcopy, hptr⟩
  · obtain ⟨hmem, -, hdst, -⟩ := findAodvRoute_some hsrc'
    have hentry : ∀ e, n.alloc.2.alloc.2.bumpLocalDstId.routing.entryAt src.ptr = some e → e.dstIp = srcIp := by
      intro e he
      obtain ⟨e₀, he₀, hptr, heq⟩ := entryAt_bump he
      obtain rfl := hr.eq_of_ptr hmem he₀ hptr
      exact heq.trans hdst
    obtain ⟨l, hl, hall⟩ := answerRrep_appended hentry h
    refine ⟨l, hl, fun s hs m hm ↦ ?_⟩
    obtain ⟨hgateway, e, he, hsource⟩ := hall s hs m hm
    exact ⟨hgateway, hsource.trans he⟩
  · obtain ⟨l, hl, hall⟩ := hcalm.sent
    refine Option.some.inj h ▸ ⟨l, hl, fun s hs m hm ↦ ?_⟩
    exact absurd (isRouteless_of_isPlain (hall s hs)) (not_isRouteless hm (.inr ⟨m, rfl⟩))
  · have hentry : ∀ e', ({ n.alloc.2.alloc.2 with routing := r } : Node).bumpLocalDstId.routing.entryAt e.ptr =
        some e' → e'.dstIp = srcIp := by
      intro e' he'
      obtain ⟨e₀, he₀, hptr', heq⟩ := entryAt_bump he'
      have hnew : new ∈ r.table := hcopy.inserts.mem.mpr (.inl rfl)
      have hwf : WellFormed n.cfg r := hcopy.wellFormed (n := n.alloc.2.alloc.2) hr
      obtain rfl := hwf.eq_of_ptr hnew he₀ (hptr'.trans hptr)
      exact heq.trans hcopy.dstIp
    obtain ⟨l, hl, hall⟩ := answerRrep_appended hentry h
    refine ⟨l, hl, fun s hs m hm ↦ ?_⟩
    obtain ⟨hgateway, e, he, hsource⟩ := hall s hs m hm
    exact ⟨hgateway, hsource.trans he⟩

/-- An RREP for a flow from outside names no source, and in the gateway field it
has what the buffer held in which `gen_rrep` built it. -/
theorem Replied.fields {g w : Ip} {m : Rrep} (h : Replied g w m) : m.srcIp = gNullIp ∧ m.gateway = w := by
  induction h with
  | built hsought h htype hflow hw hm =>
    have hhandled := h.handled
    rw [handle, htype] at hhandled
    obtain ⟨s, hpayload, hfields⟩ := hm.of_appended (genRrep_appended h.wellFormed hhandled)
    obtain ⟨hgateway, hsource⟩ := hfields _ hpayload
    exact ⟨hsource.trans (hflow.1.trans hsought.srcIp), hgateway.trans hw⟩
  | passed _ h htype hdata hm ih =>
    obtain ⟨s, hpayload, k, hfrom⟩ := hm.of_appended (appended_of_path (handle_path h.wellFormed h.handled))
    cases hfrom with
    | routeless hrouteless => exact absurd hrouteless (not_isRouteless hpayload (.inr ⟨_, rfl⟩))
    | flood => cases hpayload
    | forward => cases hpayload
    | answer htype' => cases htype.symm.trans htype'
    | relay _ hdata' =>
      obtain rfl : _ = _ := Message.rrep.inj (Option.some.inj (hdata.symm.trans hdata'))
      obtain rfl := Message.rrep.inj (Option.some.inj hpayload)
      exact ih

/-- An RREP for a flow from outside that comes from a known neighbour is
recognised at its gateway exactly when the fresh buffer happened to hold the
address of the gateway. For any RREP, `recv_rrep` behaves the same for two
contents exactly when the flow has a source, or when both or none of them are
the address of the node. -/
theorem external_rrep_recognised_iff {g w : Ip} {m : Rrep} (h : Replied g w m) (hg : n.cfg.gMeshIp = g) :
    (rrepBranch t m n = .destination ↔ n.findAodvNeigh t.srcIp ≠ none ∧ (g = gNullIp ∨ w = g)) ∧
      ∀ (t' : Task) (m' : Rrep) (v v' : Ip) (k : Node), SameBehaviour t' m' v v' k ↔
        k.findAodvNeigh t'.srcIp = none ∨ m'.srcIp ≠ gNullIp ∨ k.cfg.gMeshIp = gNullIp ∨
          (v = k.cfg.gMeshIp ↔ v' = k.cfg.gMeshIp) := by
  obtain ⟨hsrc, hgateway⟩ := h.fields
  refine ⟨?_, fun _ _ _ _ _ ↦ sameBehaviour_iff⟩
  unfold rrepBranch
  cases hx : n.findAodvNeigh t.srcIp with
  | none => simp
  | some x =>
    have hiff : isRrepSource n m = true ↔ g = gNullIp ∨ w = g := by
      simp only [isRrepSource, hsrc, hgateway, hg, Bool.or_eq_true, Bool.and_eq_true, beq_iff_eq, true_and,
        eq_comm (a := gNullIp)]
    rw [← hiff]
    cases isRrepSource n m
    all_goals simp

end Chains

/-- The first transmission of the node is `m`, by a task of this type and flow. -/
def emitsFirst (type : TaskType) (flow : Ip × Ip × UInt8) (m : Message) (n : Node) : Bool :=
  n.sent.isEmpty && (n.tasks.pop.1.map fun t ↦ (t.type, t.srcIp, t.dstIp, t.tos)) == some (type, flow) &&
    ((n.step .thread).map fun n' ↦ n'.sent.any fun s ↦ payload s == some m) == some true

theorem handles_of_emitsFirst {type : TaskType} {flow : Ip × Ip × UInt8} {m : Message} {k : Node}
    (hk : Reachable k) (h : emitsFirst type flow m k = true) :
    ∃ n t n', Handles n t n' ∧ n.cfg = k.cfg ∧ n.junk = k.junk ∧ t.type = type ∧
      (t.srcIp, t.dstIp, t.tos) = flow ∧ Emits n n' m := by
  simp only [emitsFirst, Bool.and_eq_true, beq_iff_eq, List.isEmpty_iff] at h
  obtain ⟨⟨hempty, htask⟩, hstep⟩ := h
  obtain ⟨t, ht, hflow⟩ := Option.map_eq_some_iff.mp htask
  obtain ⟨n', hn', hany⟩ := Option.map_eq_some_iff.mp hstep
  obtain ⟨s, hs, hpayload⟩ := List.any_eq_true.mp hany
  obtain ⟨rfl, rfl⟩ := Prod.mk.inj hflow
  have hpop : k.tasks.pop = (some t, k.tasks.pop.2) := by rw [← ht]
  refine ⟨{ k with tasks := k.tasks.pop.2 }, t, n', ⟨⟨k, _, hk, hpop, rfl⟩, ?_⟩, rfl, rfl, rfl, rfl, n'.sent, ?_,
    s, hs, by simpa using hpayload⟩
  · simp only [Node.step, threadStep] at hn'
    rw [hpop] at hn'
    exact hn'
  · rw [show ({ k with tasks := k.tasks.pop.2 } : Node).sent = [] from hempty, List.nil_append]

/-- The gateway 192.168.1.1/24. -/
def gateway : Node := Node.init { station.cfg with gAodvGateway := true } plainEnvironment

/-- The station 192.168.1.2/24, with `w` in the first buffer of `gen_rrep`. -/
def mate (w : Ip) : Node :=
  Node.init { station.cfg with gMeshIp := 0x0201a8c0 } { plainEnvironment with junk := [w] }

def helloFrom (saddr ifaAddress : Ip) : Event := .input (packetAt saddr ifaAddress 1 (.hello ⟨0, 0, 0, []⟩))

/-- The gateway forwards a packet of 8.8.8.8 to its neighbour. -/
def askMate : List Event :=
  [helloFrom 0x0201a8c0 0x0101a8c0, .thread, .output { packetTo 0x0201a8c0 with saddr := 0x08080808 }]

def externalRreq : Rreq := ⟨0, 0, 0, 0x0201a8c0, 0, 2, 0, 0⟩

/-- The neighbour hears the RREQ of the gateway, and waits a while. -/
def hearGateway : List Event :=
  [helloFrom 0x0101a8c0 0x0201a8c0, .thread, .input (packetAt 0x0101a8c0 0x0201a8c0 20 (.rreq externalRreq)),
    .thread, .wait 101, .signal]

def externalRrep (w : Ip) : Rrep := ⟨0, 0, 0x0201a8c0, 0, 2, w, 1, 2, 0, 0, 0⟩

theorem replied_externalRrep {w : Ip}
    (h : (runs hearGateway (mate w)).map (fun n ↦ n.cfg.gMeshIp == 0x0201a8c0 && n.junk == [w] &&
      emitsFirst .sendRrep (0, 0x0201a8c0, 0) (.rrep (externalRrep w)) n) = some true) :
    Replied 0x0101a8c0 w (externalRrep w) := by
  have hask : (runs askMate gateway).map (fun n ↦ n.cfg.gMeshIp == 0x0101a8c0 &&
      emitsFirst .genRreq (0, 0x0201a8c0, 0) (.rreq externalRreq) n) = some true := by
    decide +kernel
  obtain ⟨k, hk, hfacts⟩ := Option.map_eq_some_iff.mp hask
  obtain ⟨k', hk', hfacts'⟩ := Option.map_eq_some_iff.mp h
  simp only [Bool.and_eq_true, beq_iff_eq] at hfacts hfacts'
  have hgateway : Reachable gateway := .init trivial
  have hmate : Reachable (mate w) := .init trivial
  obtain ⟨n, t, n₁, hhandles, hcfg, -, htype, hflow, hm⟩ := handles_of_emitsFirst (hgateway.of_runs hk) hfacts.2
  obtain ⟨n', t', n₁', hhandles', -, hjunk, htype', hflow', hm'⟩ :=
    handles_of_emitsFirst (hmate.of_runs hk') hfacts'.2
  simp only [Prod.mk.injEq] at hflow hflow'
  have hsought : Sought 0x0101a8c0 externalRreq :=
    .originated hhandles (by rw [hcfg, hfacts.1]) (.inl htype) hflow.1 hm
  exact .built hsought hhandles' htype' hflow' (by rw [hjunk, hfacts'.1.2]; rfl) hm'

theorem external_rrep_recognised_by_chance : ∃ m n t, Replied 0x0101a8c0 0x0101a8c0 m ∧ Reachable n ∧
    n.cfg.gMeshIp = 0x0101a8c0 ∧ rrepBranch t m n = .destination := by
  have hrun : (runs askMate gateway).map (fun n ↦
      n.cfg.gMeshIp == 0x0101a8c0 && (n.findAodvNeigh 0x0201a8c0).isSome) = some true := by
    decide +kernel
  obtain ⟨n, hn, hfacts⟩ := Option.map_eq_some_iff.mp hrun
  simp only [Bool.and_eq_true, beq_iff_eq] at hfacts
  have hreplied : Replied 0x0101a8c0 0x0101a8c0 (externalRrep 0x0101a8c0) :=
    replied_externalRrep (by decide +kernel)
  have hreach : Reachable n := Reach.of_runs (n := gateway) (.init trivial) hn
  refine ⟨_, n, { createTask .recvRrep 0 with srcIp := 0x0201a8c0 }, hreplied, hreach, hfacts.1, ?_⟩
  refine (external_rrep_recognised_iff hreplied hfacts.1).1.mpr ⟨?_, .inr rfl⟩
  exact Option.isSome_iff_ne_none.mp hfacts.2

/-- With zeros in the fresh buffer the gateway drops the answer to its RREQ. -/
theorem external_rrep_dropped : ∃ m n t, Replied 0x0101a8c0 0 m ∧ Reachable n ∧
    n.cfg.gMeshIp = 0x0101a8c0 ∧ n.findAodvNeigh t.srcIp ≠ none ∧ rrepBranch t m n = .forward ∧
    (n.recvRrep t m).map Node.routing = some n.routing ∧ ¬ SameBehaviour t m 0 0x0101a8c0 n := by
  have hrun : (runs (askMate ++ [.thread]) gateway).map (fun n ↦ n.cfg.gMeshIp == 0x0101a8c0 &&
      (n.findAodvNeigh 0x0201a8c0).isSome && !isRrepSource n (externalRrep 0) &&
        (n.routing.findAodvRouteById 0 2).isNone) = some true := by
    decide +kernel
  obtain ⟨n, hn, hfacts⟩ := Option.map_eq_some_iff.mp hrun
  simp only [Bool.and_eq_true, beq_iff_eq, Bool.not_eq_true'] at hfacts
  obtain ⟨⟨⟨hmesh, hneigh⟩, hsource⟩, hroute⟩ := hfacts
  have hreach : Reachable n := Reach.of_runs (n := gateway) (.init trivial) hn
  have hneigh' : n.findAodvNeigh 0x0201a8c0 ≠ none := Option.isSome_iff_ne_none.mp hneigh
  refine ⟨externalRrep 0, n, { createTask .recvRrep 0 with srcIp := 0x0201a8c0 },
    replied_externalRrep (by decide +kernel), hreach, hmesh, hneigh', ?_, ?_, ?_⟩
  · simp [rrepBranch, hneigh', hsource]
  · obtain ⟨x, hx⟩ := Option.ne_none_iff_exists'.mp hneigh'
    have hroute' : (n.updateNeighLifetime x.ip).routing.findAodvRouteById 0 2 = none :=
      Option.isNone_iff_eq_none.mp hroute
    have hbranch : rrepBranch { createTask .recvRrep 0 with srcIp := 0x0201a8c0 } (externalRrep 0) n ≠
        .destination := by
      simp [rrepBranch, hneigh', hsource]
    rw [recvRrep_eq]
    simp only [hx, if_neg hbranch]
    simp only [recvRrepForward, rrepRecvRoute, externalRrep, hroute']
    rfl
  · rw [sameBehaviour_iff, hmesh]
    rintro (hnone | hsrc | hzero | hsame)
    · exact hneigh' hnone
    · exact hsrc rfl
    · cases hzero
    · cases hsame.mpr rfl

end Fbaodv.Proofs.RrepRecognition
