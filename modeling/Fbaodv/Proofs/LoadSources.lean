import Fbaodv.Proofs.GatewayFlood
import Fbaodv.Proofs.HelloRoundTrip
import Fbaodv.Proofs.LoadAnnouncements
import Fbaodv.Proofs.NeighCreation
import Fbaodv.Proofs.NeighTables
import Fbaodv.Proofs.NeighTx
import Fbaodv.Proofs.NetRuns

namespace Fbaodv.Proofs.LoadSources

open Fbaodv.Model Fbaodv.Model.Node Fbaodv.Foundation Fbaodv.Foundation.Interleaving
open Fbaodv.Proofs.RoutingInvariant Fbaodv.Proofs.Background Fbaodv.Proofs.RouteEffects
open Fbaodv.Proofs.HandlerSpecs Fbaodv.Proofs.NodeRun Fbaodv.Proofs.Upkeep Fbaodv.Proofs.NeighActs
open Fbaodv.Proofs.NeighCreation Fbaodv.Proofs.NeighTables Fbaodv.Proofs.NetPaths Fbaodv.Proofs.NetRuns
open Fbaodv.Proofs.HelloRoundTrip Fbaodv.Proofs.LoadAnnouncements Fbaodv.Proofs.PacketDiscovery
open Fbaodv.Proofs.Isolation

/-- The load that a node announces, with its number. -/
def ownLoad (n : Node) : UInt8 × UInt16 := (n.routing.load, n.routing.loadSeq)

/-- In one of the states the node `ip` had the pair. -/
def Announced (l : List Network) (ip : Ip) (p : UInt8 × UInt16) : Prop := ∃ net ∈ l, ownLoad (net ip) = p

/-- Nothing is known of the load of `ip`, or what it was at some time. -/
def Attributed (l : List Network) (ip : Ip) (p : UInt8 × UInt16) : Prop := p = (0, 0) ∨ Announced l ip p

structure LoadsAttributed (l : List Network) (n : Node) : Prop where
  neigh : ∀ x ∈ n.aodvNeighList, Attributed l x.ip (storedLoad x)
  neigh2h : ∀ y ∈ n.aodvNeighList2h, Attributed l y.ip (storedLoad2h y)

/-- The number of the load that is stored for an address. -/
def storedSeq (ip : Ip) (n : Node) : UInt16 :=
  match n.findAodvNeigh ip, n.findAodvNeigh2h ip with
  | some x, _ => (storedLoad x).2
  | none, some y => (storedLoad2h y).2
  | none, none => 0

/-- The addresses in the table `neigh_tx` of a neighbour. -/
def listedTx (ip : Ip) (n : Node) : List Ip :=
  (n.findAodvNeigh ip).elim [] fun x ↦ x.loadMetric.neighTx.filter (· != 0)

/-- The nodes that a HELLO names to a node, but for this node. -/
def namedOthers (m : Hello) (n : Node) : List Ip := (m.ext.map HelloExtension.ip).filter (· != n.cfg.gMeshIp)

/-- The kernel takes the route to a new neighbour. -/
def routeGranted (ip : Ip) (n : Node) : Bool :=
  ip == n.cfg.dtnHelloIp || n.cfg.gMeshIp == n.cfg.dtnHelloIp || n.routing.netlink.next

/-- `recv_hello` gets as far as the extensions: the sender is not on the blacklist,
and is a neighbour or can be made one. -/
def hears (ip : Ip) (n : Node) : Bool :=
  !n.cfg.aodvBlacklistIp.contains ip && ((n.findAodvNeigh ip).isSome || !givesUpEarly ip n && routeGranted ip n)

/-- The load of the HELLO from `ip` is not taken for that of a node that it names
and that never had it, and the table of the sender has room for the named nodes. -/
structure SpeaksForItself (l : List Network) (ip : Ip) (m : Hello) (n : Node) : Prop where
  loads : ∀ a ∈ namedOthers m n, Attributed l a (m.load, m.loadSeq) ∨ newerLoad (storedSeq a n) m.loadSeq = false
  room : (listedTx ip n ++ namedOthers m n).toFinset.card ≤ neighTablesize

/-- Every HELLO that the thread hears speaks for itself. -/
def HellosSpeakForThemselves (l : List Network) (n : Node) (e : Event) : Prop :=
  ∀ t tasks m, e = .thread → n.tasks.pop = (some t, tasks) → t.type = .recvHello → t.data = some (.hello m) →
    hears t.srcIp { n with tasks := tasks } = true → SpeaksForItself l t.srcIp m { n with tasks := tasks }

section Sending

variable {n n' n'' : Node} {t : Task}

/-- No HELLO has been sent. -/
def NoHello (n n' : Node) : Prop := ∀ s ∈ n'.sent, s ∈ n.sent ∨ isNotHello s

theorem NoHello.trans (h : NoHello n n') (h' : NoHello n' n'') : NoHello n n'' := fun s hs ↦
  (h' s hs).elim (h s) .inr

theorem noHello_of_eq (h : n'.sent = n.sent) : NoHello n n' := fun _ hs ↦ .inl (h ▸ hs)

theorem noHello_of_appended {P : Sent → Prop} (hP : ∀ s, P s → isNotHello s)
    (h : ∃ l, n'.sent = n.sent ++ l ∧ ∀ s ∈ l, P s) : NoHello n n' := by
  obtain ⟨l, hl, hall⟩ := h
  intro s hs
  rw [hl] at hs
  exact (List.mem_append.mp hs).imp_right fun hs ↦ hP s (hall s hs)

theorem noHello_of_calm (h : Calm isPlain n n') : NoHello n n' :=
  noHello_of_appended isNotHello_of_isPlain h.sent

theorem noHello_of_quiet (h : Quiet isNotHello n n') : NoHello n n' := noHello_of_appended (fun _ ↦ id) h.sent

theorem NoHello.of_routing {r : Routing} (h : NoHello { n with routing := r } n') : NoHello n n' := h

theorem noHello_localBroadcast (ttl : UInt8) {m : Message} (n : Node) (hm : isNotHello (.broadcast ttl m)) :
    NoHello n (n.localBroadcast ttl m) := by
  unfold localBroadcast
  split
  · exact noHello_of_eq rfl
  · intro s hs
    rcases List.mem_append.mp hs with hs | hs
    · exact .inl hs
    · exact .inr (List.mem_singleton.mp hs ▸ hm)

theorem noHello_recvRreq {m : Rreq} (h : n.recvRreq t m = some n') : NoHello n n' := by
  have haccept : ∀ (m : Rreq) (n₁ : Node), NoHello n₁ (n₁.acceptRreq t m) := by
    intro m n₁
    have hdtn : NoHello n₁ (n₁.send2dtn dtnLocationPort m.srcIp m.tos.toUInt32 0 0) :=
      noHello_of_calm (calm_of_quiet steady_send2dtn.quiet)
    unfold acceptRreq
    split
    · split <;> exact noHello_of_eq rfl
    · refine NoHello.trans ?_ (noHello_localBroadcast _ _ trivial)
      split
      · exact hdtn
      · exact noHello_of_eq rfl
  rcases recvRreq_cases h with hcalm | ⟨x, pathMetric, ok, r, -, -, rfl⟩
  · exact noHello_of_calm hcalm
  · split
    · exact (noHello_of_eq rfl).trans (haccept _ _)
    · exact noHello_of_eq rfl

theorem noHello_genRrep {srcIp dstIp : Ip} {tos : UInt8} (hr : WellFormed n.cfg n.routing)
    (h : n.genRrep srcIp dstIp tos = some n') : NoHello n n' := by
  rcases genRrep_cases hr h with hcalm | ⟨r, e, n₁, -, hcalm, -, dstId, e', o, r₂, dttl, -, -, -, hans⟩
  · exact noHello_of_calm hcalm
  · have hfirst : NoHello n n₁ := (noHello_of_calm hcalm).of_routing
    refine hfirst.trans (noHello_of_appended (fun s hs ↦ ?_) hans.sent).of_routing
    rcases hs with hs | rfl
    · exact isNotHello_of_isPlain s hs
    · trivial

theorem noHello_recvRrep {m : Rrep} (hr : WellFormed n.cfg n.routing) (h : n.recvRrep t m = some n') :
    NoHello n n' := by
  unfold recvRrep at h
  split at h
  · exact noHello_of_eq (Option.some.inj h ▸ rfl)
  next x hx =>
  dsimp only at h
  split at h
  · obtain ⟨ok, r₁, r₂, -, -, hcalm⟩ := recvRrepSource_cases h
    exact (noHello_of_calm hcalm).of_routing
  · obtain ⟨o, m', n₁, hrecv, hcases⟩ := recvRrepForward_cases h
    have hfirst : NoHello n n₁ := by
      rcases rrepRecvRoute_cases (n := n.updateNeighLifetime x.ip) hr hrecv with ⟨-, rfl⟩ | ⟨-, -, e, new, r, -, rfl, -⟩
      · exact noHello_of_eq rfl
      · exact noHello_of_eq rfl
    refine hfirst.trans ?_
    rcases hcases with ⟨-, rfl⟩ | ⟨recv, ok, r₁, -, -, ⟨-, rfl⟩ | ⟨send, o₂, r₂, o₃, r₃, recv', -, -, -, -, hcalm⟩⟩
    · exact noHello_of_eq rfl
    · exact noHello_of_eq rfl
    · refine (noHello_of_appended (fun s hs ↦ ?_) hcalm.sent).of_routing
      rcases hs with hs | rfl
      · exact isNotHello_of_isPlain s hs
      · trivial

theorem noHello_recvHello {m : Hello} (hr : WellFormed n.cfg n.routing) (h : n.recvHello t m = some n') :
    NoHello n n' := by
  obtain ⟨r, n₁, n₂, -, -, hcalm₁, hfloods, hcalm₂⟩ := recvHello_cases hr h
  have hfirst : NoHello n n₁ := (noHello_of_calm hcalm₁).of_routing
  exact (hfirst.trans (noHello_of_quiet (quiet_of_floods hfloods))).trans (noHello_of_calm hcalm₂)

theorem noHello_genStRreq (h : n.genStRreq = some n') : NoHello n n' := by
  unfold genStRreq at h
  split at h
  · exact noHello_of_eq (Option.some.inj h ▸ rfl)
  dsimp only at h
  split at h
  · exact noHello_of_eq (Option.some.inj h ▸ rfl)
  split at h
  · exact noHello_of_eq (Option.some.inj h ▸ rfl)
  · obtain rfl := Option.some.inj h
    refine (noHello_of_eq rfl).trans ((noHello_localBroadcast netDiameter _ ?_).trans (noHello_of_eq rfl))
    trivial

theorem noHello_recvRreqSt {m : RreqSt} : NoHello n (n.recvRreqSt t m) := by
  rcases recvRreqSt_cases t m n with heq | ⟨x, gwList, kmalloc, -, heq | ⟨m', heq⟩⟩
  · rw [heq]
    exact noHello_of_eq rfl
  · rw [heq]
    exact noHello_of_eq rfl
  · rw [heq]
    exact (noHello_of_eq rfl).trans (noHello_localBroadcast _ _ trivial)

theorem sent_of_genHello (n : Node) :
    ∀ s ∈ n.genHello.sent, s ∈ n.sent ∨ ∃ ext, s = .broadcast 1 (.hello (n.helloOf ext)) := by
  have hsend : ∀ (ext : List HelloExtension) (n₁ : Node), n₁.sent = n.sent → n₁.routing = n.routing →
      ∀ s ∈ (n₁.sendHello ext).sent, s ∈ n.sent ∨ ∃ ext, s = .broadcast 1 (.hello (n.helloOf ext)) := by
    intro ext n₁ hsent hrouting s hs
    have hof : n₁.helloOf ext = n.helloOf ext := by simp only [helloOf, hrouting]
    rcases sendHello_sent ext n₁ with heq | heq
    · exact .inl (hsent ▸ heq ▸ hs)
    · rw [heq, hsent, hof] at hs
      exact (List.mem_append.mp hs).imp_right fun hs ↦ ⟨ext, List.mem_singleton.mp hs⟩
  unfold genHello
  split
  · obtain ⟨hsent, hrouting⟩ := helloExtensions_frame n.aodvNeighList [] n
    rcases he : helloExtensions n.aodvNeighList [] n with ⟨_ | ext, n'⟩
    · rw [he] at hsent
      exact fun s hs ↦ .inl (hsent ▸ hs)
    · rw [he] at hsent hrouting
      exact hsend ext n' hsent hrouting
  · exact hsend [] n rfl rfl

/-- Only the task of a HELLO sends one. -/
theorem noHello_handle (htype : t.type ≠ .hello) (hr : WellFormed n.cfg n.routing) (h : n.handle t = some n') :
    NoHello n n' := by
  unfold handle at h
  split at h
  · exact noHello_of_quiet (genRreq_floods hr.localEntry h).quiet
  · exact noHello_recvRrep hr h
  · exact noHello_of_calm (calm_of_quiet (steady_recvRerr h).quiet)
  · exact noHello_recvHello hr h
  · exact Option.some.inj h ▸ noHello_of_calm (calm_of_quiet (steady_recvRcvp _ _).quiet)
  · exact Option.some.inj h ▸ noHello_of_calm (calm_of_quiet (steady_recvRrdp _ _ _).quiet)
  · exact noHello_of_eq (Option.some.inj h ▸ rfl)
  · next hhello => exact absurd hhello htype
  · exact noHello_genStRreq h
  · exact noHello_of_eq (Option.some.inj h ▸ rfl)
  · exact noHello_of_calm (calm_deleteAodvNeigh h)
  · exact noHello_of_eq (Option.some.inj h ▸ rfl)
  · exact noHello_of_calm (Option.some.inj h ▸ calm_sendProbe _ _)
  · exact noHello_of_calm (Option.some.inj h ▸ calm_recvSprobe _ _ _)
  · exact noHello_of_calm (calm_recvLprobe h)
  · obtain ⟨x, -, h⟩ := Option.bind_eq_some_iff.mp h
    exact noHello_of_calm (calm_resetEtt h)
  · exact noHello_of_calm (Option.some.inj h ▸ calm_deleteAodvNeigh2h _ _)
  · exact noHello_recvRreq h
  · exact noHello_of_quiet (resendRreq_floods hr.localEntry h).quiet
  · exact noHello_of_calm (calm_recvEttInfo h)
  · exact noHello_genRrep hr h
  · exact Option.some.inj h ▸ noHello_recvRreqSt
  · exact noHello_of_eq (Option.some.inj h ▸ rfl)
  · exact noHello_of_quiet (genRreq_floods hr.localEntry h).quiet
  · exact noHello_of_eq (Option.some.inj h ▸ rfl)

theorem sent_of_handle (hr : WellFormed n.cfg n.routing) (h : n.handle t = some n') :
    ∀ s ∈ n'.sent, s ∈ n.sent ∨ isNotHello s ∨ ∃ ext, s = .broadcast 1 (.hello (n.helloOf ext)) := by
  by_cases htype : t.type = .hello
  · simp only [handle, htype] at h
    obtain rfl := Option.some.inj h
    exact fun s hs ↦ (sent_of_genHello n s hs).imp_right .inr
  · exact fun s hs ↦ (noHello_handle htype hr h s hs).imp_right .inl

end Sending

/-- The addresses in the table `neigh_tx` differ. -/
structure TxDistinct (x : AodvNeigh) : Prop where
  length : x.loadMetric.neighTx.length = neighTablesize
  nodup : (x.loadMetric.neighTx.filter (· != 0)).Nodup

section Slots

variable {x : AodvNeigh} {a : Ip} {A : Finset Ip}

theorem txDistinct_new (cfg : Config) (ip : Ip) : TxDistinct (newAodvNeigh cfg ip) := by
  have htx : (newAodvNeigh cfg ip).loadMetric.neighTx = List.replicate neighTablesize 0 := rfl
  refine ⟨by rw [htx, List.length_replicate], ?_⟩
  rw [htx, List.filter_replicate_of_neg (by simp)]
  exact List.nodup_nil

/-- A table whose addresses are among `A` has room for one that is in `A`, or
lists it. -/
theorem mem_of_full (hx : TxDistinct x) (hA : A.card ≤ neighTablesize) (ha : a ∈ A)
    (hroom : ∀ b ∈ x.loadMetric.neighTx, b ≠ 0 → b ∈ A) (hfull : 0 ∉ x.loadMetric.neighTx) :
    a ∈ x.loadMetric.neighTx := by
  have hne : ∀ b ∈ x.loadMetric.neighTx, b ≠ 0 := fun b hb heq ↦ hfull (heq ▸ hb)
  have hnodup : x.loadMetric.neighTx.Nodup := by
    have hall : x.loadMetric.neighTx.filter (· != 0) = x.loadMetric.neighTx :=
      List.filter_eq_self.mpr fun b hb ↦ bne_iff_ne.mpr (hne b hb)
    exact hall ▸ hx.nodup
  have hsub : x.loadMetric.neighTx.toFinset ⊆ A := fun b hb ↦
    hroom b (List.mem_toFinset.mp hb) (hne b (List.mem_toFinset.mp hb))
  have hcard : A.card ≤ x.loadMetric.neighTx.toFinset.card := by
    rwa [List.toFinset_card_of_nodup hnodup, hx.length]
  rw [← List.mem_toFinset, Finset.eq_of_subset_of_card_le hsub hcard]
  exact ha

theorem updateNeightx_kept (hx : TxDistinct x) (hA : A.card ≤ neighTablesize) (ha : a ∈ A)
    (hroom : ∀ b ∈ x.loadMetric.neighTx, b ≠ 0 → b ∈ A) :
    storedLoad (updateNeightx a x) = storedLoad x ∧ TxDistinct (updateNeightx a x) ∧
      ∀ b ∈ (updateNeightx a x).loadMetric.neighTx, b ≠ 0 → b ∈ A := by
  unfold updateNeightx
  dsimp only
  split
  · exact ⟨rfl, hx, hroom⟩
  next hnone =>
  have hmem : a ∉ x.loadMetric.neighTx := fun hmem ↦
    absurd (List.findIdx?_eq_none_iff.mp hnone a hmem) (by simp)
  split
  · next i hi =>
    obtain ⟨hlt, hzero, -⟩ := List.findIdx?_eq_some_iff_getElem.mp hi
    refine ⟨rfl, ⟨by rw [List.length_set]; exact hx.length, ?_⟩, fun b hb hb0 ↦ ?_⟩
    · have hsplit : x.loadMetric.neighTx = x.loadMetric.neighTx.take i ++ 0 :: x.loadMetric.neighTx.drop (i + 1) := by
        have hdrop := List.drop_eq_getElem_cons hlt
        rw [beq_iff_eq.mp hzero] at hdrop
        rw [← hdrop, List.take_append_drop]
      have hold := hx.nodup
      rw [hsplit, List.filter_append, List.filter_cons_of_neg (by simp)] at hold
      rw [List.set_eq_take_append_cons_drop, if_pos hlt, List.filter_append]
      by_cases ha0 : a = 0
      · rwa [List.filter_cons_of_neg (by simp [ha0])]
      · rw [List.filter_cons_of_pos (by simp [ha0]), List.nodup_middle, List.nodup_cons]
        refine ⟨fun hin ↦ hmem ?_, hold⟩
        rcases List.mem_append.mp hin with hin | hin
        · exact List.mem_of_mem_take (List.mem_of_mem_filter hin)
        · exact List.mem_of_mem_drop (List.mem_of_mem_filter hin)
    · rcases List.mem_or_eq_of_mem_set hb with hb | rfl
      · exact hroom b hb hb0
      · exact ha
  · next hfull =>
    refine absurd (mem_of_full hx hA ha hroom fun hzero ↦ ?_) hmem
    exact absurd (List.findIdx?_eq_none_iff.mp hfull 0 hzero) (by simp)

end Slots

/-- A load numbered `seq` would not be stored for the address. -/
structure NoNews (ip : Ip) (seq : UInt16) (n : Node) : Prop where
  neigh : ∀ x ∈ n.aodvNeighList, x.ip = ip → newerLoad (storedLoad x).2 seq = false
  neigh2h : ∀ y ∈ n.aodvNeighList2h, y.ip = ip → newerLoad (storedLoad2h y).2 seq = false
  unlisted : (∀ x ∈ n.aodvNeighList, x.ip ≠ ip) → (∀ y ∈ n.aodvNeighList2h, y.ip ≠ ip) → newerLoad 0 seq = false

/-- What holds of the loads between two tasks. -/
structure LoadsSound (l : List Network) (n : Node) : Prop where
  tables : TablesOrdered n
  loads : LoadsAttributed l n
  slots : ∀ x ∈ n.aodvNeighList, TxDistinct x

/-- What holds of a node while it goes through a HELLO `m` of `orig`. The table of
the sender stays within `A`. -/
structure Hearing (l : List Network) (orig : Ip) (m : Hello) (A : Finset Ip) (n : Node) : Prop extends LoadsSound l n where
  room : ∀ x ∈ n.aodvNeighList, x.ip = orig → ∀ a ∈ x.loadMetric.neighTx, a ≠ 0 → a ∈ A
  words : ∀ a ∈ namedOthers m n, Attributed l a (m.load, m.loadSeq) ∨ NoNews a m.loadSeq n

section Hearing

variable {l : List Network} {orig ip : Ip} {m : Hello} {A : Finset Ip} {n n' : Node}

theorem noNews_of_storedSeq {seq : UInt16} (h : TablesOrdered n) (hseq : newerLoad (storedSeq ip n) seq = false) :
    NoNews ip seq n where
  neigh x hx hip := by
    have hfind := h.find_iff.mpr ⟨hx, hip⟩
    rwa [storedSeq, hfind] at hseq
  neigh2h y hy hip := by
    have hfind := h.find2h_iff.mpr ⟨hy, hip⟩
    have hnone : n.findAodvNeigh ip = none := Option.eq_none_iff_forall_ne_some.mpr fun x hx ↦
      h.disjoint x (h.find_iff.mp hx).1 y hy ((h.find_iff.mp hx).2.trans hip.symm)
    rwa [storedSeq, hnone, hfind] at hseq
  unlisted hneigh hneigh2h := by
    have hnone : n.findAodvNeigh ip = none := Option.eq_none_iff_forall_ne_some.mpr fun x hx ↦
      hneigh x (h.find_iff.mp hx).1 (h.find_iff.mp hx).2
    have hnone2h : n.findAodvNeigh2h ip = none := Option.eq_none_iff_forall_ne_some.mpr fun y hy ↦
      hneigh2h y (h.find2h_iff.mp hy).1 (h.find2h_iff.mp hy).2
    rwa [storedSeq, hnone, hnone2h] at hseq

/-- A pair that is taken is not newer than itself. -/
theorem newerLoad_update {load : UInt8} {seq old : UInt16} (p : UInt8 × UInt16) (hp : p.2 = old) :
    newerLoad (if newerLoad old seq then (load, seq) else p).2 seq = false := by
  split
  · simp [newerLoad]
  · next h => exact hp ▸ eq_false_of_ne_true h

/-- A neighbour is changed as far as its load and its table allow. -/
theorem Hearing.modifyNeigh (h : Hearing l orig m A n) (ip : Ip) {f : AodvNeigh → AodvNeigh}
    (hip : ∀ x, (f x).ip = x.ip)
    (hload : ∀ x ∈ n.aodvNeighList, x.ip = ip → Attributed l ip (storedLoad (f x)))
    (hslots : ∀ x ∈ n.aodvNeighList, x.ip = ip → TxDistinct (f x))
    (hroom : ∀ x ∈ n.aodvNeighList, x.ip = ip → ip = orig → ∀ a ∈ (f x).loadMetric.neighTx, a ≠ 0 → a ∈ A)
    (hseq : ip ∈ namedOthers m n → ¬ Attributed l ip (m.load, m.loadSeq) → ∀ x ∈ n.aodvNeighList, x.ip = ip →
      newerLoad (storedLoad x).2 m.loadSeq = false → newerLoad (storedLoad (f x)).2 m.loadSeq = false) :
    Hearing l orig m A (n.modifyNeigh ip f) := by
  have hmem : ∀ x' ∈ (n.modifyNeigh ip f).aodvNeighList, x' ∈ n.aodvNeighList ∨
      ∃ x ∈ n.aodvNeighList, x.ip = ip ∧ x' = f x := by
    intro x' hx'
    rcases OrderedList.mem_modifyFirst hx' with hx' | ⟨x, hx, heq, rfl⟩
    · exact .inl hx'
    · exact .inr ⟨x, hx, beq_iff_eq.mp heq, rfl⟩
  refine ⟨⟨h.tables.modifyNeigh ip hip, ⟨fun x' hx' ↦ ?_, h.loads.neigh2h⟩, fun x' hx' ↦ ?_⟩, fun x' hx' ho ↦ ?_,
    fun a ha ↦ ?_⟩
  · rcases hmem x' hx' with hx' | ⟨x, hx, heq, rfl⟩
    · exact h.loads.neigh x' hx'
    · rw [hip, heq]
      exact hload x hx heq
  · rcases hmem x' hx' with hx' | ⟨x, hx, heq, rfl⟩
    · exact h.slots x' hx'
    · exact hslots x hx heq
  · rcases hmem x' hx' with hx' | ⟨x, hx, heq, rfl⟩
    · exact h.room x' hx' ho
    · exact hroom x hx heq (heq.symm.trans ((hip x).symm.trans ho))
  · by_cases hattr : Attributed l a (m.load, m.loadSeq)
    · exact .inl hattr
    · have hnews := (h.words a ha).resolve_left hattr
      refine .inr ⟨fun x' hx' heq ↦ ?_, hnews.neigh2h, fun hnone hnone2h ↦ hnews.unlisted (fun x hx heq ↦ ?_) hnone2h⟩
      · rcases hmem x' hx' with hx' | ⟨x, hx, heq', rfl⟩
        · exact hnews.neigh x' hx' heq
        · have heq₁ : a = ip := heq.symm.trans ((hip x).trans heq')
          subst heq₁
          exact hseq ha hattr x hx heq' (hnews.neigh x hx heq')
      · obtain ⟨x', hx', heq'⟩ := hasNeigh_modifyNeigh hip ⟨x, hx, heq⟩
        exact hnone x' hx' heq'

theorem Hearing.updateNeighLoad (h : Hearing l orig m A n) (ip : Ip)
    (hown : ip = orig → Attributed l orig (m.load, m.loadSeq)) (hnamed : ip ≠ orig → ip ∈ namedOthers m n) :
    Hearing l orig m A (n.modifyNeigh ip (updateNeighLoad m.load m.loadSeq)) := by
  have htx : ∀ x : AodvNeigh, (Node.updateNeighLoad m.load m.loadSeq x).loadMetric.neighTx = x.loadMetric.neighTx := by
    intro x
    unfold Node.updateNeighLoad
    split <;> rfl
  refine h.modifyNeigh ip (updateNeighLoad_ip _ _) (fun x hx hip ↦ ?_) (fun x hx _ ↦ ?_) (fun x hx hip ho ↦ ?_)
    fun _ _ x _ _ _ ↦ ?_
  · rw [storedLoad_updateNeighLoad]
    split
    · next hnewer =>
      by_cases ho : ip = orig
      · exact ho ▸ hown ho
      · rcases h.words ip (hnamed ho) with hattr | hnews
        · exact hattr
        · rw [hnews.neigh x hx hip] at hnewer
          cases hnewer
    · exact hip ▸ h.loads.neigh x hx
  · exact ⟨by rw [htx]; exact (h.slots x hx).length, by rw [htx]; exact (h.slots x hx).nodup⟩
  · rw [htx]
    exact h.room x hx (hip.trans ho)
  · rw [storedLoad_updateNeighLoad]
    exact newerLoad_update _ rfl

theorem Hearing.updateNeightx (h : Hearing l orig m A n) (hA : A.card ≤ neighTablesize) (ha : ip ∈ A) :
    Hearing l orig m A (n.modifyNeigh orig (updateNeightx ip)) := by
  have hkept : ∀ x ∈ n.aodvNeighList, x.ip = orig → storedLoad (Node.updateNeightx ip x) = storedLoad x ∧
      TxDistinct (Node.updateNeightx ip x) ∧
        ∀ b ∈ (Node.updateNeightx ip x).loadMetric.neighTx, b ≠ 0 → b ∈ A :=
    fun x hx ho ↦ updateNeightx_kept (h.slots x hx) hA ha (h.room x hx ho)
  refine h.modifyNeigh orig (updateNeightx_ip _) (fun x hx ho ↦ ?_) (fun x hx ho ↦ (hkept x hx ho).2.1)
    (fun x hx ho _ ↦ (hkept x hx ho).2.2) fun _ _ x hx ho hnews ↦ ?_
  · rw [(hkept x hx ho).1, ← ho]
    exact h.loads.neigh x hx
  · rwa [(hkept x hx ho).1]

/-- What else is known of a neighbour may change. -/
theorem Hearing.modifyRest (h : Hearing l orig m A n) (ip : Ip) {f : AodvNeigh → AodvNeigh}
    (hf : ∀ x, (f x).ip = x.ip ∧ (f x).loadMetric = x.loadMetric) : Hearing l orig m A (n.modifyNeigh ip f) := by
  have hload : ∀ x, storedLoad (f x) = storedLoad x := fun x ↦ by rw [storedLoad, (hf x).2]; rfl
  refine h.modifyNeigh ip (fun x ↦ (hf x).1) (fun x hx hip ↦ ?_) (fun x hx _ ↦ ?_) (fun x hx hip ho ↦ ?_)
    fun _ _ x _ _ hnews ↦ ?_
  · rw [hload, ← hip]
    exact h.loads.neigh x hx
  · exact ⟨(hf x).2 ▸ (h.slots x hx).length, (hf x).2 ▸ (h.slots x hx).nodup⟩
  · rw [(hf x).2]
    exact h.room x hx (hip.trans ho)
  · rwa [hload]

theorem mem_refreshNeigh2h {y' : AodvNeigh2h} (hy' : y' ∈ (n.refreshNeigh2h ip).aodvNeighList2h) :
    (∃ y ∈ n.aodvNeighList2h, y'.ip = y.ip ∧ storedLoad2h y' = storedLoad2h y) ∨
      n.findAodvNeigh2h ip = none ∧ y'.ip = ip ∧ storedLoad2h y' = (0, 0) := by
  unfold Node.refreshNeigh2h at hy'
  split at hy'
  · next hnone =>
    unfold createAodvNeigh2h at hy'
    dsimp only at hy'
    split at hy'
    · exact .inl ⟨y', hy', rfl, rfl⟩
    split at hy'
    · exact .inl ⟨y', hy', rfl, rfl⟩
    · rcases OrderedList.mem_insertBy.mp hy' with rfl | hy'
      · exact .inr ⟨hnone, rfl, rfl⟩
      · exact .inl ⟨y', hy', rfl, rfl⟩
  · rcases OrderedList.mem_modifyFirst hy' with hy' | ⟨y, hy, -, rfl⟩
    · exact .inl ⟨y', hy', rfl, rfl⟩
    · exact .inl ⟨y, hy, rfl, rfl⟩

theorem ip_mem_refreshNeigh2h (ip : Ip) {y : AodvNeigh2h} (hy : y ∈ n.aodvNeighList2h) :
    ∃ y' ∈ (n.refreshNeigh2h ip).aodvNeighList2h, y'.ip = y.ip := by
  unfold Node.refreshNeigh2h
  split
  · unfold createAodvNeigh2h
    dsimp only
    split
    · exact ⟨y, hy, rfl⟩
    split
    · exact ⟨y, hy, rfl⟩
    · exact ⟨y, OrderedList.mem_insertBy.mpr (.inr hy), rfl⟩
  · have hips : y.ip ∈ (OrderedList.modifyFirst (fun y ↦ y.ip == ip)
        (fun y ↦ { y with lifetime := n.now + neighbor2hTimeout }) n.aodvNeighList2h).map AodvNeigh2h.ip := by
      rw [OrderedList.map_modifyFirst (f := fun y : AodvNeigh2h ↦ { y with lifetime := n.now + neighbor2hTimeout }) fun _ ↦ rfl]
      exact List.mem_map_of_mem hy
    obtain ⟨y', hy', heq⟩ := List.mem_map.mp hips
    exact ⟨y', hy', heq⟩

theorem Hearing.refreshNeigh2h (h : Hearing l orig m A n) (hip : ip ≠ n.cfg.gMeshIp)
    (hnone : n.findAodvNeigh ip = none) : Hearing l orig m A (n.refreshNeigh2h ip) := by
  obtain ⟨hcfg, hlist⟩ := refreshNeigh2h_frame ip n
  refine ⟨⟨h.tables.refreshNeigh2h hip hnone, ⟨hlist ▸ h.loads.neigh, fun y' hy' ↦ ?_⟩, hlist ▸ h.slots⟩,
    hlist ▸ h.room, fun a ha ↦ ?_⟩
  · rcases mem_refreshNeigh2h hy' with ⟨y, hy, heq, hload⟩ | ⟨-, -, hload⟩
    · rw [heq, hload]
      exact h.loads.neigh2h y hy
    · exact .inl hload
  · have ha : a ∈ namedOthers m n := by rwa [namedOthers, hcfg] at ha
    refine (h.words a ha).imp_right fun hnews ↦ ⟨hlist ▸ hnews.neigh, fun y' hy' heq ↦ ?_, fun hno hno2h ↦ ?_⟩
    · rcases mem_refreshNeigh2h hy' with ⟨y, hy, heq', hload⟩ | ⟨hnone2h, heq', hload⟩
      · rw [hload]
        exact hnews.neigh2h y hy (heq'.symm.trans heq)
      · obtain rfl := heq'.symm.trans heq
        rw [hload]
        exact hnews.unlisted (fun x hx ↦ h.tables.ip_ne_of_find hnone hx) fun y hy ↦
          h.tables.ip_ne_of_find2h hnone2h hy
    · refine hnews.unlisted (hlist ▸ hno) fun y hy heq ↦ ?_
      obtain ⟨y', hy', heq'⟩ := ip_mem_refreshNeigh2h ip hy
      exact hno2h y' hy' (heq'.trans heq)

theorem Hearing.updateNeighLoad2h (h : Hearing l orig m A n) (hip : ip ∈ namedOthers m n) :
    Hearing l orig m A (n.modifyNeigh2h ip (updateNeighLoad2h m.load m.loadSeq)) := by
  have hmem : ∀ y' ∈ (n.modifyNeigh2h ip (Node.updateNeighLoad2h m.load m.loadSeq)).aodvNeighList2h,
      y' ∈ n.aodvNeighList2h ∨
        ∃ y ∈ n.aodvNeighList2h, y.ip = ip ∧ y' = Node.updateNeighLoad2h m.load m.loadSeq y := by
    intro y' hy'
    rcases OrderedList.mem_modifyFirst hy' with hy' | ⟨y, hy, heq, rfl⟩
    · exact .inl hy'
    · exact .inr ⟨y, hy, beq_iff_eq.mp heq, rfl⟩
  refine ⟨⟨h.tables.modifyNeigh2h ip (updateNeighLoad2h_ip _ _), ⟨h.loads.neigh, fun y' hy' ↦ ?_⟩, h.slots⟩, h.room,
    fun a ha ↦ (h.words a ha).imp_right fun hnews ↦ ⟨hnews.neigh, fun y' hy' heq ↦ ?_, fun hno hno2h ↦ ?_⟩⟩
  · rcases hmem y' hy' with hy' | ⟨y, hy, heq, rfl⟩
    · exact h.loads.neigh2h y' hy'
    · rw [updateNeighLoad2h_ip, storedLoad2h_updateNeighLoad2h]
      split
      · next hnewer =>
        rw [heq]
        rcases h.words ip hip with hattr | hnews
        · exact hattr
        · rw [hnews.neigh2h y hy heq] at hnewer
          cases hnewer
      · exact h.loads.neigh2h y hy
  · rcases hmem y' hy' with hy' | ⟨y, hy, heq', rfl⟩
    · exact hnews.neigh2h y' hy' heq
    · rw [storedLoad2h_updateNeighLoad2h]
      exact newerLoad_update _ rfl
  · refine hnews.unlisted hno fun y hy heq ↦ ?_
    have hips : y.ip ∈ (n.modifyNeigh2h ip (Node.updateNeighLoad2h m.load m.loadSeq)).aodvNeighList2h.map AodvNeigh2h.ip := by
      rw [Node.modifyNeigh2h, OrderedList.map_modifyFirst (updateNeighLoad2h_ip _ _)]
      exact List.mem_map_of_mem hy
    obtain ⟨y', hy', heq'⟩ := List.mem_map.mp hips
    exact hno2h y' hy' (heq'.trans heq)

theorem Hearing.recvHelloExtension {ext : HelloExtension} (h : Hearing l orig m A n)
    (hown : Attributed l orig (m.load, m.loadSeq)) (hA : A.card ≤ neighTablesize) (hext : ext ∈ m.ext)
    (hip : ext.ip ≠ n.cfg.gMeshIp) (ha : ext.ip ∈ A) : Hearing l orig m A (n.recvHelloExtension orig m ext) := by
  have hnamed : ext.ip ∈ namedOthers m n :=
    List.mem_filter.mpr ⟨List.mem_map_of_mem hext, bne_iff_ne.mpr hip⟩
  unfold Node.recvHelloExtension
  dsimp only
  split
  · exact (h.updateNeighLoad ext.ip (fun _ ↦ hown) fun _ ↦ hnamed).updateNeightx hA ha
  · next hnone =>
    have hrefreshed := h.refreshNeigh2h hip hnone
    have hnamed' : ext.ip ∈ namedOthers m (n.refreshNeigh2h ext.ip) := by
      rwa [namedOthers, (refreshNeigh2h_frame ext.ip n).1]
    exact (hrefreshed.updateNeighLoad2h hnamed').updateNeightx hA ha

theorem Hearing.recvHelloExtensions {exts : List HelloExtension} (h : Hearing l orig m A n)
    (hown : Attributed l orig (m.load, m.loadSeq)) (hA : A.card ≤ neighTablesize) (hexts : exts ⊆ m.ext)
    (hnamed : ∀ ext ∈ exts, ext.ip ≠ n.cfg.gMeshIp → ext.ip ∈ A) :
    Hearing l orig m A (Node.recvHelloExtensions orig m exts n) := by
  induction exts generalizing n with
  | nil => exact h
  | cons ext exts ih =>
    have hrest : exts ⊆ m.ext := fun _ hmem ↦ hexts (List.mem_cons_of_mem _ hmem)
    unfold Node.recvHelloExtensions
    split
    · have hsend := h.modifyRest orig (f := fun x ↦ { x with etx := { x.etx with sendEtx := ext.count } }) fun _ ↦ ⟨rfl, rfl⟩
      dsimp only
      split
      · exact hsend
      · exact ih hsend hrest fun ext' hmem ↦ hnamed ext' (List.mem_cons_of_mem _ hmem)
    · next hip =>
      split
      · have hheard := h.recvHelloExtension hown hA (hexts List.mem_cons_self) hip (hnamed ext List.mem_cons_self hip)
        have hcfg : (n.recvHelloExtension orig m ext).cfg = n.cfg := (calm_recvHelloExtension (P := isPlain) orig m ext n).cfg
        exact ih hheard hrest fun ext' hmem hne ↦ hnamed ext' (List.mem_cons_of_mem _ hmem) (hcfg ▸ hne)
      · exact ih h hrest fun ext' hmem ↦ hnamed ext' (List.mem_cons_of_mem _ hmem)

/-- Only what is known of loads matters. -/
theorem Hearing.lists (h : Hearing l orig m A n) (hcfg : n'.cfg = n.cfg) (hneigh : n'.aodvNeighList = n.aodvNeighList)
    (hneigh2h : n'.aodvNeighList2h = n.aodvNeighList2h) : Hearing l orig m A n' where
  tables := h.tables.lists hcfg hneigh hneigh2h
  loads := ⟨hneigh ▸ h.loads.neigh, hneigh2h ▸ h.loads.neigh2h⟩
  slots := hneigh ▸ h.slots
  room := hneigh ▸ h.room
  words a ha := by
    rw [namedOthers, hcfg] at ha
    refine (h.words a ha).imp_right fun hnews ↦ ⟨hneigh ▸ hnews.neigh, hneigh2h ▸ hnews.neigh2h, fun hno hno2h ↦ ?_⟩
    exact hnews.unlisted (hneigh ▸ hno) (hneigh2h ▸ hno2h)

theorem Hearing.updateNeighLifetime (h : Hearing l orig m A n) (ip : Ip) :
    Hearing l orig m A (n.updateNeighLifetime ip) := by
  have htimers : Hearing l orig m A ((n.removeTimer ip ip noTos .neighbor).insertTimer .neighbor
      (helloInterval * (1 + allowedHelloLoss) + 100) ip).updateTimers := h.lists rfl rfl rfl
  exact htimers.modifyRest ip fun _ ↦ ⟨rfl, rfl⟩

theorem Hearing.helloFromNeigh (h : Hearing l orig m A n) (hown : Attributed l orig (m.load, m.loadSeq))
    (hA : A.card ≤ neighTablesize) (hnamed : ∀ a ∈ namedOthers m n, a ∈ A) :
    Hearing l orig m A (n.helloFromNeigh orig m) := by
  have hrefreshed := h.updateNeighLifetime orig
  unfold Node.helloFromNeigh
  dsimp only
  split
  · exact hrefreshed
  · have hcounted := hrefreshed.modifyRest orig (f := fun x ↦ { x with etx := { x.etx with count := x.etx.count + 1 } })
      fun _ ↦ ⟨rfl, rfl⟩
    have hnamed : ∀ ext ∈ m.ext, ext.ip ≠ n.cfg.gMeshIp → ext.ip ∈ A := fun ext hext hip ↦
      hnamed ext.ip (List.mem_filter.mpr ⟨List.mem_map_of_mem hext, bne_iff_ne.mpr hip⟩)
    split
    · exact (hcounted.updateNeighLoad orig (fun _ ↦ hown) fun hne ↦ absurd rfl hne).recvHelloExtensions hown hA
        (fun _ hmem ↦ hmem) hnamed
    · exact hcounted.recvHelloExtensions hown hA (fun _ hmem ↦ hmem) hnamed

theorem Hearing.same (h : Hearing l orig m A n) (hsame : NeighSame n n') : Hearing l orig m A n' := by
  have hback : ∀ x' ∈ n'.aodvNeighList, ∃ x ∈ n.aodvNeighList, x'.ip = x.ip ∧ x'.loadMetric = x.loadMetric := by
    intro x' hx'
    obtain ⟨x, hx, htouch⟩ := Pointwise.exists_of_mem_right hsame.neigh hx'
    exact ⟨x, hx, htouch.ip, htouch.loadMetric⟩
  have htables : TablesOrdered n' :=
    h.tables.of_ips hsame.cfg (Pointwise.map_eq hsame.neigh fun htouch ↦ htouch.ip) (by rw [hsame.neigh2h])
  refine ⟨⟨htables, ⟨fun x' hx' ↦ ?_, hsame.neigh2h ▸ h.loads.neigh2h⟩, fun x' hx' ↦ ?_⟩, fun x' hx' ho ↦ ?_,
    fun a ha ↦ ?_⟩
  · obtain ⟨x, hx, hip, hload⟩ := hback x' hx'
    rw [hip, storedLoad, hload]
    exact h.loads.neigh x hx
  · obtain ⟨x, hx, -, hload⟩ := hback x' hx'
    exact ⟨hload ▸ (h.slots x hx).length, hload ▸ (h.slots x hx).nodup⟩
  · obtain ⟨x, hx, hip, hload⟩ := hback x' hx'
    rw [hload]
    exact h.room x hx (hip.symm.trans ho)
  · rw [namedOthers, hsame.cfg] at ha
    refine (h.words a ha).imp_right fun hnews ↦ ⟨fun x' hx' heq ↦ ?_, hsame.neigh2h ▸ hnews.neigh2h, fun hno hno2h ↦ ?_⟩
    · obtain ⟨x, hx, hip, hload⟩ := hback x' hx'
      rw [storedLoad, hload]
      exact hnews.neigh x hx (hip.symm.trans heq)
    · refine hnews.unlisted (fun x hx heq ↦ ?_) (hsame.neigh2h ▸ hno2h)
      obtain ⟨x', hx', htouch⟩ := Pointwise.exists_of_mem_left hsame.neigh hx
      exact hno x' hx' (htouch.ip.trans heq)

/-- The 2-hop entry of the sender, whose load is known, is given up. -/
theorem Hearing.takeNeigh2h (h : Hearing l orig m A n) (hown : Attributed l orig (m.load, m.loadSeq)) :
    Hearing l orig m A (n.takeNeigh2h orig).2.2 ∧
      Attributed l orig ((n.takeNeigh2h orig).1, (n.takeNeigh2h orig).2.1) := by
  unfold Node.takeNeigh2h
  split
  · next y hy =>
    obtain ⟨hmem, rfl⟩ := h.tables.find2h_iff.mp hy
    obtain ⟨hcfg, hneigh⟩ := deleteAodvNeigh2h_frame y.ip n
    obtain ⟨-, hneigh2h⟩ := deleteAodvNeigh2h_list y.ip n
    have hsub : (n.deleteAodvNeigh2h y.ip).aodvNeighList2h ⊆ n.aodvNeighList2h :=
      fun y' hy' ↦ List.eraseP_subset (hneigh2h ▸ hy')
    refine ⟨⟨⟨(h.tables.deleteAodvNeigh2h y.ip).1, ⟨hneigh ▸ h.loads.neigh, fun y' hy' ↦ h.loads.neigh2h y' (hsub hy')⟩,
      hneigh ▸ h.slots⟩, hneigh ▸ h.room, fun a ha ↦ ?_⟩, h.loads.neigh2h y hmem⟩
    rw [namedOthers, hcfg] at ha
    by_cases hself : a = y.ip
    · exact .inl (hself ▸ hown)
    · refine (h.words a ha).imp_right fun hnews ↦ ⟨hneigh ▸ hnews.neigh,
        fun y' hy' ↦ hnews.neigh2h y' (hsub hy'), fun hno hno2h ↦ hnews.unlisted (hneigh ▸ hno) fun y' hy' heq ↦ ?_⟩
      refine hno2h y' ?_ heq
      rw [hneigh2h]
      refine (List.mem_eraseP_of_neg ?_).mpr hy'
      rw [heq, beq_iff_eq]
      exact hself
  · exact ⟨h, .inl rfl⟩

theorem Hearing.meets (h : Hearing l orig m A n) (hown : Attributed l orig (m.load, m.loadSeq))
    (hnone : n.findAodvNeigh2h orig = none) (hmeets : MeetsNeigh orig n n') : Hearing l orig m A n' := by
  have hback : ∀ x ∈ n'.aodvNeighList, x = newAodvNeigh n.cfg orig ∨ x ∈ n.aodvNeighList := fun x hx ↦
    OrderedList.mem_insertBy.mp (hmeets.neigh ▸ hx)
  refine ⟨⟨h.tables.meets hnone hmeets, ⟨fun x hx ↦ ?_, hmeets.neigh2h ▸ h.loads.neigh2h⟩, fun x hx ↦ ?_⟩,
    fun x hx ho ↦ ?_, fun a ha ↦ ?_⟩
  · rcases hback x hx with rfl | hx
    · exact .inl rfl
    · exact h.loads.neigh x hx
  · rcases hback x hx with rfl | hx
    · exact txDistinct_new _ _
    · exact h.slots x hx
  · rcases hback x hx with rfl | hx
    · intro a ha hne
      exact absurd (List.eq_of_mem_replicate ha) hne
    · exact h.room x hx ho
  · rw [namedOthers, hmeets.cfg] at ha
    by_cases hself : a = orig
    · exact .inl (hself ▸ hown)
    · refine (h.words a ha).imp_right fun hnews ↦ ⟨fun x hx heq ↦ ?_, hmeets.neigh2h ▸ hnews.neigh2h, fun hno hno2h ↦ ?_⟩
      · rcases hback x hx with rfl | hx
        · exact absurd heq.symm hself
        · exact hnews.neigh x hx heq
      · refine hnews.unlisted (fun x hx ↦ hno x ?_) (hmeets.neigh2h ▸ hno2h)
        rw [hmeets.neigh]
        exact OrderedList.mem_insertBy.mpr (.inr hx)

/-- The way of a sender into the neighbour table. -/
theorem Hearing.newHelloNeigh {ok : Bool} (h : Hearing l orig m A n) (hown : Attributed l orig (m.load, m.loadSeq))
    (hnew : n.newHelloNeigh orig = some (ok, n')) : n'.cfg = n.cfg ∧ Hearing l orig m A n' := by
  obtain ⟨htaken, hload⟩ := h.takeNeigh2h hown
  have htakencfg := (takeNeigh2h_frame orig n).1
  obtain ⟨⟨ok₁, n₁⟩, hcreate, hnew⟩ := Option.bind_eq_some_iff.mp hnew
  have hcreated : n₁.cfg = n.cfg ∧ Hearing l orig m A n₁ := by
    rcases createAodvNeigh_spec hcreate with ⟨-, hsame⟩ | ⟨-, hmeets⟩
    · exact ⟨hsame.cfg.trans htakencfg, htaken.same hsame⟩
    · exact ⟨hmeets.cfg.trans htakencfg, htaken.meets hown (h.tables.takeNeigh2h orig).2 hmeets⟩
  cases ok₁ with
  | false =>
    simp only [Bool.not_false, if_true, Option.some.injEq, Prod.mk.injEq] at hnew
    exact hnew.2 ▸ hcreated
  | true =>
    obtain ⟨n₂, hrecover, hnew⟩ := Option.bind_eq_some_iff.mp hnew
    simp only [Option.some.injEq, Prod.mk.injEq] at hnew
    have hsame := (neighSame_recoverLinks hrecover).trans (neighSame_of_steady (steady_redirectRoutes n₂.routing.table n₂))
    have hredirected := hcreated.2.same hsame
    rw [← hnew.2]
    refine ⟨hsame.cfg.trans hcreated.1, ?_⟩
    refine hredirected.modifyNeigh orig (fun _ ↦ rfl) (fun x _ _ ↦ hload) (fun x hx _ ↦ ?_) (fun x hx ho _ ↦ ?_)
      fun _ hattr ↦ absurd hown hattr
    · exact ⟨(hredirected.slots x hx).length, (hredirected.slots x hx).nodup⟩
    · exact hredirected.room x hx ho

end Hearing

section Tasks

variable {l : List Network} {m : Hello} {n₀ n n' : Node} {t : Task}

/-- As if the node heard a HELLO that says nothing. -/
theorem LoadsSound.hearing (h : LoadsSound l n) (orig : Ip) :
    Hearing l orig ⟨0, 0, 0, []⟩ (n.aodvNeighList.flatMap fun x ↦ x.loadMetric.neighTx).toFinset n where
  toLoadsSound := h
  room x hx _ _ ha _ := List.mem_toFinset.mpr (List.mem_flatMap.mpr ⟨x, hx, ha⟩)
  words _ ha := absurd ha List.not_mem_nil

theorem LoadsSound.lists (h : LoadsSound l n) (hcfg : n'.cfg = n.cfg) (hneigh : n'.aodvNeighList = n.aodvNeighList)
    (hneigh2h : n'.aodvNeighList2h = n.aodvNeighList2h) : LoadsSound l n' :=
  ((h.hearing 0).lists hcfg hneigh hneigh2h).toLoadsSound

theorem LoadsSound.sublist (h : LoadsSound l n) (hcfg : n'.cfg = n.cfg)
    (hneigh : n'.aodvNeighList.Sublist n.aodvNeighList) (hneigh2h : n'.aodvNeighList2h.Sublist n.aodvNeighList2h) :
    LoadsSound l n' where
  tables := h.tables.sublist hcfg hneigh hneigh2h
  loads := ⟨fun x hx ↦ h.loads.neigh x (hneigh.subset hx), fun y hy ↦ h.loads.neigh2h y (hneigh2h.subset hy)⟩
  slots x hx := h.slots x (hneigh.subset hx)

/-- A task without a HELLO changes no load, but for what is known of a sender. -/
theorem LoadsSound.act (h₀ : LoadsSound l n₀) (h : LoadsSound l n) (hdata : ∀ m, t.data ≠ some (.hello m))
    (hact : NeighAct n₀ t n n') : LoadsSound l n' := by
  cases hact with
  | same hsame => exact ((h.hearing t.srcIp).same hsame).toLoadsSound
  | refresh => exact ((h.hearing t.srcIp).updateNeighLifetime t.srcIp).toLoadsSound
  | arm | rearm | stop | probe | renew => exact h.lists rfl rfl rfl
  | meet _ _ _ hcreate =>
    obtain ⟨htaken, -⟩ := (h.hearing t.srcIp).takeNeigh2h (.inl rfl)
    rcases createAodvNeigh_spec hcreate with ⟨-, hsame⟩ | ⟨-, hmeets⟩
    · exact (htaken.same hsame).toLoadsSound
    · exact (htaken.meets (.inl rfl) (h.tables.takeNeigh2h t.srcIp).2 hmeets).toLoadsSound
  | lose =>
    obtain ⟨hcfg, hneigh, hneigh2h⟩ := unlinkNeigh_frame t.srcIp n₀
    exact h.sublist hcfg (hneigh ▸ List.eraseP_sublist) (hneigh2h ▸ List.Sublist.refl _)
  | lose2h =>
    obtain ⟨hcfg, hneigh⟩ := deleteAodvNeigh2h_frame t.srcIp n₀
    obtain ⟨-, hneigh2h⟩ := deleteAodvNeigh2h_list t.srcIp n₀
    exact h.sublist hcfg (hneigh ▸ List.Sublist.refl _) (hneigh2h ▸ List.eraseP_sublist)
  | takeLoad =>
    obtain ⟨-, hload⟩ := (h₀.hearing t.srcIp).takeNeigh2h (.inl rfl)
    refine Hearing.toLoadsSound ((h.hearing t.srcIp).modifyNeigh t.srcIp (fun _ ↦ rfl) (fun _ _ _ ↦ ?_) (fun x hx _ ↦ ?_)
      (fun x hx ho _ ↦ (h.hearing t.srcIp).room x hx ho) fun hnamed ↦ absurd hnamed List.not_mem_nil)
    · exact hload
    · exact ⟨(h.slots x hx).length, (h.slots x hx).nodup⟩
  | ownLoad heq | extLoad heq | refresh2h heq | extLoad2h heq | neightx heq => exact absurd heq (hdata _)

theorem LoadsSound.acts (h : LoadsSound l n₀) (hdata : ∀ m, t.data ≠ some (.hello m)) (hacts : Acts n₀ t n₀ n') :
    LoadsSound l n' := by
  induction hacts with
  | refl => exact h
  | tail _ hact ih => exact h.act ih hdata hact

theorem LoadsSound.heard (h : LoadsSound l n) (hspeaks : SpeaksForItself l t.srcIp m n) :
    Hearing l t.srcIp m (listedTx t.srcIp n ++ namedOthers m n).toFinset n where
  toLoadsSound := h
  room x hx hip a ha hne := by
    rw [List.mem_toFinset, List.mem_append, listedTx, h.tables.find_iff.mpr ⟨hx, hip⟩]
    exact .inl (List.mem_filter.mpr ⟨ha, bne_iff_ne.mpr hne⟩)
  words a ha := (hspeaks.loads a ha).imp_right (noNews_of_storedSeq h.tables)

theorem routeGranted_of_route {ip : Ip} (h : n.routeAodvNeigh ip = some (true, n')) : routeGranted ip n = true := by
  obtain ⟨dstId, -, h⟩ := Option.bind_eq_some_iff.mp h
  rcases hcreate : n.routing.createAodvRoute n.cfg.gMeshIp ip 0 dstId with ⟨_ | e, r⟩
  · simp [hcreate] at h
  have hnetlink : r.netlink = n.routing.netlink := by
    unfold Routing.createAodvRoute at hcreate
    split at hcreate
    · cases hcreate
    · exact (Prod.mk.inj hcreate).2 ▸ rfl
  rw [hcreate] at h
  dsimp only at h
  split at h
  · cases h
  split at h
  · next hok =>
    unfold Routing.newRoute at hok
    split at hok
    · next hdtn =>
      have hdtn : ip = n.cfg.dtnHelloIp ∨ n.cfg.gMeshIp = n.cfg.dtnHelloIp := hdtn
      simp [routeGranted, hdtn]
    split at hok
    · next hnext =>
      have hnext : n.routing.netlink.next = true := hnetlink ▸ hnext
      simp [routeGranted, hnext]
    · cases hok
  · cases h

theorem routeGranted_of_create {ip : Ip} (h : n.createAodvNeigh ip = some (true, n')) : routeGranted ip n = true := by
  cases createAodvNeigh_inv h with
  | linked _ _ hroute => exact routeGranted_of_route (n := n.alloc.2) hroute
  | probed _ _ hroute => exact routeGranted_of_route (n := n.alloc.2) hroute

theorem takeNeigh2h_resources (ip : Ip) (n : Node) : (n.takeNeigh2h ip).2.2.kmalloc = n.kmalloc ∧
    (n.takeNeigh2h ip).2.2.routing = n.routing := by
  unfold Node.takeNeigh2h Node.deleteAodvNeigh2h
  split
  · dsimp only
    split
    · exact ⟨rfl, rfl⟩
    · exact ⟨rfl, rfl⟩
  · exact ⟨rfl, rfl⟩

theorem granted_of_new {ip : Ip} (h : n.newHelloNeigh ip = some (true, n')) :
    givesUpEarly ip n = false ∧ routeGranted ip n = true := by
  obtain ⟨hcfg, hneigh⟩ := takeNeigh2h_frame ip n
  obtain ⟨hmemory, hrouting⟩ := takeNeigh2h_resources ip n
  obtain ⟨⟨ok, n₁⟩, hcreate, h⟩ := Option.bind_eq_some_iff.mp h
  cases ok with
  | false => simp at h
  | true =>
    have hlate : givesUpEarly ip (n.takeNeigh2h ip).2.2 = false :=
      eq_false_of_ne_true fun hearly ↦ nomatch (createAodvNeigh_early hearly hcreate).1
    have hgranted : routeGranted ip (n.takeNeigh2h ip).2.2 = true := routeGranted_of_create hcreate
    exact ⟨by rwa [givesUpEarly, isListed, hmemory, hrouting, hneigh] at hlate,
      by rwa [routeGranted, hcfg, hrouting] at hgranted⟩

theorem LoadsSound.recvHello (h : LoadsSound l n) (hown : Attributed l t.srcIp (m.load, m.loadSeq))
    (hspeaks : hears t.srcIp n = true → SpeaksForItself l t.srcIp m n) (hrecv : n.recvHello t m = some n') :
    LoadsSound l n' := by
  have hnamed : ∀ a ∈ namedOthers m n, a ∈ (listedTx t.srcIp n ++ namedOthers m n).toFinset := fun a ha ↦
    List.mem_toFinset.mpr (List.mem_append_right _ ha)
  unfold Node.recvHello at hrecv
  split at hrecv
  · exact Option.some.inj hrecv ▸ h
  next hblack =>
  split at hrecv
  · next x hx =>
    have hspeaks := hspeaks (by rw [hears, eq_false_of_ne_true hblack, hx]; rfl)
    exact Option.some.inj hrecv ▸ ((h.heard hspeaks).helloFromNeigh hown hspeaks.room hnamed).toLoadsSound
  obtain ⟨⟨ok, n₁⟩, hnew, hrecv⟩ := Option.bind_eq_some_iff.mp hrecv
  obtain rfl := Option.some.inj hrecv
  cases ok with
  | false => exact ((h.hearing t.srcIp).newHelloNeigh (.inl rfl) hnew).2.toLoadsSound
  | true =>
    obtain ⟨hlate, hgranted⟩ := granted_of_new hnew
    have hspeaks := hspeaks (by rw [hears, eq_false_of_ne_true hblack, hlate, hgranted]; exact Bool.or_true _)
    obtain ⟨hcfg, hheard⟩ := (h.heard hspeaks).newHelloNeigh hown hnew
    refine (hheard.helloFromNeigh hown hspeaks.room fun a ha ↦ hnamed a ?_).toLoadsSound
    rwa [namedOthers, hcfg] at ha

end Tasks

section Runs

variable {l past : List Network} {net : Network} {a : Ip} {n n' : Node}

/-- A network in WCIM mode with the states that it has left, every step of which
meets the condition. -/
def Record (C : List Network → Node → Event → Prop) : List Network → Network → Prop :=
  Recorded (fun net : Network ↦ net.Initial ∧ ∀ a, (net a).cfg.gRoutingMetric = .wcim)
    fun past net a e n ↦ Turn net a e n ∧ C (net :: past) (net a) e

/-- Every HELLO that is under way has the load of its sender. -/
structure Held (l : List Network) (a : Ip) (n : Node) : Prop where
  placed : Placed a n
  sound : LoadsSound l n
  sent : ∀ s ∈ n.sent, ∀ m, payload s = some (.hello m) → Announced l a (m.load, m.loadSeq)
  tasks : ∀ t ∈ n.tasks.elems, ∀ m, t.data = some (.hello m) →
    t.type = .recvHello ∧ Announced l t.srcIp (m.load, m.loadSeq)

theorem Announced.cons {ip : Ip} {p : UInt8 × UInt16} (h : Announced l ip p) : Announced (net :: l) ip p := by
  obtain ⟨net', hnet', heq⟩ := h
  exact ⟨net', List.mem_cons_of_mem _ hnet', heq⟩

theorem LoadsSound.cons (h : LoadsSound l n) : LoadsSound (net :: l) n where
  tables := h.tables
  loads := ⟨fun x hx ↦ (h.loads.neigh x hx).imp_right Announced.cons,
    fun y hy ↦ (h.loads.neigh2h y hy).imp_right Announced.cons⟩
  slots := h.slots

theorem Held.cons (h : Held l a n) : Held (net :: l) a n where
  placed := h.placed
  sound := h.sound.cons
  sent s hs m hm := (h.sent s hs m hm).cons
  tasks t ht m hm := (h.tasks t ht m hm).imp_right Announced.cons

theorem held_init (h : net.Initial) (a : Ip) : Held l a (net a) := by
  have hplaced := init_placed h a
  obtain ⟨cfg, env, -, hnet⟩ := h
  rw [hnet] at hplaced ⊢
  obtain ⟨hneigh, hneigh2h⟩ := init_neighLists (cfg a) (env a)
  obtain ⟨hsent, htasks, -⟩ := init_queues (cfg a) (env a)
  refine ⟨hplaced, ⟨init_tablesOrdered _ _, ⟨?_, ?_⟩, ?_⟩, ?_, ?_⟩
  · simp [hneigh]
  · simp [hneigh2h]
  · simp [hneigh]
  · simp [hsent]
  · simp [htasks]

theorem hello_of_stamp {m : Message} {m' : Hello} {sec usec : UInt32} (h : m.stamp sec usec = .hello m') :
    m = .hello m' := by
  cases m with
  | sprobe | lprobe => cases h
  | _ => exact h

theorem Held.sound_step (h : ∀ b, Held (net :: past) b (net b)) {e : Event} (hstep : (net a).step e = some n)
    (hspeaks : HellosSpeakForThemselves (net :: past) (net a) e) : LoadsSound (net :: past) n := by
  have hsound := (h a).sound
  cases step_neigh hstep with
  | wait ms => exact hsound.lists rfl rfl rfl
  | idle h => exact hsound.lists h.cfg h.neigh h.neigh2h
  | signal =>
    obtain ⟨hcfg, -, hneigh, hneigh2h, -⟩ := signal_neigh (net a)
    exact hsound.lists hcfg hneigh hneigh2h
  | @thread t tasks _ hpop hacts =>
    have hpopped : LoadsSound (net :: past) { net a with tasks := tasks } := hsound.lists rfl rfl rfl
    by_cases hdata : ∃ m, t.data = some (.hello m)
    · obtain ⟨m, hdata⟩ := hdata
      obtain ⟨htype, hown⟩ := (h a).tasks t (ClassQueue.pop_mem hpop) m hdata
      simp only [Node.step, threadStep, hpop, handle, htype, hdata] at hstep
      exact hpopped.recvHello (.inr hown) (hspeaks t tasks m rfl hpop htype hdata) hstep
    · exact hpopped.acts (fun m hm ↦ hdata ⟨m, hm⟩) hacts

theorem Held.step (h : ∀ b, Held (net :: past) b (net b)) {e : Event} (hturn : Turn net a e n)
    (hspeaks : HellosSpeakForThemselves (net :: past) (net a) e) : Held (net :: past) a n := by
  obtain ⟨-, hin, hstep⟩ := hturn
  have hroutes := (h a).placed.routes
  refine ⟨(h a).placed.step hstep, Held.sound_step h hstep hspeaks, ?_, ?_⟩
  · intro s hs m hm
    rcases step_path hroutes hstep with ⟨t, tasks, rfl, hpop, -⟩ | hhook
    · simp only [Node.step, threadStep, hpop] at hstep
      rcases sent_of_handle (n := { net a with tasks := tasks }) hroutes hstep s hs with hs | hs | ⟨ext, rfl⟩
      · exact (h a).sent s hs m hm
      · cases s with
        | broadcast ttl m' =>
          obtain rfl := Option.some.inj hm
          exact hs.elim
        | unicast ip ttl m' =>
          obtain rfl := Option.some.inj hm
          exact hs.elim
        | toDtn => cases hm
      · obtain rfl : helloOf ext { net a with tasks := tasks } = m := Message.hello.inj (Option.some.inj hm)
        exact ⟨net, List.mem_cons_self, rfl⟩
    · exact (h a).sent s (hhook.sent ▸ hs) m hm
  · intro t ht m hm
    rcases step_path hroutes hstep with ⟨t', tasks, rfl, hpop, hpath⟩ | hhook
    · have htasks : n.tasks = tasks := (onward_of_path hpath).tasks
      exact (h a).tasks t (ClassQueue.pop_subset hpop (htasks ▸ ht)) m hm
    · rcases hhook.tasks t ht with ht | ht | ht | ht
      · exact (h a).tasks t ht m hm
      · rw [(h a).placed.bare t ht] at hm
        cases hm
      · obtain ⟨m', hdelivered⟩ := delivered_of_arrival hin ht
        obtain ⟨sec, usec, hstamp⟩ := hdelivered.data
        obtain rfl := hello_of_stamp (Option.some.inj (hstamp.symm.trans hm))
        obtain ⟨s, hs, hpayload, -⟩ := hdelivered.sent
        exact ⟨hdelivered.type, (h t.srcIp).sent s hs m hpayload⟩
      · rw [ht.2.1] at hm
        cases hm

/-- If every HELLO that is heard speaks for itself, each load that a node has
stored was that of the node it is stored for. -/
theorem loads_attributed (h : Record HellosSpeakForThemselves past net) (a : Ip) :
    LoadsAttributed (net :: past) (net a) := by
  have hheld : ∀ b, Held (net :: past) b (net b) := by
    refine Recorded.invariant (fun net hinit b ↦ held_init hinit.1 b) (fun _ _ _ _ ↦ Held.cons) ?_ h
    intro past net b e n hall ⟨hturn, hspeaks⟩
    exact (Held.step hall hturn hspeaks).cons
  exact (hheld a).sound.loads

end Runs

section Stations

variable {past : List Network} {net : Network} {a ip : Ip} {es : List Event} {n : Node} {p : UInt8 × UInt16}

/-- A network in WCIM mode with a station under every address. -/
def wcimStations : Network := fun a ↦
  Node.init { station.cfg with gMeshIp := a, gRoutingMetric := .wcim, gFixedRate := 110 } plainEnvironment

theorem wcimStations_record (C : List Network → Node → Event → Prop) : Record C [] wcimStations := by
  refine .init ⟨⟨_, fun _ ↦ plainEnvironment, fun _ ↦ rfl, fun _ ↦ rfl⟩, fun a ↦ ?_⟩
  rw [wcimStations, (init_frame _ _).1]

theorem Record.alone {C : List Network → Node → Event → Prop} {P : Node → Prop} (h : Record C past net)
    (ha : a ≠ gNullIp)
    (hin : ∀ p, .input p ∈ es → p.ifaAddress = a ∧ p.saddr ≠ a ∧
      ∀ m, p.message = some m → ∃ s ∈ (net p.saddr).sent, s.reaches a p.ttl m)
    (hC : Lockstep.Along Node.step (fun b e ↦ P b ∧ ∀ l, C l b e) es (net a)) (hrun : runs es (net a) = some n) :
    ∃ past', Record C past' (Function.update net a n) ∧
      ∀ s ∈ past', s ∈ past ∨ ∃ b, P b ∧ s = Function.update net a b := by
  rw [runs_eq] at hrun
  refine Recorded.run h (((along_turn ha hin).and hC).mono fun b e hgood ↦ ⟨hgood.2.1, fun past' b' hb' ↦ ?_⟩) hrun
  refine ⟨hgood.1 b' hb', ?_⟩
  rw [Function.update_self]
  exact hgood.2.2 _

theorem Record.lasting (h : Record (fun _ _ _ ↦ True) past net) (hlast : ∀ s ∈ net :: past, ownLoad (s ip) = p)
    (ha : a ≠ gNullIp)
    (hin : ∀ p, .input p ∈ es → p.ifaAddress = a ∧ p.saddr ≠ a ∧
      ∀ m, p.message = some m → ∃ s ∈ (net p.saddr).sent, s.reaches a p.ttl m)
    (hrun : runs es (net a) = some n)
    (hown : a = ip → Lockstep.Along Node.step (fun b _ ↦ ownLoad b = p) es (net a) ∧ ownLoad n = p) :
    ∃ past', Record (fun _ _ _ ↦ True) past' (Function.update net a n) ∧
      ∀ s ∈ Function.update net a n :: past', ownLoad (s ip) = p := by
  have hkept : ∀ b, (a = ip → ownLoad b = p) → ownLoad (Function.update net a b ip) = p := by
    intro b hb
    by_cases heq : a = ip
    · subst heq
      rw [Function.update_self]
      exact hb rfl
    · rw [Function.update_of_ne (Ne.symm heq)]
      exact hlast net List.mem_cons_self
  have halong : Lockstep.Along Node.step (fun b e ↦ (a = ip → ownLoad b = p) ∧ ∀ _ : List Network, True) es (net a) := by
    by_cases heq : a = ip
    · exact (hown heq).1.mono fun b _ hb ↦ ⟨fun _ ↦ hb, fun _ ↦ trivial⟩
    · exact Lockstep.along_of_forall (fun _ _ _ ↦ ⟨fun h ↦ absurd h heq, fun _ ↦ trivial⟩) _
  obtain ⟨past', hrec, hpast⟩ := h.alone ha hin halong hrun
  refine ⟨past', hrec, fun s hs ↦ ?_⟩
  rcases List.mem_cons.mp hs with rfl | hs
  · exact hkept n fun heq ↦ (hown heq).2
  · rcases hpast s hs with hs | ⟨b, hb, rfl⟩
    · exact hlast s (List.mem_cons_of_mem _ hs)
    · exact hkept b hb

/-- The HELLO of the task, if it has one, comes from a stranger and names no node. -/
def namesNobody (t : Task) (tasks : ClassQueue Task) (n : Node) : Bool :=
  match t.data with
  | some (.hello m) => m.ext.isEmpty && (listedTx t.srcIp { n with tasks := tasks }).isEmpty
  | _ => true

theorem speaks_of_namesNobody {e : Event} (h : AtTask (fun t tasks n ↦ namesNobody t tasks n = true) n e)
    (l : List Network) : HellosSpeakForThemselves l n e := by
  intro t tasks m he hpop _ hdata _
  have hnobody := h t tasks he hpop
  simp only [namesNobody, hdata, Bool.and_eq_true, List.isEmpty_iff] at hnobody
  have hnamed : namedOthers m { n with tasks := tasks } = [] := by
    rw [namedOthers, hnobody.1]
    rfl
  refine ⟨?_, ?_⟩
  · simp [hnamed]
  · simp [hnamed, hnobody.2]

theorem packetAt_arrives {saddr : Ip} {ttl : UInt8} {m : Message} {s : Sent} (hne : saddr ≠ a)
    (hs : s ∈ (net saddr).sent) (hreach : s.reaches a ttl m) : (packetAt saddr a ttl m).ifaAddress = a ∧
      (packetAt saddr a ttl m).saddr ≠ a ∧ ∀ m', (packetAt saddr a ttl m).message = some m' →
        ∃ s ∈ (net (packetAt saddr a ttl m).saddr).sent, s.reaches a (packetAt saddr a ttl m).ttl m' :=
  ⟨rfl, hne, fun _ hm ↦ ⟨s, hs, Option.some.inj hm ▸ hreach⟩⟩

/-- A station hears one packet. -/
def hear (p : Packet) : List Event := [.input p, .thread]

theorem hear_inputs {saddr : Ip} {ttl : UInt8} {m : Message} {s : Sent} (hne : saddr ≠ a) (hs : s ∈ (net saddr).sent)
    (hreach : s.reaches a ttl m) : ∀ p, .input p ∈ hear (packetAt saddr a ttl m) → p.ifaAddress = a ∧ p.saddr ≠ a ∧
      ∀ m', p.message = some m' → ∃ s ∈ (net p.saddr).sent, s.reaches a p.ttl m' := by
  intro p hp
  simp only [hear, List.mem_cons, Event.input.injEq, reduceCtorEq, List.not_mem_nil, or_false] at hp
  subst hp
  exact packetAt_arrives hne hs hreach

/-- A station announces itself. -/
def announce : List Event := [.wait 1001, .signal, .thread]

/-- 192.168.1.2 announces itself, and 192.168.1.1 stores its load. -/
theorem loads_attributed_announced : ∃ past net, Record HellosSpeakForThemselves past net ∧
    ((net 0x0101a8c0).findAodvNeigh 0x0201a8c0).map storedLoad = some (0, 1) ∧
      LoadsAttributed (net :: past) (net 0x0101a8c0) := by
  have hrun : (runs announce (wcimStations 0x0201a8c0)).map Node.sent =
      some [.broadcast 1 (.hello ⟨0, 0, 1, []⟩)] := by decide +kernel
  obtain ⟨b, hb, hsent⟩ := Option.map_eq_some_iff.mp hrun
  have hfirst : Lockstep.Along Node.step (fun n e ↦ True ∧ AtTask (fun t tasks n ↦ namesNobody t tasks n = true) n e)
      announce (wcimStations 0x0201a8c0) := by decide +kernel
  obtain ⟨past, hrec, -⟩ := (wcimStations_record HellosSpeakForThemselves).alone (by decide) (by simp [announce])
    (hfirst.mono fun _ _ h ↦ ⟨h.1, speaks_of_namesNobody h.2⟩) hb
  have hhears : (runs (hear (packetAt 0x0201a8c0 0x0101a8c0 1 (.hello ⟨0, 0, 1, []⟩)))
      (wcimStations 0x0101a8c0)).map (fun n ↦ (n.findAodvNeigh 0x0201a8c0).map storedLoad) = some (some (0, 1)) := by
    decide +kernel
  obtain ⟨n, hn, hstored⟩ := Option.map_eq_some_iff.mp hhears
  have hsecond : Lockstep.Along Node.step (fun n e ↦ True ∧ AtTask (fun t tasks n ↦ namesNobody t tasks n = true) n e)
      (hear (packetAt 0x0201a8c0 0x0101a8c0 1 (.hello ⟨0, 0, 1, []⟩))) (wcimStations 0x0101a8c0) := by
    decide +kernel
  have hstation : Function.update wcimStations 0x0201a8c0 b 0x0101a8c0 = wcimStations 0x0101a8c0 :=
    Function.update_of_ne (by decide) _ _
  rw [← hstation] at hn hsecond
  have harrives : .broadcast 1 (.hello ⟨0, 0, 1, []⟩) ∈ (Function.update wcimStations 0x0201a8c0 b 0x0201a8c0).sent := by
    simp [hsent]
  obtain ⟨past', hrec', -⟩ := hrec.alone (by decide) (hear_inputs (by decide) harrives ⟨rfl, rfl⟩)
    (hsecond.mono fun _ _ h ↦ ⟨h.1, speaks_of_namesNobody h.2⟩) hn
  refine ⟨past', _, hrec', ?_, loads_attributed hrec' 0x0101a8c0⟩
  rw [Function.update_self]
  exact hstored

/-- Another HELLO interval, in which the station hears a packet. -/
def goesOn (p : Packet) : List Event := [.wait 1001, .signal, .input p] ++ List.replicate 5 .thread

theorem input_goesOn {q p : Packet} {k : ℕ} (h : .input q ∈ (List.replicate k (goesOn p)).flatten) : q = p := by
  obtain ⟨_, hmem, h⟩ := List.mem_flatten.mp h
  rw [List.eq_of_mem_replicate hmem] at h
  simpa [goesOn] using h

/-- 192.168.1.2 hears 192.168.1.3 for eleven intervals, and looks for a route. -/
def seek : List Event :=
  [.input (packetAt 0x0301a8c0 0x0201a8c0 1 (.hello ⟨0, 0, 1, []⟩)), .thread] ++
    (List.replicate 11 (goesOn (packetAt 0x0301a8c0 0x0201a8c0 1 (.hello ⟨0, 0, 1, []⟩)))).flatten ++
      [.output { id := 0, saddr := 0x0201a8c0, daddr := 0x0101a8c0, tos := 0x0c, udpDest := 80 }, .thread]

/-- What it has sent by then: a HELLO with a count for 192.168.1.3, its rate, and
the RREQ. -/
def seekHello : Hello := ⟨1, 0, 1, [⟨0x0301a8c0, 10, 0, 1⟩]⟩

def seekEtt : EttInfo := ⟨1, 110, 1000000⟩

def seekRreq : Rreq where
  tos := 0x0c
  numHops := 0
  gateway := 0
  dstIp := 0x0101a8c0
  srcIp := 0x0201a8c0
  dstId := 2
  pathMetric := 0
  dttl := 0

/-- 192.168.1.3 hears all that, takes the flow on, and names 192.168.1.2 in a HELLO
with the load of the flow. -/
def carry : List Event :=
  [.input (packetAt 0x0201a8c0 0x0301a8c0 1 (.hello seekHello)), .thread,
      .input (packetAt 0x0201a8c0 0x0301a8c0 10 (.ettInfo seekEtt)), .thread] ++
    (List.replicate 9 (goesOn (packetAt 0x0201a8c0 0x0301a8c0 1 (.hello seekHello)))).flatten ++
      [.input (packetAt 0x0201a8c0 0x0301a8c0 10 (.rreq seekRreq)), .thread] ++
        (List.replicate 2 (goesOn (packetAt 0x0201a8c0 0x0301a8c0 1 (.hello seekHello)))).flatten

def carryHello : Hello := ⟨1, 2, 2, [⟨0x0201a8c0, 9, 0, 1⟩]⟩

theorem seek_inputs (hsent : .broadcast 1 (.hello ⟨0, 0, 1, []⟩) ∈ (net 0x0301a8c0).sent) :
    ∀ p, .input p ∈ seek → p.ifaAddress = 0x0201a8c0 ∧ p.saddr ≠ 0x0201a8c0 ∧
      ∀ m, p.message = some m → ∃ s ∈ (net p.saddr).sent, s.reaches 0x0201a8c0 p.ttl m := by
  intro p hp
  have hp : p = packetAt 0x0301a8c0 0x0201a8c0 1 (.hello ⟨0, 0, 1, []⟩) := by
    simp only [seek, List.mem_append, List.mem_cons, Event.input.injEq, reduceCtorEq, List.not_mem_nil, or_false] at hp
    exact hp.elim id input_goesOn
  subst hp
  exact packetAt_arrives (by decide) hsent ⟨rfl, rfl⟩

theorem carry_inputs (hhello : .broadcast 1 (.hello seekHello) ∈ (net 0x0201a8c0).sent)
    (hett : .unicast 0x0301a8c0 10 (.ettInfo seekEtt) ∈ (net 0x0201a8c0).sent)
    (hrreq : .broadcast 10 (.rreq seekRreq) ∈ (net 0x0201a8c0).sent) :
    ∀ p, .input p ∈ carry → p.ifaAddress = 0x0301a8c0 ∧ p.saddr ≠ 0x0301a8c0 ∧
      ∀ m, p.message = some m → ∃ s ∈ (net p.saddr).sent, s.reaches 0x0301a8c0 p.ttl m := by
  intro p hp
  have hp : p = packetAt 0x0201a8c0 0x0301a8c0 1 (.hello seekHello) ∨
      p = packetAt 0x0201a8c0 0x0301a8c0 10 (.ettInfo seekEtt) ∨
        p = packetAt 0x0201a8c0 0x0301a8c0 10 (.rreq seekRreq) := by
    simp only [carry, List.mem_append, List.mem_cons, Event.input.injEq, reduceCtorEq, List.not_mem_nil, or_false,
      false_or] at hp
    rcases hp with (((rfl | rfl) | hp) | rfl) | hp
    · exact .inl rfl
    · exact .inr (.inl rfl)
    · exact .inl (input_goesOn hp)
    · exact .inr (.inr rfl)
    · exact .inl (input_goesOn hp)
  rcases hp with rfl | rfl | rfl
  · exact packetAt_arrives (by decide) hhello ⟨rfl, rfl⟩
  · exact packetAt_arrives (by decide) hett ⟨rfl, rfl, rfl⟩
  · exact packetAt_arrives (by decide) hrreq ⟨rfl, rfl⟩

theorem seek_runs : ∃ n, runs seek (wcimStations 0x0201a8c0) = some n ∧ ownLoad n = (0, 1) ∧
    .broadcast 1 (.hello seekHello) ∈ n.sent ∧ .unicast 0x0301a8c0 10 (.ettInfo seekEtt) ∈ n.sent ∧
      .broadcast 10 (.rreq seekRreq) ∈ n.sent := by
  have hrun : (runs seek (wcimStations 0x0201a8c0)).map (fun n ↦ (ownLoad n,
      decide (.broadcast 1 (.hello seekHello) ∈ n.sent ∧ .unicast 0x0301a8c0 10 (.ettInfo seekEtt) ∈ n.sent ∧
        .broadcast 10 (.rreq seekRreq) ∈ n.sent))) = some ((0, 1), true) := by decide +kernel
  obtain ⟨n, hn, hfacts⟩ := Option.map_eq_some_iff.mp hrun
  obtain ⟨hload, hsent⟩ := Prod.mk.inj hfacts
  exact ⟨n, hn, hload, of_decide_eq_true hsent⟩

theorem carry_runs : ∃ b n, runs announce (wcimStations 0x0301a8c0) = some b ∧ runs carry b = some n ∧
    .broadcast 1 (.hello ⟨0, 0, 1, []⟩) ∈ b.sent ∧ .broadcast 1 (.hello carryHello) ∈ n.sent := by
  have hrun : ((runs announce (wcimStations 0x0301a8c0)).bind fun b ↦ (runs carry b).map fun n ↦
      decide (.broadcast 1 (.hello ⟨0, 0, 1, []⟩) ∈ b.sent ∧ .broadcast 1 (.hello carryHello) ∈ n.sent)) =
        some true := by decide +kernel
  obtain ⟨b, hb, hrun⟩ := Option.bind_eq_some_iff.mp hrun
  obtain ⟨n, hn, hsent⟩ := Option.map_eq_some_iff.mp hrun
  exact ⟨b, n, hb, hn, of_decide_eq_true hsent⟩

theorem carried_runs : ∃ n, runs (hear (packetAt 0x0301a8c0 0x0101a8c0 1 (.hello carryHello)))
    (wcimStations 0x0101a8c0) = some n ∧ ∃ y ∈ n.aodvNeighList2h, y.ip = 0x0201a8c0 ∧ storedLoad2h y = (2, 2) := by
  have hrun : (runs (hear (packetAt 0x0301a8c0 0x0101a8c0 1 (.hello carryHello)))
      (wcimStations 0x0101a8c0)).map (fun n ↦ n.aodvNeighList2h.map fun y ↦ (y.ip, storedLoad2h y)) =
        some [(0x0201a8c0, (2, 2))] := by decide +kernel
  obtain ⟨n, hn, hlist⟩ := Option.map_eq_some_iff.mp hrun
  obtain ⟨y, hy, heq⟩ := List.mem_map.mp (hlist.symm ▸ List.mem_cons_self :
    ((0x0201a8c0 : Ip), ((2 : UInt8), (2 : UInt16))) ∈ n.aodvNeighList2h.map fun y ↦ (y.ip, storedLoad2h y))
  exact ⟨n, hn, y, hy, (Prod.mk.inj heq).1, (Prod.mk.inj heq).2⟩

/-- 192.168.1.1 stores for 192.168.1.2, which never carries a flow, the load of
192.168.1.3. -/
theorem loads_attributed_carried : ¬ ∀ past net, Record (fun _ _ _ ↦ True) past net →
    ∀ a, LoadsAttributed (net :: past) (net a) := by
  intro hall
  obtain ⟨b₃, n₃, hb₃, hn₃, hhello₃, hcarry⟩ := carry_runs
  obtain ⟨n₂, hn₂, hload, hhello, hett, hrreq⟩ := seek_runs
  obtain ⟨n₁, hn₁, y, hy, hip, hstored⟩ := carried_runs
  have hown : ownLoad (wcimStations 0x0201a8c0) = (0, 1) := by decide +kernel
  have hsilent : Lockstep.Along Node.step (fun b _ ↦ ownLoad b = (0, 1)) seek (wcimStations 0x0201a8c0) := by
    decide +kernel
  have hseeker : Function.update wcimStations 0x0301a8c0 b₃ 0x0201a8c0 = wcimStations 0x0201a8c0 :=
    Function.update_of_ne (by decide) _ _
  rw [← hseeker] at hn₂ hsilent
  have hlast : ∀ s ∈ [wcimStations], ownLoad (s 0x0201a8c0) = (0, 1) := by simpa using hown
  obtain ⟨past₁, hrec₁, hlast₁⟩ := (wcimStations_record fun _ _ _ ↦ True).lasting hlast (a := 0x0301a8c0) (by decide)
    (by simp [announce]) hb₃ fun heq ↦ absurd heq (by decide)
  obtain ⟨past₂, hrec₂, hlast₂⟩ := hrec₁.lasting hlast₁ (by decide)
    (seek_inputs (by rwa [Function.update_self])) hn₂ fun _ ↦ ⟨hsilent, hload⟩
  generalize hnet₂ : Function.update (Function.update wcimStations 0x0301a8c0 b₃) 0x0201a8c0 n₂ = net₂ at hrec₂ hlast₂
  have hseeker₂ : net₂ 0x0201a8c0 = n₂ := hnet₂ ▸ Function.update_self _ _ _
  have hcarrier₂ : net₂ 0x0301a8c0 = b₃ := by
    rw [← hnet₂, Function.update_of_ne (by decide), Function.update_self]
  have hhearer₂ : net₂ 0x0101a8c0 = wcimStations 0x0101a8c0 := by
    rw [← hnet₂, Function.update_of_ne (by decide), Function.update_of_ne (by decide)]
  rw [← hseeker₂] at hhello hett hrreq
  rw [← hcarrier₂] at hn₃
  obtain ⟨past₃, hrec₃, hlast₃⟩ := hrec₂.lasting hlast₂ (by decide) (carry_inputs hhello hett hrreq) hn₃
    fun heq ↦ absurd heq (by decide)
  have hhearer₃ : Function.update net₂ 0x0301a8c0 n₃ 0x0101a8c0 = wcimStations 0x0101a8c0 := by
    rw [Function.update_of_ne (by decide), hhearer₂]
  rw [← hhearer₃] at hn₁
  have harrives : .broadcast 1 (.hello carryHello) ∈ (Function.update net₂ 0x0301a8c0 n₃ 0x0301a8c0).sent := by
    rwa [Function.update_self]
  obtain ⟨past₄, hrec₄, hlast₄⟩ := hrec₃.lasting hlast₃ (by decide) (hear_inputs (by decide) harrives ⟨rfl, rfl⟩) hn₁
    fun heq ↦ absurd heq (by decide)
  have hattributed := (hall _ _ hrec₄ 0x0101a8c0).neigh2h y (by rwa [Function.update_self])
  rw [hip, hstored] at hattributed
  rcases hattributed with hzero | ⟨s, hs, heq⟩
  · exact absurd hzero (by decide)
  · exact absurd ((hlast₄ s hs).symm.trans heq) (by decide)

end Stations

end Fbaodv.Proofs.LoadSources
