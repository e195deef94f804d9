import Fbaodv.Proofs.NetRuns
import Fbaodv.Proofs.Pending
import Fbaodv.Proofs.RerrRoutes

namespace Fbaodv.Proofs.HopsHandlers

open Fbaodv.Model Fbaodv.Model.Node Fbaodv.Foundation
open Fbaodv.Proofs.RouteFrame Fbaodv.Proofs.RoutingInvariant Fbaodv.Proofs.NodeRun Fbaodv.Proofs.NodeOps
open Fbaodv.Proofs.NetOps Fbaodv.Proofs.NetPaths Fbaodv.Proofs.NetRuns Fbaodv.Proofs.BrkListFlush
open Fbaodv.Proofs.BrkLists (recordBrkLink_frame)
open Fbaodv.Proofs.RerrRoutes (recordBrkLink_fresh)

/-- A message that estimates the transmission time of a link. -/
def isEstimate : Message → Bool
  | .sprobe _ | .lprobe _ | .ettInfo _ => true
  | _ => false

/-- No entry of the table has moved or gone. -/
structure Stays (r r' : Routing) : Prop where
  localRoute : r'.localRoute = r.localRoute
  entries : ∀ e ∈ r.table, ∃ e' ∈ r'.table, e'.ptr = e.ptr

/-- What all handlers of a node that counts hops keep but the one that flushes
the routes: no entry goes, and nothing is sent that estimates a link. -/
structure Keeps (n n' : Node) : Prop where
  cfg : n'.cfg = n.cfg
  routes : Stays n.routing n'.routing
  sent : ∀ s ∈ n'.sent, s ∈ n.sent ∨ ∀ m, payload s = some m → isEstimate m = false

/-- Nothing that has been sent since estimates a link. -/
def NoEstimates (n n' : Node) : Prop :=
  ∀ s ∈ n'.sent, s ∈ n.sent ∨ ∀ m, payload s = some m → isEstimate m = false

/-- The function does not fault. -/
def Runs (n : Node) (x : Option Node) : Prop := ∃ n', x = some n' ∧ Keeps n n'

/-- The table has an entry at this address. -/
def Holds (ptr : ℕ) (n : Node) : Prop := ∃ e ∈ n.routing.table, e.ptr = ptr

/-- The entry of the node itself is where the code looks for it. -/
def HasOwn (n : Node) : Prop := Holds n.routing.localRoute n

section Routes

variable {r r' r'' : Routing} {cfg : Config}

theorem Stays.refl (r : Routing) : Stays r r := ⟨rfl, fun e he ↦ ⟨e, he, rfl⟩⟩

theorem Stays.trans (h : Stays r r') (h' : Stays r' r'') : Stays r r'' where
  localRoute := h'.localRoute.trans h.localRoute
  entries e he := by
    obtain ⟨e', he', hptr⟩ := h.entries e he
    obtain ⟨e'', he'', hptr'⟩ := h'.entries e' he'
    exact ⟨e'', he'', hptr'.trans hptr⟩

theorem stays_of_soft (h : Soft r r') : Stays r r' where
  localRoute := h.localRoute
  entries e he := by
    obtain ⟨e', he', _, _, _, _, rfl⟩ := Pointwise.exists_of_mem_left h.entries he
    exact ⟨_, he', rfl⟩

theorem stays_of_inserts {new : AodvRoute} (h : Inserts new r r') : Stays r r' :=
  ⟨h.localRoute, fun e he ↦ ⟨e, h.mem.mpr (.inr he), rfl⟩⟩

theorem stays_modifyAt (ptr : ℕ) {f : AodvRoute → AodvRoute} (hf : ∀ e, (f e).ptr = e.ptr) (r : Routing) :
    Stays r (r.modifyAt ptr f) where
  localRoute := rfl
  entries e he := by
    refine ⟨_, List.mem_map_of_mem he, ?_⟩
    split
    · exact hf e
    · rfl

theorem entryAt_ne_none {ptr : ℕ} (h : ∃ e ∈ r.table, e.ptr = ptr) : ∃ e, r.entryAt ptr = some e := by
  obtain ⟨e, he, hptr⟩ := h
  cases hfind : r.entryAt ptr with
  | none => exact absurd hptr (by simpa using List.find?_eq_none.mp hfind e he)
  | some e' => exact ⟨e', rfl⟩

theorem stays_of_touches (h : Touches cfg r r') : Stays r r' where
  localRoute := h.localRoute
  entries e he := by
    obtain ⟨e', he', htouch⟩ := Pointwise.exists_of_mem_left h.entries he
    exact ⟨e', he', htouch.ptr⟩

theorem stays_rreqEntry {srcIp dstIp : Ip} {tos : UInt8} {dstId pathMetric : UInt32}
    {o : Option (AodvRoute × RouteState)} (h : RreqEntry cfg srcIp dstIp tos dstId pathMetric r o r') :
    Stays r r' := by
  cases h with
  | full _ h => exact stays_of_touches h
  | unlisted _ _ h hsrc => exact (stays_of_inserts h).trans (stays_of_soft (soft_of_srcOnly hsrc))
  | created _ _ h hsrc => exact (stays_of_inserts h).trans (stays_of_soft (soft_of_srcOnly hsrc))
  | rejected | invalid => exact .refl r
  | refused _ h => exact stays_of_soft (soft_delRoute h)
  | withdrawn _ _ _ h => exact stays_of_soft (soft_delRoute h)

theorem stays_createAodvRoute (cfg : Config) (srcIp dstIp : Ip) (tos : UInt8) (dstId : UInt32) (r : Routing) :
    Stays r (r.createAodvRoute srcIp dstIp tos dstId).2 := by
  rcases hcreate : r.createAodvRoute srcIp dstIp tos dstId with ⟨o, r'⟩
  rcases createAodvRoute_cases cfg hcreate with ⟨-, htouch⟩ | ⟨lifetime, -, hins⟩
  · exact stays_of_touches htouch
  · exact stays_of_inserts hins

theorem rreqAodvRoute_runs (hhops : cfg.gRoutingMetric = .hops) (now : ℕ) (srcIp dstIp : Ip) (tos : UInt8)
    (nextHop : Ip) (sendRate : UInt16) (hops : UInt8) (dstId pathMetric : UInt32) (r : Routing) :
    ∃ ok r', r.rreqAodvRoute cfg now srcIp dstIp tos nextHop sendRate hops dstId pathMetric = some (ok, r') ∧
      Stays r r' := by
  have hentry := stays_rreqEntry (rreqEntry_spec cfg srcIp dstIp tos dstId pathMetric r)
  unfold Routing.rreqAodvRoute
  generalize r.rreqEntry cfg srcIp dstIp tos dstId pathMetric = p at hentry ⊢
  obtain ⟨_ | ⟨e, st⟩, r₁⟩ := p
  · exact ⟨false, r₁, rfl, hentry⟩
  · dsimp only
    rw [if_neg (by simp [hhops])]
    refine ⟨true, _, rfl, hentry.trans (stays_modifyAt e.ptr ?_ r₁)⟩
    exact fun _ ↦ rfl

theorem rrepAodvRoute_runs {now ptr : ℕ} (h : ∃ e ∈ r.table, e.ptr = ptr) :
    ∃ o r', r.rrepAodvRoute cfg now ptr = some (o, r') ∧ Stays r r' := by
  obtain ⟨e, he⟩ := entryAt_ne_none h
  have hruns : ∃ o r', r.rrepAodvRoute cfg now ptr = some (o, r') := by
    unfold Routing.rrepAodvRoute
    rw [he]
    dsimp only [Option.bind_eq_bind, Option.bind_some]
    split
    · exact ⟨_, _, rfl⟩
    · split
      · exact ⟨_, _, rfl⟩
      · exact ⟨_, _, rfl⟩
  obtain ⟨o, r', hrep⟩ := hruns
  exact ⟨o, r', hrep, stays_of_soft (soft_rrepAodvRoute hrep)⟩

end Routes

section Keeps

variable {n n' n'' : Node}

theorem Keeps.refl (n : Node) : Keeps n n := ⟨rfl, .refl _, fun _ hs ↦ .inl hs⟩

theorem Keeps.trans (h : Keeps n n') (h' : Keeps n' n'') : Keeps n n'' where
  cfg := h'.cfg.trans h.cfg
  routes := h.routes.trans h'.routes
  sent s hs := (h'.sent s hs).elim (h.sent s) .inr

theorem keeps_of_eq (hcfg : n'.cfg = n.cfg) (hrouting : n'.routing = n.routing) (hsent : n'.sent = n.sent) :
    Keeps n n' := ⟨hcfg, hrouting ▸ .refl _, fun _ hs ↦ .inl (hsent ▸ hs)⟩

theorem keeps_routing {r : Routing} (h : Stays n.routing r) : Keeps n { n with routing := r } :=
  ⟨rfl, h, fun _ hs ↦ .inl hs⟩

theorem keeps_sent {s : Sent} (h : ∀ m, payload s = some m → isEstimate m = false) :
    Keeps n { n with sent := n.sent ++ [s] } where
  cfg := rfl
  routes := .refl _
  sent s' hs' := by
    rcases List.mem_append.mp hs' with hs' | hs'
    · exact .inl hs'
    · obtain rfl := List.mem_singleton.mp hs'
      exact .inr h

theorem Holds.keep {ptr : ℕ} (hn : Holds ptr n) (h : Keeps n n') : Holds ptr n' := by
  obtain ⟨e, he, hptr⟩ := hn
  obtain ⟨e', he', hptr'⟩ := h.routes.entries e he
  exact ⟨e', he', hptr'.trans hptr⟩

theorem HasOwn.keep (hn : HasOwn n) (h : Keeps n n') : HasOwn n' := by
  rw [HasOwn, h.routes.localRoute]
  exact Holds.keep hn h

theorem Runs.refl (n : Node) : Runs n (some n) := ⟨n, rfl, .refl n⟩

theorem Keeps.runs (h : Keeps n n') : Runs n (some n') := ⟨n', rfl, h⟩

theorem Runs.bind {x : Option Node} {f : Node → Option Node} (h : Runs n x)
    (hf : ∀ n', Keeps n n' → Runs n' (f n')) : Runs n (x.bind f) := by
  obtain ⟨n', rfl, hkeeps⟩ := h
  obtain ⟨n'', hn'', hkeeps'⟩ := hf n' hkeeps
  exact ⟨n'', hn'', hkeeps.trans hkeeps'⟩

theorem Runs.handled {x : Option Node} (h : Runs n x) : ∃ n', x = some n' ∧ NoEstimates n n' := by
  obtain ⟨n', hx, hkeeps⟩ := h
  exact ⟨n', hx, hkeeps.sent⟩

theorem Keeps.head {x : Option Node} (h : Keeps n n') (hx : Runs n' x) : Runs n x := by
  obtain ⟨n'', hn'', h'⟩ := hx
  exact ⟨n'', hn'', h.trans h'⟩

theorem keeps_sendMessage (ip : Ip) (ttl : UInt8) {m : Message} (h : isEstimate m = false) (n : Node) :
    Keeps n (n.sendMessage ip ttl m) := by
  unfold sendMessage
  split
  · exact .refl n
  split
  · exact .refl n
  · exact keeps_sent fun m' hm' ↦ Option.some.inj hm' ▸ h

theorem keeps_localBroadcast (ttl : UInt8) {m : Message} (h : isEstimate m = false) (n : Node) :
    Keeps n (n.localBroadcast ttl m) := by
  unfold localBroadcast
  split
  · exact .refl n
  · exact keeps_sent fun m' hm' ↦ Option.some.inj hm' ▸ h

theorem keeps_send2dtn (port : UInt16) (a b c d : UInt32) (n : Node) : Keeps n (n.send2dtn port a b c d) :=
  keeps_sent fun _ hm ↦ by cases hm

end Keeps

section Reports

variable {n n' n'' : Node}

/-- No recorded link has outlived its time. -/
def Unexpired (n : Node) : Prop := ∀ x ∈ n.brkList, (brkRule n.now).due x = false

/-- `Keeps`, and no recorded link has outlived its time. -/
structure Records (n n' : Node) : Prop extends keeps : Keeps n n' where
  unexpired : Unexpired n → Unexpired n'

theorem Records.refl (n : Node) : Records n n := ⟨.refl n, id⟩

theorem Records.trans (h : Records n n') (h' : Records n' n'') : Records n n'' :=
  ⟨h.keeps.trans h'.keeps, h'.unexpired ∘ h.unexpired⟩

theorem records_of_keeps (h : Keeps n n') (hnow : n'.now = n.now) (hbrk : n'.brkList = n.brkList) :
    Records n n' := ⟨h, fun hn ↦ by rwa [Unexpired, hnow, hbrk]⟩

theorem records_sendMessage (ip : Ip) (ttl : UInt8) {m : Message} (h : isEstimate m = false) (n : Node) :
    Records n (n.sendMessage ip ttl m) := by
  refine records_of_keeps (keeps_sendMessage ip ttl h n) ?_ ?_
  all_goals
    unfold sendMessage
    split
    · rfl
    · split <;> rfl

theorem records_report (c : Bool) (port : UInt16) (a b d e : UInt32) (n : Node) :
    Records n (if c then n.send2dtn port a b d e else n) := by
  split
  · exact records_of_keeps (keeps_send2dtn ..) rfl rfl
  · exact .refl n

/-- A computation that only records broken links, and that comes to its end when
none of them has outlived its time. -/
structure Recording {α : Type} (node : α → Node) (n : Node) (x : Option α) : Prop where
  records : ∀ a, x = some a → Records n (node a)
  ends : Unexpired n → ∃ a, x = some a

section Computations

variable {α β : Type} {node : α → Node} {node' : β → Node}

theorem Records.done {a : α} (h : Records n n') (ha : node a = n') : Recording node n (some a) :=
  ⟨fun _ hb ↦ Option.some.inj hb ▸ ha ▸ h, fun _ ↦ ⟨a, rfl⟩⟩

theorem Records.head {x : Option α} (h : Records n n') (hx : Recording node n' x) : Recording node n x :=
  ⟨fun a ha ↦ h.trans (hx.records a ha), fun hn ↦ hx.ends (h.unexpired hn)⟩

theorem Recording.bind {x : Option α} {f : α → Option β} (h : Recording node n x)
    (hf : ∀ a, Recording node' (node a) (f a)) : Recording node' n (x.bind f) where
  records b hb := by
    obtain ⟨a, ha, hb⟩ := Option.bind_eq_some_iff.mp hb
    exact (h.records a ha).trans ((hf a).records b hb)
  ends hn := by
    obtain ⟨a, rfl⟩ := h.ends hn
    exact (hf a).ends ((h.records a rfl).unexpired hn)

theorem Recording.runs {x : Option Node} (h : Recording id n x) (hn : Unexpired n) : Runs n x := by
  obtain ⟨n', rfl⟩ := h.ends hn
  exact (h.records n' rfl).keeps.runs

end Computations

theorem recording_recordBrkLink (srcIp dstIp lastHop lastAvail : Ip) (n : Node) :
    Recording id n (n.recordBrkLink srcIp dstIp lastHop lastAvail) where
  records n' h := by
    obtain ⟨-, l, o, rfl, -⟩ := recordBrkLink_frame h
    refine ⟨keeps_of_eq rfl rfl rfl, fun hn ↦ ?_⟩
    obtain ⟨n'', hrecord, hfresh⟩ := recordBrkLink_fresh srcIp dstIp lastHop lastAvail hn
    obtain rfl := Option.some.inj (hrecord.symm.trans h)
    exact hfresh
  ends hn := by
    obtain ⟨n', hrecord, -⟩ := recordBrkLink_fresh srcIp dstIp lastHop lastAvail hn
    exact ⟨n', hrecord⟩

theorem recording_genRerrRoute (e : AodvRoute) (n : Node) : Recording Prod.snd n (n.genRerrRoute e) := by
  have halloc : Records n n.alloc.2 := records_of_keeps (keeps_of_eq rfl rfl rfl) rfl rfl
  have hdone : ∀ {n₁ : Node} {go : Bool}, Recording Prod.snd n₁ (some (go, n₁)) := (Records.refl _).done rfl
  unfold genRerrRoute
  split
  · split
    · dsimp only
      split
      · exact halloc.head hdone
      · refine halloc.head ((records_report n.alloc.2.dtnRegister dtnPort e.srcIp e.dstIp n.alloc.2.lastAvail
          rerrMessage _).head ?_)
        refine (records_sendMessage e.lastHop netDiameter
          (m := .rerr ⟨0, e.dstIp, e.dstId, n.alloc.2.lastAvail, e.srcIp⟩) rfl _).head ?_
        exact (recording_recordBrkLink _ _ _ _ _).bind fun _ ↦ hdone
    · exact hdone
  · refine (records_report n.dtnRegister dtnPort e.srcIp e.dstIp n.lastAvail rerrMessage n).head ?_
    exact (recording_recordBrkLink _ _ _ _ _).bind fun _ ↦ hdone

theorem records_expireRoute (ptr : ℕ) (n : Node) : Records n (n.expireRoute ptr) :=
  records_of_keeps (keeps_routing (stays_of_touches (touches_expireAodvRoute n.cfg _ _ _))) rfl rfl

theorem records_updateMyLoad (n : Node) : Records n { n with routing := n.routing.updateMyLoad } :=
  records_of_keeps (keeps_routing (stays_of_touches (touches_updateMyLoad n.cfg _))) rfl rfl

theorem recording_genRerrLoop (brkDstIp : Ip) (l : List AodvRoute) (k : ℕ) (n : Node) :
    Recording Prod.snd n (genRerrLoop brkDstIp l k n) := by
  induction l generalizing k n with
  | nil => exact (Records.refl n).done rfl
  | cons e l ih =>
    unfold genRerrLoop
    split
    · refine (recording_genRerrRoute e n).bind fun p ↦ ?_
      obtain ⟨go, n₁⟩ := p
      dsimp only
      split
      · exact (Records.refl n₁).done rfl
      split
      · exact (records_expireRoute e.ptr n₁).head (ih _ _)
      · exact ih _ _
    · exact ih _ _

theorem recording_genRerr (brkDstIp : Ip) (n : Node) : Recording id n (n.genRerr brkDstIp) := by
  refine (recording_genRerrLoop brkDstIp n.routing.table 0 n).bind fun p ↦ ?_
  obtain ⟨k', n₁⟩ := p
  cases k' with
  | none => exact (Records.refl n₁).done rfl
  | some k' =>
    dsimp only
    split
    · exact (records_updateMyLoad n₁).done rfl
    · exact (Records.refl n₁).done rfl

theorem recording_deleteAodvNeigh (ip : Ip) (n : Node) : Recording id n (n.deleteAodvNeigh ip) := by
  have hunlink : Records n (n.unlinkNeigh ip) := by
    unfold unlinkNeigh
    dsimp only
    split
    · exact records_of_keeps (keeps_of_eq rfl rfl rfl) rfl rfl
    · exact records_of_keeps (keeps_of_eq rfl rfl rfl) rfl rfl
  unfold deleteAodvNeigh
  split
  · exact hunlink.head (recording_genRerr ip _)
  · exact (Records.refl n).done rfl

theorem recording_recvRerrRoute (m : Rerr) (firstDtn : Bool) (e : AodvRoute) (n : Node) :
    Recording id n (n.recvRerrRoute m firstDtn e) := by
  unfold recvRerrRoute
  split
  · split
    · exact (records_sendMessage e.lastHop netDiameter rfl n).head (recording_recordBrkLink _ _ _ _ _)
    · exact (Records.refl n).done rfl
  · exact recording_recordBrkLink _ _ _ _ _

theorem recording_recvRerr (t : Task) (m : Rerr) (n : Node) : Recording id n (n.recvRerr t m) := by
  unfold recvRerr
  dsimp only
  generalize hn₁ : (if n.dtnRegister = true then _ else n) = n₁
  have h₁ : Records n n₁ := hn₁ ▸ records_report ..
  refine h₁.head ?_
  split
  · exact (Records.refl n₁).done rfl
  next e _ =>
  split
  · exact (Records.refl n₁).done rfl
  refine (recording_recvRerrRoute m _ e n₁).bind fun n₂ ↦ ?_
  split
  · have hexpire := records_expireRoute e.ptr n₂
    split
    · exact (hexpire.trans (records_updateMyLoad _)).done rfl
    · exact hexpire.done rfl
  · exact (Records.refl n₂).done rfl

end Reports

section Discovery

variable {n n' : Node}

theorem keeps_alloc (n : Node) : Keeps n n.alloc.2 := keeps_of_eq rfl rfl rfl

theorem keeps_bumpLocalDstId (n : Node) : Keeps n n.bumpLocalDstId := by
  refine keeps_routing (stays_modifyAt n.routing.localRoute ?_ n.routing)
  exact fun _ ↦ rfl

theorem HasOwn.localDstId (hn : HasOwn n) : ∃ c, n.localDstId = some c := by
  obtain ⟨e, he⟩ := entryAt_ne_none hn
  exact ⟨e.dstId, by rw [Node.localDstId, he, Option.map_some]⟩

theorem flood_runs (srcIp dstIp : Ip) (tos dttl retries : UInt8) (hn : HasOwn n) :
    Runs n (n.bumpLocalDstId.localDstId.bind fun dstId ↦
      some ((n.bumpLocalDstId.localBroadcast netDiameter
        (.rreq (n.bumpLocalDstId.newRreq srcIp dstIp tos dttl dstId))).insertTimerDir .resendRreq 0 retries
          srcIp dstIp tos).updateTimers) := by
  have hbump := keeps_bumpLocalDstId n
  obtain ⟨c, hc⟩ := (hn.keep hbump).localDstId
  rw [hc]
  have hsend := keeps_localBroadcast netDiameter
    (m := .rreq (n.bumpLocalDstId.newRreq srcIp dstIp tos dttl c)) rfl n.bumpLocalDstId
  exact ⟨_, rfl, (hbump.trans hsend).trans (keeps_of_eq rfl rfl rfl)⟩

theorem genRreq_runs (srcIp dstIp : Ip) (tos : UInt8) (hn : HasOwn n) : Runs n (n.genRreq srcIp dstIp tos) := by
  have halloc := keeps_alloc n
  unfold genRreq
  dsimp only
  split
  · exact halloc.runs
  · exact halloc.head (flood_runs _ _ _ _ _ (hn.keep halloc))

theorem resendRreq_runs (t : Task) (hn : HasOwn n) : Runs n (n.resendRreq t) := by
  have halloc := keeps_alloc n
  unfold resendRreq
  split
  · exact ⟨_, rfl, keeps_of_eq rfl rfl rfl⟩
  dsimp only
  split
  · exact halloc.runs
  · exact halloc.head (flood_runs _ _ _ _ _ (hn.keep halloc))

theorem rreqRoute_runs (hhops : n.cfg.gRoutingMetric = .hops) (srcIp dstIp : Ip) (tos : UInt8)
    (nextHop : AodvNeigh) (hops : UInt8) (dstId pathMetric : UInt32) :
    ∃ ok n', n.rreqRoute srcIp dstIp tos nextHop hops dstId pathMetric = some (ok, n') ∧ Keeps n n' := by
  obtain ⟨ok, r, hr, hstays⟩ := rreqAodvRoute_runs hhops n.now srcIp dstIp tos nextHop.ip nextHop.sendRate hops
    dstId pathMetric n.routing
  exact ⟨ok, _, Option.bind_eq_some_iff.mpr ⟨_, hr, rfl⟩, keeps_routing hstays⟩

theorem keeps_updateNeighLifetime (ip : Ip) (n : Node) : Keeps n (n.updateNeighLifetime ip) :=
  keeps_of_eq rfl rfl rfl

theorem keeps_acceptRreq (t : Task) (m : Rreq) (n : Node) : Keeps n (n.acceptRreq t m) := by
  unfold acceptRreq
  split
  · split
    · exact .refl n
    · exact keeps_of_eq rfl rfl rfl
  · refine Keeps.trans ?_ (keeps_localBroadcast _ rfl _)
    split
    · exact keeps_send2dtn ..
    · exact .refl n

theorem recvRreq_runs (hhops : n.cfg.gRoutingMetric = .hops) (t : Task) (m : Rreq) : Runs n (n.recvRreq t m) := by
  unfold recvRreq
  split
  · exact .refl n
  split
  · exact .refl n
  next x _ =>
  have hneigh := keeps_updateNeighLifetime x.ip n
  refine hneigh.head ?_
  have hhops₁ : (n.updateNeighLifetime x.ip).cfg.gRoutingMetric = .hops := hhops
  generalize n.updateNeighLifetime x.ip = n₁ at hhops₁ ⊢
  dsimp only
  split
  · exact .refl n₁
  split
  · exact .refl n₁
  rw [rreqMetric, hhops₁]
  obtain ⟨ok, n₂, hroute, h₂⟩ := rreqRoute_runs hhops₁ m.dstIp m.srcIp m.tos x (m.numHops + 1) m.dstId
    (m.numHops + 1).toUInt32
  dsimp only [Option.bind_eq_bind, Option.bind_some]
  rw [hroute]
  dsimp only [Option.bind_some]
  split
  · exact (h₂.trans (keeps_acceptRreq ..)).runs
  · exact h₂.runs

theorem keeps_genRcvpLoop (dstIp : Ip) (l : List BrkLink) (n : Node) : Keeps n (genRcvpLoop dstIp l n) := by
  have hreport : ∀ (c : Bool) (port : UInt16) (a b d e : UInt32) (n : Node),
      Keeps n (if c then n.send2dtn port a b d e else n) := fun c port a b d e n ↦
    (records_report c port a b d e n).keeps
  have hlist : ∀ (bl : List BrkLink) (n : Node), Keeps n { n with brkList := bl } :=
    fun _ _ ↦ keeps_of_eq rfl rfl rfl
  induction l generalizing n with
  | nil => exact .refl n
  | cons x l ih =>
    unfold genRcvpLoop
    split
    · exact .refl n
    split
    · dsimp only
      split
      · exact keeps_alloc n
      · refine ((keeps_alloc n).trans (Keeps.trans ?_ (keeps_sendMessage _ _ rfl _))).trans
          ((hlist _ _).trans (ih _))
        exact hreport ..
    · exact (hreport ..).trans ((hlist _ _).trans (ih _))

theorem keeps_genRcvp (dstIp : Ip) (n : Node) : Keeps n (n.genRcvp dstIp) := keeps_genRcvpLoop _ _ _

theorem keeps_recvRcvp (m : Rcvp) (n : Node) : Keeps n (n.recvRcvp m) := by
  unfold recvRcvp
  dsimp only
  generalize hn₁ : (if n.dtnRegister = true then _ else n) = n₁
  have h₁ : Keeps n n₁ := hn₁ ▸ (records_report ..).keeps
  refine h₁.trans ?_
  split
  · exact .refl n₁
  split
  · exact keeps_of_eq rfl rfl rfl
  split
  · exact keeps_alloc n₁
  · exact ((keeps_alloc n₁).trans (keeps_sendMessage _ _ rfl _)).trans (keeps_of_eq rfl rfl rfl)

theorem keeps_genRrdp (srcIp dstIp lastHop : Ip) (tos : UInt8) (n : Node) :
    Keeps n (n.genRrdp srcIp dstIp lastHop tos) := by
  unfold genRrdp
  dsimp only
  split
  · exact keeps_alloc n
  · exact (keeps_alloc n).trans (keeps_sendMessage _ _ rfl _)

theorem keeps_recvRrdp (t : Task) (m : Rrdp) (n : Node) : Keeps n (n.recvRrdp t m).2 := by
  unfold recvRrdp
  split
  · exact .refl n
  split
  · exact .refl n
  split
  · split
    · dsimp only
      exact keeps_sendMessage _ _ rfl n
    · exact .refl n
  · dsimp only
    split
    · exact keeps_send2dtn ..
    · exact .refl n

theorem keeps_redirectRoutes (l : List AodvRoute) (n : Node) : Keeps n (redirectRoutes l n) := by
  induction l generalizing n with
  | nil => exact .refl n
  | cons e l ih =>
    unfold redirectRoutes
    split
    · exact .refl n
    dsimp only
    generalize hm : (if e.srcIp ≠ e.dstIp ∧ e.srcIp ≠ n.cfg.gMeshIp then _ else n) = n₁
    have h₁ : Keeps n n₁ := by
      rw [← hm]
      split
      · exact keeps_genRrdp ..
      · exact .refl n
    refine h₁.trans (Keeps.trans ?_ (ih _))
    split
    · exact keeps_send2dtn ..
    · exact .refl n₁

end Discovery

section Neighbours

variable {n n' : Node}

theorem routeAodvNeigh_runs (ip : Ip) (hn : HasOwn n) :
    ∃ ok n', n.routeAodvNeigh ip = some (ok, n') ∧ Keeps n n' := by
  obtain ⟨c, hc⟩ := hn.localDstId
  have hcreate : Stays n.routing (n.routing.createAodvRoute n.cfg.gMeshIp ip 0 c).2 :=
    stays_createAodvRoute n.cfg n.cfg.gMeshIp ip 0 c n.routing
  unfold routeAodvNeigh
  rw [hc]
  dsimp only [Option.bind_eq_bind, Option.bind_some]
  generalize n.routing.createAodvRoute n.cfg.gMeshIp ip 0 c = p at hcreate ⊢
  obtain ⟨_ | e, r⟩ := p
  · exact ⟨false, _, rfl, keeps_routing hcreate⟩
  dsimp only
  have hset : Stays r (r.modifyAt e.ptr fun e ↦
      { e with numHops := 1, pathMetric := 1, state := .active, neighRoute := true, selfRoute := true }) := by
    refine stays_modifyAt e.ptr ?_ r
    exact fun _ ↦ rfl
  have hmade := hcreate.trans hset
  generalize r.modifyAt e.ptr _ = r₁ at hmade ⊢
  split
  · exact ⟨false, _, rfl, keeps_routing hmade⟩
  · rcases hnew : r₁.newRoute n.cfg false n.cfg.gMeshIp ⟨ip, ip, 1⟩ with ⟨ok, r₂⟩
    have hkernel := hmade.trans (stays_of_soft (soft_newRoute hnew))
    dsimp only
    split
    · exact ⟨true, _, rfl, keeps_routing hkernel⟩
    · exact ⟨false, _, rfl, keeps_routing (hkernel.trans (stays_of_soft (.of_eq rfl rfl)))⟩

theorem createAodvNeigh_runs (hhops : n.cfg.gRoutingMetric = .hops) (ip : Ip) (hn : HasOwn n) :
    ∃ ok n', n.createAodvNeigh ip = some (ok, n') ∧ Keeps n n' := by
  have halloc := keeps_alloc n
  unfold createAodvNeigh
  dsimp only
  split
  · exact ⟨false, _, rfl, halloc⟩
  split
  · exact ⟨false, _, rfl, halloc⟩
  obtain ⟨ok, n₁, hroute, h₁⟩ := routeAodvNeigh_runs ip (hn.keep halloc)
  rw [hroute]
  dsimp only [Option.bind_eq_bind, Option.bind_some]
  have hkeeps := halloc.trans h₁
  split
  · exact ⟨false, _, rfl, hkeeps⟩
  rw [if_neg (by simp [hkeeps.cfg, hhops])]
  exact ⟨true, _, rfl, hkeeps.trans (keeps_of_eq rfl rfl rfl)⟩

theorem recoverLinks_runs (ip : Ip) (l : List BrkLink) (hn : HasOwn n) : Runs n (recoverLinks ip l n) := by
  induction l generalizing n with
  | nil => exact .refl n
  | cons x l ih =>
    unfold recoverLinks
    split
    · split
      · exact (keeps_genRcvp ip n).runs
      · exact (genRreq_runs n.cfg.gMeshIp x.dstIp recoveryTos hn).bind fun n' h' ↦ ih (hn.keep h')
    · exact ih hn

theorem keeps_deleteAodvNeigh2h (ip : Ip) (n : Node) : Keeps n (n.deleteAodvNeigh2h ip) := by
  unfold deleteAodvNeigh2h
  split
  · exact keeps_of_eq rfl rfl rfl
  · exact .refl n

theorem keeps_takeNeigh2h (ip : Ip) (n : Node) : Keeps n (n.takeNeigh2h ip).2.2 := by
  unfold takeNeigh2h
  split
  · exact keeps_deleteAodvNeigh2h _ n
  · exact .refl n

theorem helloFromNeigh_hops (hhops : n.cfg.gRoutingMetric = .hops) (ip : Ip) (m : Hello) :
    n.helloFromNeigh ip m = n.updateNeighLifetime ip := by
  have hhops₁ : (n.updateNeighLifetime ip).cfg.gRoutingMetric = .hops := hhops
  rw [helloFromNeigh, if_pos hhops₁]

theorem newHelloNeigh_runs (hhops : n.cfg.gRoutingMetric = .hops) (ip : Ip) (hn : HasOwn n) :
    ∃ ok n', n.newHelloNeigh ip = some (ok, n') ∧ Keeps n n' := by
  have htake := keeps_takeNeigh2h ip n
  unfold newHelloNeigh
  obtain ⟨ok, n₁, hcreate, h₁⟩ := createAodvNeigh_runs (by rw [htake.cfg, hhops]) ip (hn.keep htake)
  dsimp only
  rw [hcreate]
  dsimp only [Option.bind_eq_bind, Option.bind_some]
  have hmade := htake.trans h₁
  split
  · exact ⟨false, _, rfl, hmade⟩
  obtain ⟨n₂, hrecover, h₂⟩ := recoverLinks_runs ip n₁.brkList (hn.keep hmade)
  rw [hrecover]
  exact ⟨true, _, rfl, ((hmade.trans h₂).trans (keeps_redirectRoutes _ n₂)).trans (keeps_of_eq rfl rfl rfl)⟩

theorem recvHello_runs (hhops : n.cfg.gRoutingMetric = .hops) (t : Task) (m : Hello) (hn : HasOwn n) :
    Runs n (n.recvHello t m) := by
  have hneigh : ∀ n₁ : Node, n₁.cfg = n.cfg → Keeps n₁ (n₁.helloFromNeigh t.srcIp m) := by
    intro n₁ hcfg
    rw [helloFromNeigh_hops (by rw [hcfg, hhops])]
    exact keeps_updateNeighLifetime _ n₁
  unfold recvHello
  split
  · exact .refl n
  split
  · exact (hneigh n rfl).runs
  obtain ⟨ok, n₁, hnew, h₁⟩ := newHelloNeigh_runs hhops t.srcIp hn
  rw [hnew]
  dsimp only [Option.bind_eq_bind, Option.bind_some]
  split
  · exact (h₁.trans (hneigh n₁ h₁.cfg)).runs
  · exact h₁.runs

theorem keeps_genHello (hhops : n.cfg.gRoutingMetric = .hops) : Keeps n n.genHello := by
  rw [genHello, if_neg (by simp [hhops]), sendHello]
  dsimp only
  split
  · exact keeps_alloc n
  generalize hn₁ : n.alloc.2.localBroadcast 1 (.hello (n.alloc.2.helloOf [])) = n₁
  have h₁ : Keeps n n₁ := hn₁ ▸ (keeps_alloc n).trans (keeps_localBroadcast 1 rfl _)
  have hcfg : n₁.cfg.gRoutingMetric = .hops := h₁.cfg ▸ hhops
  refine h₁.trans ?_
  split
  · split
    · next hne => exact absurd hcfg hne
    · exact keeps_of_eq rfl rfl rfl
  · exact keeps_of_eq rfl rfl rfl

theorem genStRreq_runs : Runs n n.genStRreq := by
  unfold genStRreq
  split
  · exact .refl n
  dsimp only
  split
  · exact (keeps_alloc n).runs
  split
  · exact (keeps_alloc n).runs
  next e _ =>
  have hbump : Keeps n.alloc.2 { n.alloc.2 with
      routing := n.alloc.2.routing.modifyAt e.ptr fun e ↦ { e with dstId := e.dstId + 1 } } := by
    refine keeps_routing (stays_modifyAt e.ptr ?_ _)
    exact fun _ ↦ rfl
  refine ⟨_, rfl, ((keeps_alloc n).trans hbump).trans (Keeps.trans (keeps_localBroadcast netDiameter ?_ _)
    (keeps_of_eq rfl rfl rfl))⟩
  rfl

theorem keeps_recvRreqSt (t : Task) (m : RreqSt) (n : Node) : Keeps n (n.recvRreqSt t m) := by
  have hgw : ∀ (gwIp : Ip) (dstId : UInt32) (numHops : UInt8) (pathMetric : UInt32) (n₁ : Node),
      Keeps n₁ (n₁.updateGw gwIp dstId numHops pathMetric).2 := by
    intro gwIp dstId numHops pathMetric n₁
    unfold updateGw
    split
    · split
      · exact .refl n₁
      split
      · exact .refl n₁
      · exact keeps_of_eq rfl rfl rfl
    · dsimp only
      split
      · exact keeps_alloc n₁
      · exact keeps_of_eq rfl rfl rfl
  unfold recvRreqSt
  split
  · exact .refl n
  next x _ =>
  refine (keeps_updateNeighLifetime x.ip n).trans ?_
  generalize n.updateNeighLifetime x.ip = n₁
  dsimp only
  split
  · exact .refl n₁
  split
  · exact .refl n₁
  next pathMetric _ =>
  split
  · exact (hgw ..).trans (keeps_localBroadcast _ rfl _)
  · exact hgw ..

end Neighbours

section Replies

variable {n n' : Node} {ptr : ℕ}

theorem keeps_modifyAt (ptr : ℕ) {f : AodvRoute → AodvRoute} (hf : ∀ e, (f e).ptr = e.ptr) (n : Node) :
    Keeps n { n with routing := n.routing.modifyAt ptr f } :=
  keeps_routing (stays_modifyAt ptr hf n.routing)

theorem keeps_setLastHop (ptr : ℕ) (ip : Ip) (n : Node) : Keeps n (n.setLastHop ptr ip) := by
  refine keeps_modifyAt ptr ?_ n
  exact fun _ ↦ rfl

theorem keeps_setNextHop (ptr : ℕ) (ip : Ip) (n : Node) : Keeps n (n.setNextHop ptr ip) := by
  refine keeps_modifyAt ptr ?_ n
  exact fun _ ↦ rfl

theorem holds_of_find {srcIp dstIp : Ip} {tos : UInt8} {e : AodvRoute}
    (h : n.routing.findAodvRoute srcIp dstIp tos = some e) : Holds e.ptr n :=
  ⟨e, (OrderedList.findRun_mem h).1, rfl⟩

theorem holds_of_findById {dstIp : Ip} {dstId : UInt32} {e : AodvRoute}
    (h : n.routing.findAodvRouteById dstIp dstId = some e) : Holds e.ptr n :=
  ⟨e, (OrderedList.findRun_mem h).1, rfl⟩

theorem rrepRoute_runs (hn : Holds ptr n) : Runs n (n.rrepRoute ptr) := by
  obtain ⟨o, r, hrep, hstays⟩ : ∃ o r, n.routing.rrepAodvRoute n.cfg n.now ptr = some (o, r) ∧ Stays n.routing r :=
    rrepAodvRoute_runs hn
  unfold rrepRoute
  rw [hrep]
  cases o with
  | none => exact ⟨_, rfl, keeps_routing hstays⟩
  | some e => exact ⟨_, rfl, (keeps_routing hstays).trans (keeps_of_eq rfl rfl rfl)⟩

/-- The entry that `create_aodv_route` returns is in the table. -/
theorem createRoute_runs (srcIp dstIp : Ip) (tos : UInt8) (dstId : UInt32) (n : Node) :
    Keeps n (n.createRoute srcIp dstIp tos dstId).2 ∧
      ∀ e, (n.createRoute srcIp dstIp tos dstId).1 = some e →
        Holds e.ptr (n.createRoute srcIp dstIp tos dstId).2 := by
  refine ⟨keeps_routing (stays_createAodvRoute n.cfg srcIp dstIp tos dstId n.routing), fun e he ↦ ?_⟩
  unfold createRoute at he ⊢
  rcases hcreate : n.routing.createAodvRoute srcIp dstIp tos dstId with ⟨o, r⟩
  rw [hcreate] at he
  obtain rfl : o = some e := he
  rcases createAodvRoute_cases n.cfg hcreate with ⟨hnone, -⟩ | ⟨lifetime, hsome, hins⟩
  · cases hnone
  · obtain rfl := Option.some.inj hsome
    exact ⟨_, hins.mem.mpr (.inl rfl), rfl⟩

theorem rrepRouteEntry_runs {src : AodvRoute} (srcIp dstIp : Ip) (tos : UInt8) (hn : HasOwn n)
    (hsrc : Holds src.ptr n) : ∃ o n', n.rrepRouteEntry src srcIp dstIp tos = some (o, n') ∧
      Keeps n n' ∧ ∀ e, o = some e → Holds e.ptr n' := by
  unfold rrepRouteEntry
  split
  · have hbump := keeps_bumpLocalDstId n
    obtain ⟨c, hc⟩ := (hn.keep hbump).localDstId
    dsimp only
    rw [hc]
    dsimp only [Option.bind_eq_bind, Option.bind_some]
    obtain ⟨hcreate, hheld⟩ := createRoute_runs n.bumpLocalDstId.cfg.gMeshIp srcIp tos c n.bumpLocalDstId
    generalize n.bumpLocalDstId.createRoute n.bumpLocalDstId.cfg.gMeshIp srcIp tos c = p at hcreate hheld ⊢
    obtain ⟨_ | e, n₁⟩ := p
    · refine ⟨none, n₁, rfl, hbump.trans hcreate, ?_⟩
      intro e he
      cases he
    · have hset := (keeps_setNextHop e.ptr src.nextHop n₁).trans (keeps_setLastHop e.ptr 0 _)
      refine ⟨_, _, rfl, (hbump.trans hcreate).trans hset, ?_⟩
      intro e' he'
      obtain rfl := Option.some.inj he'
      exact (hheld e rfl).keep hset
  · refine ⟨some src, n, rfl, .refl n, ?_⟩
    intro e he
    exact Option.some.inj he ▸ hsrc

theorem answerRrep_runs (tos dttl : UInt8) (hn : HasOwn n) (hptr : Holds ptr n) :
    Runs n (n.answerRrep ptr tos dttl) := by
  have hbump := keeps_bumpLocalDstId n
  obtain ⟨c, hc⟩ := (hn.keep hbump).localDstId
  obtain ⟨src, hsrc⟩ := entryAt_ne_none (hptr.keep hbump)
  unfold answerRrep
  dsimp only
  rw [hc]
  dsimp only [Option.bind_eq_bind, Option.bind_some]
  rw [hsrc]
  dsimp only [Option.bind_some]
  generalize n.bumpLocalDstId.newRrep src tos dttl c = m
  have hjunk : Keeps n { n.bumpLocalDstId with junk := n.bumpLocalDstId.junk.tail } :=
    hbump.trans (keeps_of_eq rfl rfl rfl)
  refine hjunk.head ((rrepRoute_runs (hptr.keep hjunk)).bind fun n₁ _ ↦ ?_)
  exact ⟨_, rfl, (keeps_setLastHop ptr src.srcIp n₁).trans (keeps_sendMessage src.nextHop netDiameter
    (m := .rrep m) rfl _)⟩

theorem genRrep_runs (srcIp dstIp : Ip) (tos : UInt8) (hn : HasOwn n) : Runs n (n.genRrep srcIp dstIp tos) := by
  have halloc := keeps_alloc n
  unfold genRrep
  dsimp only
  split
  · exact halloc.runs
  refine halloc.head ?_
  have hn₁ := hn.keep halloc
  generalize n.alloc.2 = n₁ at hn₁ ⊢
  split
  · exact .refl n₁
  next src hsrc =>
  have halloc₁ := keeps_alloc n₁
  split
  · exact halloc₁.runs
  obtain ⟨o, n₂, hentry, h₂, hheld⟩ := rrepRouteEntry_runs srcIp dstIp tos (hn₁.keep halloc₁)
    ((holds_of_find hsrc).keep halloc₁)
  rw [hentry]
  refine halloc₁.head (h₂.head ?_)
  cases o with
  | none => exact .refl n₂
  | some src' => exact answerRrep_runs _ _ ((hn₁.keep halloc₁).keep h₂) (hheld src' rfl)

theorem recvRrepSource_runs (hhops : n.cfg.gRoutingMetric = .hops) (m : Rrep) (x : AodvNeigh) :
    Runs n (n.recvRrepSource m x) := by
  have htimers : Keeps n n.updateTimers := keeps_of_eq rfl rfl rfl
  obtain ⟨ok, n₁, hroute, h₁⟩ := rreqRoute_runs (n := n.updateTimers) hhops m.srcIp m.dstIp m.tos x m.numHops
    m.dstId m.pathMetric
  unfold recvRrepSource
  dsimp only
  rw [hroute]
  dsimp only [Option.bind_eq_bind, Option.bind_some]
  refine htimers.head (h₁.head ?_)
  have hremove : Keeps n₁ (n₁.removeTimer m.srcIp m.dstIp m.tos .resendRreq) := keeps_of_eq rfl rfl rfl
  split
  · exact hremove.runs
  next e he =>
  refine hremove.head ((rrepRoute_runs ((holds_of_findById he).keep hremove)).bind fun n₂ _ ↦ ?_)
  refine (keeps_setLastHop e.ptr n₂.cfg.gMeshIp n₂).head ?_
  generalize n₂.setLastHop e.ptr n₂.cfg.gMeshIp = n₃
  generalize hn₄ : (if m.dttl > 0 then n₃.send2dtn reDtnHello m.dstIp m.x m.y 0 else n₃) = n₄
  have h₄ : Keeps n₃ n₄ := by
    rw [← hn₄]
    split
    · exact keeps_send2dtn ..
    · exact .refl n₃
  refine h₄.head ?_
  split
  · exact (keeps_genRcvp m.dstIp n₄).runs
  · exact .refl n₄

/-- Only for a DTN hello does a node on the way need memory for an entry. -/
theorem rrepRecvRoute_runs (m : Rrep) (hmem : m.dttl > 0 → n.routing.kmalloc.next = true) :
    ∃ o m' n', n.rrepRecvRoute m = some (o, m', n') ∧ Keeps n n' ∧ ∀ e, o = some e → Holds e.ptr n' := by
  unfold rrepRecvRoute
  dsimp only
  split
  · next hdttl =>
    split
    · refine ⟨none, _, n, rfl, .refl n, ?_⟩
      intro e he
      cases he
    next old _ =>
    have hsome : ∃ e, (n.createRoute m.dstIp m.srcIp m.tos m.dstId).1 = some e := by
      unfold createRoute Routing.createAodvRoute
      rw [if_neg (by simp [hmem hdttl])]
      exact ⟨_, rfl⟩
    obtain ⟨hcreate, hheld⟩ := createRoute_runs m.dstIp m.srcIp m.tos m.dstId n
    generalize n.createRoute m.dstIp m.srcIp m.tos m.dstId = p at hsome hcreate hheld ⊢
    obtain ⟨o, n₁⟩ := p
    obtain ⟨e, rfl⟩ := hsome
    have hset := (keeps_setLastHop e.ptr old.lastHop n₁).trans (keeps_setNextHop e.ptr old.nextHop _)
    refine ⟨_, _, _, rfl, hcreate.trans hset, ?_⟩
    intro e' he'
    obtain rfl := Option.some.inj he'
    exact (hheld e rfl).keep hset
  · exact ⟨_, m, n, rfl, .refl n, fun e he ↦ holds_of_findById he⟩

/-- Without that memory a node on the way gets no further than this. -/
theorem recvRrepForward_starved {m : Rrep} {x : AodvNeigh} (hdttl : m.dttl > 0)
    (hmem : n.routing.kmalloc.next = false) (h : n.recvRrepForward m x = some n') : n' = n := by
  obtain ⟨⟨o, m', n₁⟩, hrecv, h⟩ := Option.bind_eq_some_iff.mp h
  unfold rrepRecvRoute at hrecv
  dsimp only at hrecv
  rw [if_pos hdttl] at hrecv
  split at hrecv
  · simp only [Option.some.injEq, Prod.mk.injEq] at hrecv
    obtain ⟨rfl, -, rfl⟩ := hrecv
    exact (Option.some.inj h).symm
  · simp [createRoute, Routing.createAodvRoute, hmem] at hrecv

theorem recvRrepForward_runs (hhops : n.cfg.gRoutingMetric = .hops) (m : Rrep) (x : AodvNeigh)
    (hmem : m.dttl > 0 → n.routing.kmalloc.next = true) : Runs n (n.recvRrepForward m x) := by
  obtain ⟨o, m', n₁, hrecv, h₁, hheld⟩ := rrepRecvRoute_runs m hmem
  unfold recvRrepForward
  rw [hrecv]
  dsimp only [Option.bind_eq_bind, Option.bind_some]
  refine h₁.head ?_
  cases o with
  | none => exact .refl n₁
  | some recv =>
    obtain ⟨ok, n₂, hroute, h₂⟩ := rreqRoute_runs (n := n₁) (by rw [h₁.cfg, hhops]) m'.srcIp m'.dstIp m'.tos x
      m'.numHops m'.dstId (m'.pathMetric - recv.pathMetric)
    dsimp only
    rw [hroute]
    dsimp only [Option.bind_some]
    refine h₂.head ?_
    have hrecv₂ := (hheld recv rfl).keep h₂
    split
    · exact .refl n₂
    next send hsend =>
    have hsend₂ : Holds send.ptr n₂ := holds_of_findById hsend
    refine (rrepRoute_runs hrecv₂).bind fun n₃ h₃ ↦ (rrepRoute_runs (hsend₂.keep h₃)).bind fun n₄ h₄ ↦ ?_
    obtain ⟨recv', hrecv'⟩ := entryAt_ne_none ((hrecv₂.keep h₃).keep h₄)
    obtain ⟨send', hsend'⟩ := entryAt_ne_none ((hsend₂.keep h₃).keep h₄)
    rw [hrecv']
    dsimp only [Option.bind_some]
    rw [hsend']
    exact ⟨_, rfl, ((keeps_setLastHop send'.ptr recv'.nextHop n₄).trans
      (keeps_setLastHop recv'.ptr send'.nextHop _)).trans (keeps_sendMessage _ _ (m := .rrep m') rfl _)⟩

theorem keeps_recvRrep (hhops : n.cfg.gRoutingMetric = .hops) {t : Task} {m : Rrep}
    (h : n.recvRrep t m = some n') : Keeps n n' := by
  unfold recvRrep at h
  split at h
  · exact Option.some.inj h ▸ .refl n
  next x _ =>
  refine (keeps_updateNeighLifetime x.ip n).trans ?_
  have hhops₁ : (n.updateNeighLifetime x.ip).cfg.gRoutingMetric = .hops := hhops
  generalize n.updateNeighLifetime x.ip = n₁ at h hhops₁ ⊢
  dsimp only at h
  have hkeeps : ∀ {y : Option Node}, y = some n' → Runs n₁ y → Keeps n₁ n' := by
    rintro y rfl ⟨n'', heq, hkeeps⟩
    exact Option.some.inj heq ▸ hkeeps
  split at h
  · exact hkeeps h (recvRrepSource_runs hhops₁ _ x)
  · by_cases hmem : m.dttl > 0 → n₁.routing.kmalloc.next = true
    · exact hkeeps h (recvRrepForward_runs hhops₁ _ x hmem)
    · obtain ⟨hdttl, hmem⟩ := Classical.not_imp.mp hmem
      obtain rfl := recvRrepForward_starved (m := { m with numHops := m.numHops + 1 }) hdttl
        (eq_false_of_ne_true hmem) h
      exact .refl n'

theorem recvRrep_runs (hhops : n.cfg.gRoutingMetric = .hops) (t : Task) (m : Rrep)
    (hmem : m.dttl > 0 → n.routing.kmalloc.next = true) : Runs n (n.recvRrep t m) := by
  unfold recvRrep
  split
  · exact .refl n
  next x _ =>
  refine (keeps_updateNeighLifetime x.ip n).head ?_
  dsimp only
  split
  · exact recvRrepSource_runs (n := n.updateNeighLifetime x.ip) hhops _ x
  · exact recvRrepForward_runs (n := n.updateNeighLifetime x.ip) hhops _ x hmem

end Replies

end Fbaodv.Proofs.HopsHandlers
