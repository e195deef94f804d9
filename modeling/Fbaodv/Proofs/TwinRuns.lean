import Fbaodv.Model.Thread
import Fbaodv.Foundation.Lockstep

namespace Fbaodv.Proofs.TwinRuns

open Fbaodv.Model Fbaodv.Model.Node Fbaodv.Foundation Fbaodv.Foundation.Lockstep

/-- The two nodes differ at most in the tasks that wait, which for the second
are `q`, and in what they have sent. -/
def Twin (q : ClassQueue Task) (n n' : Node) : Prop := ∃ s, n' = { n with tasks := q, sent := s }

/-- Two results of one function on twins. -/
def TwinWith {β : Type} (q : ClassQueue Task) (p p' : β × Node) : Prop :=
  p'.1 = p.1 ∧ Twin q p.2 p'.2

variable {q : ClassQueue Task} {n n' : Node} {β : Type}

theorem Twin.read (h : Twin q n n') {f : Node → β}
    (hf : ∀ s, f { n with tasks := q, sent := s } = f n) : f n' = f n := by
  obtain ⟨s, rfl⟩ := h
  exact hf s

theorem Twin.self (n : Node) : Twin n.tasks n n := ⟨n.sent, rfl⟩

/-- What keeps twins together leaves the tasks alone: it does so with a node and
itself. -/
theorem tasks_of_twin {f : Node → Node} (hf : ∀ {q k k'}, Twin q k k' → Twin q (f k) (f k')) (n : Node) :
    (f n).tasks = n.tasks := by
  obtain ⟨s, hs⟩ := hf (.self n)
  rw [hs]

theorem twin_bind {γ γ' : Type} {S : γ → γ' → Prop} {x x' : Option (β × Node)}
    {f : β × Node → Option γ} {f' : β × Node → Option γ'} (h : Option.Rel (TwinWith q) x x')
    (hf : ∀ b m m', Twin q m m' → Option.Rel S (f (b, m)) (f' (b, m'))) :
    Option.Rel S (x.bind f) (x'.bind f') := by
  refine rel_bind h ?_
  rintro ⟨_, m⟩ ⟨b, m'⟩ ⟨rfl, h⟩
  exact hf b m m' h

section Primitives

theorem twin_alloc (h : Twin q n n') : TwinWith q n.alloc n'.alloc := by
  obtain ⟨s, rfl⟩ := h
  exact ⟨rfl, s, rfl⟩

theorem twin_getRandom (h : Twin q n n') : TwinWith q n.getRandom n'.getRandom := by
  obtain ⟨s, rfl⟩ := h
  exact ⟨rfl, s, rfl⟩

theorem twin_modifyNeigh (h : Twin q n n') (ip : Ip) (f : AodvNeigh → AodvNeigh) :
    Twin q (n.modifyNeigh ip f) (n'.modifyNeigh ip f) := by
  obtain ⟨s, rfl⟩ := h
  exact ⟨s, rfl⟩

theorem twin_modifyNeigh2h (h : Twin q n n') (ip : Ip) (f : AodvNeigh2h → AodvNeigh2h) :
    Twin q (n.modifyNeigh2h ip f) (n'.modifyNeigh2h ip f) := by
  obtain ⟨s, rfl⟩ := h
  exact ⟨s, rfl⟩

theorem twin_localBroadcast (h : Twin q n n') (ttl : UInt8) (m : Message) :
    Twin q (n.localBroadcast ttl m) (n'.localBroadcast ttl m) := by
  obtain ⟨s, rfl⟩ := h
  exact rel_ite Iff.rfl ⟨s, rfl⟩ ⟨_, rfl⟩

theorem twin_sendMessage (h : Twin q n n') (ip : Ip) (ttl : UInt8) (m : Message) :
    Twin q (n.sendMessage ip ttl m) (n'.sendMessage ip ttl m) := by
  obtain ⟨s, rfl⟩ := h
  exact rel_ite Iff.rfl ⟨s, rfl⟩ (rel_ite Iff.rfl ⟨s, rfl⟩ ⟨_, rfl⟩)

theorem twin_send2dtn (h : Twin q n n') (port : UInt16) (x y z w : UInt32) :
    Twin q (n.send2dtn port x y z w) (n'.send2dtn port x y z w) := by
  obtain ⟨s, rfl⟩ := h
  exact ⟨_, rfl⟩

theorem twin_insertTimer (h : Twin q n n') (type : TaskType) (delay : ℕ) (ip : Ip) :
    Twin q (n.insertTimer type delay ip) (n'.insertTimer type delay ip) := by
  obtain ⟨s, rfl⟩ := h
  exact ⟨s, rfl⟩

theorem twin_insertTimerDir (h : Twin q n n') (type : TaskType) (delay : ℕ) (retries : UInt8)
    (srcIp dstIp : Ip) (tos : UInt8) :
    Twin q (n.insertTimerDir type delay retries srcIp dstIp tos)
      (n'.insertTimerDir type delay retries srcIp dstIp tos) := by
  obtain ⟨s, rfl⟩ := h
  exact ⟨s, rfl⟩

theorem twin_removeTimer (h : Twin q n n') (srcIp dstIp : Ip) (tos : UInt8) (type : TaskType) :
    Twin q (n.removeTimer srcIp dstIp tos type) (n'.removeTimer srcIp dstIp tos type) := by
  obtain ⟨s, rfl⟩ := h
  exact ⟨s, rfl⟩

theorem twin_updateTimers (h : Twin q n n') : Twin q n.updateTimers n'.updateTimers := by
  obtain ⟨s, rfl⟩ := h
  exact ⟨s, rfl⟩

theorem twin_bumpLocalDstId (h : Twin q n n') : Twin q n.bumpLocalDstId n'.bumpLocalDstId := by
  obtain ⟨s, rfl⟩ := h
  exact ⟨s, rfl⟩

theorem twin_updateNeighLifetime (h : Twin q n n') (ip : Ip) :
    Twin q (n.updateNeighLifetime ip) (n'.updateNeighLifetime ip) := by
  obtain ⟨s, rfl⟩ := h
  exact ⟨s, rfl⟩

theorem twin_brkList (h : Twin q n n') (l : List BrkLink) :
    Twin q { n with brkList := l } { n' with brkList := l } := by
  obtain ⟨s, rfl⟩ := h
  exact ⟨s, rfl⟩

end Primitives

section BrkList

theorem twin_createBrkLink (h : Twin q n n') (srcIp dstIp lastHop lastAvail : Ip) :
    Twin q (n.createBrkLink srcIp dstIp lastHop lastAvail)
      (n'.createBrkLink srcIp dstIp lastHop lastAvail) := by
  obtain ⟨s, rfl⟩ := h
  exact rel_ite Iff.rfl ⟨s, rfl⟩ ⟨s, rfl⟩

theorem twin_flushBrkList (h : Twin q n n') :
    Option.Rel (Twin q) n.flushBrkList n'.flushBrkList := by
  have hflush : flushBrkLinks n'.now n'.brkList = flushBrkLinks n.now n.brkList :=
    h.read (f := fun n ↦ flushBrkLinks n.now n.brkList) fun _ ↦ rfl
  unfold flushBrkList
  rw [hflush]
  rcases flushBrkLinks n.now n.brkList with _ | l
  · exact .none
  · exact .some (twin_brkList h l)

theorem twin_recordBrkLink (h : Twin q n n') (srcIp dstIp lastHop lastAvail : Ip) :
    Option.Rel (Twin q) (n.recordBrkLink srcIp dstIp lastHop lastAvail)
      (n'.recordBrkLink srcIp dstIp lastHop lastAvail) := by
  have hfind : n'.findBrkLink srcIp dstIp = n.findBrkLink srcIp dstIp :=
    h.read (f := findBrkLink srcIp dstIp) fun _ ↦ rfl
  unfold recordBrkLink
  rw [hfind]
  rcases n.findBrkLink srcIp dstIp with _ | x
  · exact twin_flushBrkList (twin_createBrkLink h srcIp dstIp lastHop lastAvail)
  · obtain ⟨s, rfl⟩ := h
    exact twin_flushBrkList ⟨s, rfl⟩

end BrkList

section Rerr

theorem twin_dtn (h : Twin q n n') (port : UInt16) (x y z w : UInt32) :
    Twin q (if n.dtnRegister then n.send2dtn port x y z w else n)
      (if n'.dtnRegister then n'.send2dtn port x y z w else n') := by
  have hdtn : n'.dtnRegister = n.dtnRegister := h.read fun _ ↦ rfl
  exact rel_ite (by rw [hdtn]) (twin_send2dtn h port x y z w) h

theorem twin_genRerrRoute (h : Twin q n n') (e : AodvRoute) :
    Option.Rel (TwinWith q) (n.genRerrRoute e) (n'.genRerrRoute e) := by
  have hlast : ∀ {m m' : Node}, Twin q m m' → m'.lastAvail = m.lastAvail :=
    fun h ↦ h.read (f := lastAvail) fun _ ↦ rfl
  have hreply : n'.replyToRrer e.srcIp = n.replyToRrer e.srcIp :=
    h.read (f := replyToRrer e.srcIp) fun _ ↦ rfl
  unfold genRerrRoute
  rw [hreply]
  refine rel_ite Iff.rfl (rel_ite Iff.rfl ?_ (.some ⟨rfl, h⟩)) ?_
  · obtain ⟨hfst, h⟩ := twin_alloc h
    dsimp only
    rw [hfst, hlast h]
    refine rel_ite Iff.rfl (.some ⟨rfl, h⟩) ?_
    have hsend := twin_sendMessage (twin_dtn h dtnPort e.srcIp e.dstIp n.alloc.2.lastAvail rerrMessage)
      e.lastHop netDiameter
      (.rerr ⟨0, e.dstIp, e.dstId, n.alloc.2.lastAvail, e.srcIp⟩)
    rw [hlast hsend]
    exact rel_bind (twin_recordBrkLink hsend _ _ _ _) fun _ _ h ↦ .some ⟨rfl, h⟩
  · have hsend := twin_dtn h dtnPort e.srcIp e.dstIp n.lastAvail rerrMessage
    dsimp only
    rw [hlast h, hlast hsend]
    exact rel_bind (twin_recordBrkLink hsend _ _ _ _) fun _ _ h ↦ .some ⟨rfl, h⟩

theorem twin_expireRoute (h : Twin q n n') (ptr : ℕ) :
    Twin q (n.expireRoute ptr) (n'.expireRoute ptr) := by
  obtain ⟨s, rfl⟩ := h
  exact ⟨s, rfl⟩

theorem twin_genRerrLoop (brkDstIp : Ip) (l : List AodvRoute) (k : ℕ) (h : Twin q n n') :
    Option.Rel (TwinWith q) (genRerrLoop brkDstIp l k n) (genRerrLoop brkDstIp l k n') := by
  induction l generalizing k n n' with
  | nil => exact .some ⟨rfl, h⟩
  | cons e l ih =>
    unfold genRerrLoop
    refine rel_ite Iff.rfl (twin_bind (twin_genRerrRoute h e) fun go m m' h ↦ ?_) (ih k h)
    exact rel_ite Iff.rfl (.some ⟨rfl, h⟩)
      (rel_ite Iff.rfl (ih (k + 1) (twin_expireRoute h e.ptr)) (ih k h))

theorem twin_updateMyLoad (h : Twin q n n') :
    Twin q { n with routing := n.routing.updateMyLoad } { n' with routing := n'.routing.updateMyLoad } := by
  obtain ⟨s, rfl⟩ := h
  exact ⟨s, rfl⟩

theorem twin_genRerr (h : Twin q n n') (ip : Ip) :
    Option.Rel (Twin q) (n.genRerr ip) (n'.genRerr ip) := by
  have htable : n'.routing.table = n.routing.table := h.read (f := (·.routing.table)) fun _ ↦ rfl
  unfold genRerr
  rw [htable]
  refine twin_bind (twin_genRerrLoop ip _ 0 h) fun k m m' h ↦ ?_
  have hcfg : m'.cfg = m.cfg := h.read fun _ ↦ rfl
  rcases k with _ | k
  · exact .some h
  · exact rel_ite (by rw [hcfg]) (.some (twin_updateMyLoad h)) (.some h)

theorem twin_recvRerrRoute (h : Twin q n n') (m : Rerr) (firstDtn : Bool) (e : AodvRoute) :
    Option.Rel (Twin q) (n.recvRerrRoute m firstDtn e) (n'.recvRerrRoute m firstDtn e) := by
  have hreply : n'.replyToRrer e.srcIp = n.replyToRrer e.srcIp :=
    h.read (f := replyToRrer e.srcIp) fun _ ↦ rfl
  have hcfg : n'.cfg = n.cfg := h.read fun _ ↦ rfl
  unfold recvRerrRoute
  rw [hreply, hcfg]
  exact rel_ite Iff.rfl
    (rel_ite Iff.rfl (twin_recordBrkLink (twin_sendMessage h _ _ _) _ _ _ _) (.some h))
    (twin_recordBrkLink h _ _ _ _)

theorem twin_recvRerr (h : Twin q n n') (t : Task) (m : Rerr) :
    Option.Rel (Twin q) (n.recvRerr t m) (n'.recvRerr t m) := by
  have hdtn : n'.dtnRegister = n.dtnRegister := h.read fun _ ↦ rfl
  have hcfg : n'.cfg = n.cfg := h.read fun _ ↦ rfl
  unfold recvRerr
  dsimp only
  rw [hdtn, hcfg]
  generalize hfirst : (n.dtnRegister && m.lastAvailIp == 0) = firstDtn
  have h₁ := twin_dtn h dtnPort m.srcIp m.dstIp (if firstDtn then n.cfg.gMeshIp else m.lastAvailIp)
    rerrMessage
  rw [hdtn] at h₁
  generalize (if n.dtnRegister = true then _ else n) = n₁ at h₁ ⊢
  generalize (if n.dtnRegister = true then _ else n') = n₁' at h₁ ⊢
  have hrouting : n₁'.routing = n₁.routing := h₁.read fun _ ↦ rfl
  rw [hrouting]
  rcases n₁.routing.findAodvRouteById m.dstIp m.dstId with _ | e
  · exact .some h₁
  refine rel_ite Iff.rfl (.some h₁) (rel_bind (twin_recvRerrRoute h₁ m firstDtn e) ?_)
  intro n₂ n₂' h₂
  have h₃ := twin_expireRoute h₂ e.ptr
  have hcfg₃ : (n₂'.expireRoute e.ptr).cfg = (n₂.expireRoute e.ptr).cfg := h₃.read fun _ ↦ rfl
  refine rel_ite Iff.rfl (.some ?_) (.some h₂)
  exact rel_ite (by rw [hcfg₃]) (twin_updateMyLoad h₃) h₃

end Rerr

section Neigh

theorem twin_unlinkNeigh (h : Twin q n n') (ip : Ip) :
    Twin q (n.unlinkNeigh ip) (n'.unlinkNeigh ip) := by
  obtain ⟨s, rfl⟩ := h
  exact rel_ite Iff.rfl ⟨s, rfl⟩ ⟨s, rfl⟩

theorem twin_deleteAodvNeigh (h : Twin q n n') (ip : Ip) :
    Option.Rel (Twin q) (n.deleteAodvNeigh ip) (n'.deleteAodvNeigh ip) := by
  have hlist : n'.aodvNeighList = n.aodvNeighList := h.read fun _ ↦ rfl
  unfold deleteAodvNeigh
  rw [hlist]
  exact rel_ite Iff.rfl (twin_genRerr (twin_unlinkNeigh h ip) ip) (.some h)

theorem twin_routeAodvNeigh (h : Twin q n n') (ip : Ip) :
    Option.Rel (TwinWith q) (n.routeAodvNeigh ip) (n'.routeAodvNeigh ip) := by
  obtain ⟨s, rfl⟩ := h
  have hdst : localDstId { n with tasks := q, sent := s } = n.localDstId := rfl
  unfold routeAodvNeigh
  rw [hdst]
  dsimp only
  rcases n.localDstId with _ | dstId
  · exact .none
  change Option.Rel (TwinWith q) (Option.bind (some dstId) _) (Option.bind (some dstId) _)
  rw [Option.bind_some, Option.bind_some]
  rcases n.routing.createAodvRoute n.cfg.gMeshIp ip 0 dstId with ⟨_ | e, r⟩
  · exact .some ⟨rfl, s, rfl⟩
  dsimp only
  split
  · exact .some ⟨rfl, s, rfl⟩
  · exact rel_ite Iff.rfl (.some ⟨rfl, s, rfl⟩) (.some ⟨rfl, s, rfl⟩)

theorem twin_createAodvNeigh (h : Twin q n n') (ip : Ip) :
    Option.Rel (TwinWith q) (n.createAodvNeigh ip) (n'.createAodvNeigh ip) := by
  unfold createAodvNeigh
  dsimp only
  obtain ⟨hfst, h⟩ := twin_alloc h
  have hlist : n'.alloc.2.aodvNeighList = n.alloc.2.aodvNeighList := h.read fun _ ↦ rfl
  rw [hfst, hlist]
  refine rel_ite Iff.rfl (.some ⟨rfl, h⟩) (rel_ite Iff.rfl (.some ⟨rfl, h⟩) ?_)
  refine twin_bind (twin_routeAodvNeigh h ip) fun ok m m' h ↦ ?_
  obtain ⟨s, rfl⟩ := h
  exact rel_ite Iff.rfl (.some ⟨rfl, s, rfl⟩)
    (rel_ite Iff.rfl (.some ⟨rfl, s, rfl⟩) (.some ⟨rfl, s, rfl⟩))

theorem twin_createAodvNeigh2h (h : Twin q n n') (ip : Ip) :
    Twin q (n.createAodvNeigh2h ip).2 (n'.createAodvNeigh2h ip).2 := by
  obtain ⟨s, rfl⟩ := h
  unfold createAodvNeigh2h
  have hsnd : ∀ {c c' : Prop} [Decidable c] [Decidable c'] {p p' r r' : Bool × Node}, (c' ↔ c) →
      Twin q p.2 p'.2 → Twin q r.2 r'.2 →
      Twin q (if c then p else r).2 (if c' then p' else r').2 :=
    fun hc hp hr ↦ rel_ite (R := fun p p' : Bool × Node ↦ Twin q p.2 p'.2) hc hp hr
  exact hsnd Iff.rfl ⟨s, rfl⟩ (hsnd Iff.rfl ⟨s, rfl⟩ ⟨s, rfl⟩)

theorem twin_deleteAodvNeigh2h (h : Twin q n n') (ip : Ip) :
    Twin q (n.deleteAodvNeigh2h ip) (n'.deleteAodvNeigh2h ip) := by
  obtain ⟨s, rfl⟩ := h
  exact rel_ite Iff.rfl ⟨s, rfl⟩ ⟨s, rfl⟩

theorem twin_refreshNeigh2h (h : Twin q n n') (ip : Ip) :
    Twin q (n.refreshNeigh2h ip) (n'.refreshNeigh2h ip) := by
  have hfind : n'.findAodvNeigh2h ip = n.findAodvNeigh2h ip :=
    h.read (f := findAodvNeigh2h ip) fun _ ↦ rfl
  unfold refreshNeigh2h
  rw [hfind]
  rcases n.findAodvNeigh2h ip with _ | x
  · exact twin_createAodvNeigh2h h ip
  · obtain ⟨s, rfl⟩ := h
    exact ⟨s, rfl⟩

end Neigh

section Rreq

theorem twin_genRreq (h : Twin q n n') (srcIp dstIp : Ip) (tos : UInt8) :
    Option.Rel (Twin q) (n.genRreq srcIp dstIp tos) (n'.genRreq srcIp dstIp tos) := by
  have hcfg : n'.cfg = n.cfg := h.read fun _ ↦ rfl
  unfold genRreq
  dsimp only
  obtain ⟨hfst, h⟩ := twin_alloc h
  rw [hfst, hcfg]
  refine rel_ite Iff.rfl (.some h) ?_
  have h := twin_bumpLocalDstId h
  have hdst : n'.alloc.2.bumpLocalDstId.localDstId = n.alloc.2.bumpLocalDstId.localDstId :=
    h.read (f := localDstId) fun _ ↦ rfl
  have hmsg : ∀ dttl dstId, newRreq srcIp dstIp tos dttl dstId n'.alloc.2.bumpLocalDstId =
      newRreq srcIp dstIp tos dttl dstId n.alloc.2.bumpLocalDstId :=
    fun dttl dstId ↦ h.read (f := newRreq srcIp dstIp tos dttl dstId) fun _ ↦ rfl
  rw [hdst]
  rcases n.alloc.2.bumpLocalDstId.localDstId with _ | dstId
  · exact .none
  refine .some ?_
  rw [hmsg]
  exact twin_updateTimers (twin_insertTimerDir (twin_localBroadcast h _ _) _ _ _ _ _ _)

theorem twin_resendRreq (h : Twin q n n') (t : Task) :
    Option.Rel (Twin q) (n.resendRreq t) (n'.resendRreq t) := by
  unfold resendRreq
  refine rel_ite Iff.rfl (.some (by obtain ⟨s, rfl⟩ := h; exact ⟨s, rfl⟩)) ?_
  dsimp only
  obtain ⟨hfst, h⟩ := twin_alloc h
  rw [hfst]
  refine rel_ite Iff.rfl (.some h) ?_
  have h := twin_bumpLocalDstId h
  have hdst : n'.alloc.2.bumpLocalDstId.localDstId = n.alloc.2.bumpLocalDstId.localDstId :=
    h.read (f := localDstId) fun _ ↦ rfl
  have hmsg : ∀ dstId, newRreq t.srcIp t.dstIp t.tos 0 dstId n'.alloc.2.bumpLocalDstId =
      newRreq t.srcIp t.dstIp t.tos 0 dstId n.alloc.2.bumpLocalDstId :=
    fun dstId ↦ h.read (f := newRreq t.srcIp t.dstIp t.tos 0 dstId) fun _ ↦ rfl
  rw [hdst]
  rcases n.alloc.2.bumpLocalDstId.localDstId with _ | dstId
  · exact .none
  refine .some ?_
  rw [hmsg]
  exact twin_updateTimers (twin_insertTimerDir (twin_localBroadcast h _ _) _ _ _ _ _ _)

theorem twin_rreqRoute (h : Twin q n n') (srcIp dstIp : Ip) (tos : UInt8) (x : AodvNeigh)
    (hops : UInt8) (dstId pathMetric : UInt32) :
    Option.Rel (TwinWith q) (n.rreqRoute srcIp dstIp tos x hops dstId pathMetric)
      (n'.rreqRoute srcIp dstIp tos x hops dstId pathMetric) := by
  obtain ⟨s, rfl⟩ := h
  unfold rreqRoute
  dsimp only
  rcases n.routing.rreqAodvRoute n.cfg n.now srcIp dstIp tos x.ip x.sendRate hops dstId pathMetric
    with _ | ⟨ok, r⟩
  · exact .none
  · exact .some ⟨rfl, s, rfl⟩

theorem twin_acceptRreq (h : Twin q n n') (t : Task) (m : Rreq) :
    Twin q (n.acceptRreq t m) (n'.acceptRreq t m) := by
  have hdest : n'.iamDestination m = n.iamDestination m := h.read (f := iamDestination m) fun _ ↦ rfl
  have htimers : n'.timers = n.timers := h.read fun _ ↦ rfl
  have hdtn : n'.dtnRegister = n.dtnRegister := h.read fun _ ↦ rfl
  unfold acceptRreq
  dsimp only
  rw [hdest, htimers, hdtn]
  refine rel_ite Iff.rfl (rel_ite Iff.rfl h (twin_updateTimers (twin_insertTimerDir h _ _ _ _ _ _))) ?_
  exact twin_localBroadcast (rel_ite Iff.rfl (twin_send2dtn h _ _ _ _ _) h) _ _

theorem twin_recvRreq (h : Twin q n n') (t : Task) (m : Rreq) :
    Option.Rel (Twin q) (n.recvRreq t m) (n'.recvRreq t m) := by
  have hdest : n'.iamDestination m = n.iamDestination m := h.read (f := iamDestination m) fun _ ↦ rfl
  have hfind : n'.findAodvNeigh t.srcIp = n.findAodvNeigh t.srcIp :=
    h.read (f := findAodvNeigh t.srcIp) fun _ ↦ rfl
  unfold recvRreq
  rw [hdest, hfind]
  refine rel_ite Iff.rfl (.some h) ?_
  rcases n.findAodvNeigh t.srcIp with _ | x
  · exact .some h
  have h := twin_updateNeighLifetime h x.ip
  have hcfg : (n'.updateNeighLifetime x.ip).cfg = (n.updateNeighLifetime x.ip).cfg :=
    h.read fun _ ↦ rfl
  have hmetric : ∀ m, (n'.updateNeighLifetime x.ip).rreqMetric x m =
      (n.updateNeighLifetime x.ip).rreqMetric x m :=
    fun m ↦ h.read (f := rreqMetric x m) fun _ ↦ rfl
  dsimp only
  rw [hcfg, hmetric]
  refine rel_ite Iff.rfl (.some h) (rel_ite Iff.rfl (.some h) ?_)
  rcases (n.updateNeighLifetime x.ip).rreqMetric x { m with numHops := m.numHops + 1 }
    with _ | _ | pathMetric
  · exact .none
  · exact .some h
  refine twin_bind (twin_rreqRoute h _ _ _ _ _ _ _) fun ok k k' h ↦ ?_
  exact .some (rel_ite Iff.rfl (twin_acceptRreq h _ _) h)

end Rreq

section Rcvp

theorem twin_genRcvpLoop (dstIp : Ip) (l : List BrkLink) (h : Twin q n n') :
    Twin q (genRcvpLoop dstIp l n) (genRcvpLoop dstIp l n') := by
  have herase : ∀ {m m' : Node}, Twin q m m' →
      Twin q { m with brkList := m.brkList.eraseP fun y ↦ y.dstIp == dstIp }
        { m' with brkList := m'.brkList.eraseP fun y ↦ y.dstIp == dstIp } := by
    rintro m _ ⟨s, rfl⟩
    exact ⟨s, rfl⟩
  induction l generalizing n n' with
  | nil => exact h
  | cons x l ih =>
    have hcfg : n'.cfg = n.cfg := h.read fun _ ↦ rfl
    unfold genRcvpLoop
    dsimp only
    rw [hcfg]
    refine rel_ite Iff.rfl h (rel_ite Iff.rfl ?_ (ih (herase (twin_dtn h _ _ _ _ _))))
    obtain ⟨hfst, h⟩ := twin_alloc h
    rw [hfst]
    exact rel_ite Iff.rfl h (ih (herase (twin_sendMessage (twin_dtn h _ _ _ _ _) _ _ _)))

theorem twin_genRcvp (h : Twin q n n') (dstIp : Ip) : Twin q (n.genRcvp dstIp) (n'.genRcvp dstIp) := by
  have hbrk : n'.brkList = n.brkList := h.read fun _ ↦ rfl
  unfold genRcvp
  rw [hbrk]
  exact twin_genRcvpLoop dstIp _ h

theorem twin_removeBrkLink (h : Twin q n n') (srcIp dstIp : Ip) :
    Twin q (n.removeBrkLink srcIp dstIp) (n'.removeBrkLink srcIp dstIp) := by
  obtain ⟨s, rfl⟩ := h
  exact ⟨s, rfl⟩

theorem twin_recvRcvp (h : Twin q n n') (m : Rcvp) : Twin q (n.recvRcvp m) (n'.recvRcvp m) := by
  unfold recvRcvp
  have h := twin_dtn h dtnPort m.srcIp m.dstIp m.lastAvailIp rcvpMessage
  dsimp only
  generalize (if n.dtnRegister = true then _ else n) = n₁ at h ⊢
  generalize (if n'.dtnRegister = true then _ else n') = n₁' at h ⊢
  have hfind : n₁'.findBrkLink m.srcIp m.dstIp = n₁.findBrkLink m.srcIp m.dstIp :=
    h.read (f := findBrkLink m.srcIp m.dstIp) fun _ ↦ rfl
  have hcfg : n₁'.cfg = n₁.cfg := h.read fun _ ↦ rfl
  rw [hfind]
  rcases n₁.findBrkLink m.srcIp m.dstIp with _ | x
  · exact h
  dsimp only
  rw [hcfg]
  refine rel_ite Iff.rfl (twin_removeBrkLink h _ _) ?_
  obtain ⟨hfst, h⟩ := twin_alloc h
  rw [hfst]
  exact rel_ite Iff.rfl h (twin_removeBrkLink (twin_sendMessage h _ _ _) _ _)

theorem twin_genRrdp (h : Twin q n n') (srcIp dstIp lastHop : Ip) (tos : UInt8) :
    Twin q (n.genRrdp srcIp dstIp lastHop tos) (n'.genRrdp srcIp dstIp lastHop tos) := by
  unfold genRrdp
  obtain ⟨hfst, h⟩ := twin_alloc h
  dsimp only
  rw [hfst]
  exact rel_ite Iff.rfl h (twin_sendMessage h _ _ _)

theorem twin_recvRrdp (h : Twin q n n') (t : Task) (m : Rrdp) :
    Twin q (n.recvRrdp t m).2 (n'.recvRrdp t m).2 := by
  have hrouting : n'.routing = n.routing := h.read fun _ ↦ rfl
  have hdtn : n'.dtnRegister = n.dtnRegister := h.read fun _ ↦ rfl
  unfold recvRrdp
  rw [hrouting, hdtn]
  rcases n.routing.findAodvRoute m.srcIp m.dstIp m.tos with _ | e
  · exact h
  have hreply : n'.replyToRrer e.srcIp = n.replyToRrer e.srcIp :=
    h.read (f := replyToRrer e.srcIp) fun _ ↦ rfl
  dsimp only
  rw [hreply]
  split
  · exact h
  split
  · split
    · dsimp only
      exact twin_sendMessage h _ _ _
    · exact h
  · exact rel_ite Iff.rfl (twin_send2dtn h _ _ _ _ _) h

end Rcvp

section Rrep

theorem twin_rrepRoute (h : Twin q n n') (ptr : ℕ) :
    Option.Rel (Twin q) (n.rrepRoute ptr) (n'.rrepRoute ptr) := by
  obtain ⟨s, rfl⟩ := h
  unfold rrepRoute
  dsimp only
  rcases n.routing.rrepAodvRoute n.cfg n.now ptr with _ | ⟨_ | e, r⟩
  · exact .none
  · exact .some ⟨s, rfl⟩
  · exact .some ⟨s, rfl⟩

theorem twin_setLastHop (h : Twin q n n') (ptr : ℕ) (ip : Ip) :
    Twin q (n.setLastHop ptr ip) (n'.setLastHop ptr ip) := by
  obtain ⟨s, rfl⟩ := h
  exact ⟨s, rfl⟩

theorem twin_setNextHop (h : Twin q n n') (ptr : ℕ) (ip : Ip) :
    Twin q (n.setNextHop ptr ip) (n'.setNextHop ptr ip) := by
  obtain ⟨s, rfl⟩ := h
  exact ⟨s, rfl⟩

theorem twin_createRoute (h : Twin q n n') (srcIp dstIp : Ip) (tos : UInt8) (dstId : UInt32) :
    TwinWith q (n.createRoute srcIp dstIp tos dstId) (n'.createRoute srcIp dstIp tos dstId) := by
  obtain ⟨s, rfl⟩ := h
  exact ⟨rfl, s, rfl⟩

theorem twin_rrepRouteEntry (h : Twin q n n') (src : AodvRoute) (srcIp dstIp : Ip) (tos : UInt8) :
    Option.Rel (TwinWith q) (n.rrepRouteEntry src srcIp dstIp tos)
      (n'.rrepRouteEntry src srcIp dstIp tos) := by
  have hcfg : n'.cfg = n.cfg := h.read fun _ ↦ rfl
  have hdtn : n'.dtnRegister = n.dtnRegister := h.read fun _ ↦ rfl
  unfold rrepRouteEntry
  rw [hcfg, hdtn]
  refine rel_ite Iff.rfl ?_ (.some ⟨rfl, h⟩)
  have h := twin_bumpLocalDstId h
  have hdst : n'.bumpLocalDstId.localDstId = n.bumpLocalDstId.localDstId :=
    h.read (f := localDstId) fun _ ↦ rfl
  have hcfg : n'.bumpLocalDstId.cfg = n.bumpLocalDstId.cfg := h.read fun _ ↦ rfl
  dsimp only
  rw [hdst, hcfg]
  rcases n.bumpLocalDstId.localDstId with _ | dstId
  · exact .none
  obtain ⟨hfst, h⟩ := twin_createRoute h n.bumpLocalDstId.cfg.gMeshIp srcIp tos dstId
  change Option.Rel (TwinWith q) (Option.bind (some dstId) _) (Option.bind (some dstId) _)
  rw [Option.bind_some, Option.bind_some]
  generalize n.bumpLocalDstId.createRoute n.bumpLocalDstId.cfg.gMeshIp srcIp tos dstId = p at *
  generalize n'.bumpLocalDstId.createRoute n.bumpLocalDstId.cfg.gMeshIp srcIp tos dstId = p' at *
  obtain ⟨o, k⟩ := p
  obtain ⟨o', k'⟩ := p'
  have hfst : o' = o := hfst
  subst hfst
  rcases o' with _ | e
  · exact .some ⟨rfl, h⟩
  · exact .some ⟨rfl, twin_setLastHop (twin_setNextHop h _ _) _ _⟩

theorem twin_answerRrep (h : Twin q n n') (ptr : ℕ) (tos dttl : UInt8) :
    Option.Rel (Twin q) (n.answerRrep ptr tos dttl) (n'.answerRrep ptr tos dttl) := by
  have h := twin_bumpLocalDstId h
  have hdst : n'.bumpLocalDstId.localDstId = n.bumpLocalDstId.localDstId :=
    h.read (f := localDstId) fun _ ↦ rfl
  have hentry : n'.bumpLocalDstId.routing.entryAt ptr = n.bumpLocalDstId.routing.entryAt ptr :=
    h.read (f := (·.routing.entryAt ptr)) fun _ ↦ rfl
  have hjunk : Twin q { n.bumpLocalDstId with junk := n.bumpLocalDstId.junk.tail }
      { n'.bumpLocalDstId with junk := n'.bumpLocalDstId.junk.tail } := by
    obtain ⟨s, hs⟩ := h
    exact ⟨s, by rw [hs]⟩
  unfold answerRrep
  dsimp only
  refine rel_bind (rel_eq hdst) ?_
  rintro dstId _ rfl
  refine rel_bind (rel_eq hentry) ?_
  rintro src _ rfl
  have hmsg : newRrep src tos dttl dstId n'.bumpLocalDstId = newRrep src tos dttl dstId n.bumpLocalDstId :=
    h.read (f := newRrep src tos dttl dstId) fun _ ↦ rfl
  rw [hmsg]
  exact rel_bind (twin_rrepRoute hjunk ptr) fun k k' h ↦
    .some (twin_sendMessage (twin_setLastHop h _ _) _ _ _)

theorem twin_genRrep (h : Twin q n n') (srcIp dstIp : Ip) (tos : UInt8) :
    Option.Rel (Twin q) (n.genRrep srcIp dstIp tos) (n'.genRrep srcIp dstIp tos) := by
  unfold genRrep
  dsimp only
  obtain ⟨hfst, h⟩ := twin_alloc h
  rw [hfst]
  refine rel_ite Iff.rfl (.some h) ?_
  have hrouting : n'.alloc.2.routing = n.alloc.2.routing := h.read fun _ ↦ rfl
  rw [hrouting]
  rcases n.alloc.2.routing.findAodvRoute dstIp srcIp tos with _ | src
  · exact .some h
  obtain ⟨hfst, h⟩ := twin_alloc h
  have hdtn : n'.alloc.2.alloc.2.dtnRegister = n.alloc.2.alloc.2.dtnRegister := h.read fun _ ↦ rfl
  have hcfg : n'.alloc.2.alloc.2.cfg = n.alloc.2.alloc.2.cfg := h.read fun _ ↦ rfl
  dsimp only
  rw [hfst, hdtn, hcfg]
  refine rel_ite Iff.rfl (.some h) (twin_bind (twin_rrepRouteEntry h src srcIp dstIp tos)
    fun o k k' h ↦ ?_)
  rcases o with _ | src
  · exact .some h
  · exact twin_answerRrep h _ _ _

theorem twin_recvRrepSource (h : Twin q n n') (m : Rrep) (x : AodvNeigh) :
    Option.Rel (Twin q) (n.recvRrepSource m x) (n'.recvRrepSource m x) := by
  unfold recvRrepSource
  refine twin_bind (twin_rreqRoute (twin_updateTimers h) _ _ _ _ _ _ _) fun ok k k' h ↦ ?_
  have hrouting : k'.routing = k.routing := h.read fun _ ↦ rfl
  dsimp only
  rw [hrouting]
  have h := twin_removeTimer h m.srcIp m.dstIp m.tos .resendRreq
  rcases k.routing.findAodvRouteById m.dstIp m.dstId with _ | e
  · exact .some h
  refine rel_bind (twin_rrepRoute h e.ptr) fun k k' h ↦ ?_
  have hcfg : k'.cfg = k.cfg := h.read fun _ ↦ rfl
  rw [hcfg]
  have h : Twin q
      (if m.dttl > 0 then (k.setLastHop e.ptr k.cfg.gMeshIp).send2dtn reDtnHello m.dstIp m.x m.y 0
        else k.setLastHop e.ptr k.cfg.gMeshIp)
      (if m.dttl > 0 then (k'.setLastHop e.ptr k.cfg.gMeshIp).send2dtn reDtnHello m.dstIp m.x m.y 0
        else k'.setLastHop e.ptr k.cfg.gMeshIp) :=
    rel_ite Iff.rfl (twin_send2dtn (twin_setLastHop h _ _) _ _ _ _ _) (twin_setLastHop h _ _)
  generalize (if m.dttl > 0 then (k.setLastHop e.ptr k.cfg.gMeshIp).send2dtn _ _ _ _ _ else _) = k₁
    at h ⊢
  generalize (if m.dttl > 0 then (k'.setLastHop e.ptr k.cfg.gMeshIp).send2dtn _ _ _ _ _ else _) = k₁'
    at h ⊢
  have hfind : k₁'.findFirstBrkLinkWithDst m.dstIp = k₁.findFirstBrkLinkWithDst m.dstIp :=
    h.read (f := findFirstBrkLinkWithDst m.dstIp) fun _ ↦ rfl
  rw [hfind]
  exact .some (rel_ite Iff.rfl (twin_genRcvp h _) h)

theorem twin_rrepRecvRoute (h : Twin q n n') (m : Rrep) :
    Option.Rel (fun p p' ↦ p'.1 = p.1 ∧ TwinWith q p.2 p'.2) (n.rrepRecvRoute m) (n'.rrepRecvRoute m) := by
  have hcfg : n'.cfg = n.cfg := h.read fun _ ↦ rfl
  have hdtn : n'.dtnRegister = n.dtnRegister := h.read fun _ ↦ rfl
  have hrouting : n'.routing = n.routing := h.read fun _ ↦ rfl
  unfold rrepRecvRoute
  rw [hcfg, hdtn, hrouting]
  refine rel_ite Iff.rfl ?_ (.some ⟨rfl, rfl, h⟩)
  rcases n.routing.findAodvRoute n.cfg.dtnHelloIp m.srcIp m.tos with _ | old
  · exact .some ⟨rfl, rfl, h⟩
  obtain ⟨hfst, h⟩ := twin_createRoute h m.dstIp m.srcIp m.tos m.dstId
  generalize n.createRoute m.dstIp m.srcIp m.tos m.dstId = p at *
  generalize n'.createRoute m.dstIp m.srcIp m.tos m.dstId = p' at *
  obtain ⟨o, k⟩ := p
  obtain ⟨o', k'⟩ := p'
  have hfst : o' = o := hfst
  subst hfst
  rcases o' with _ | e
  · exact .none
  · exact .some ⟨rfl, rfl, twin_setNextHop (twin_setLastHop h _ _) _ _⟩

theorem twin_recvRrepForward (h : Twin q n n') (m : Rrep) (x : AodvNeigh) :
    Option.Rel (Twin q) (n.recvRrepForward m x) (n'.recvRrepForward m x) := by
  unfold recvRrepForward
  refine rel_bind (twin_rrepRecvRoute h m) ?_
  rintro ⟨recv, m, k⟩ ⟨recv', m', k'⟩ ⟨hrecv, hm, h⟩
  dsimp only at hrecv hm h
  subst hrecv hm
  rcases recv' with _ | recv
  · exact .some h
  refine twin_bind (twin_rreqRoute h _ _ _ _ _ _ _) fun ok k k' h ↦ ?_
  have hrouting : k'.routing = k.routing := h.read fun _ ↦ rfl
  dsimp only
  rw [hrouting]
  rcases k.routing.findAodvRouteById m'.dstIp m'.dstId with _ | send
  · exact .some h
  refine rel_bind (twin_rrepRoute h recv.ptr) fun k k' h ↦ ?_
  refine rel_bind (twin_rrepRoute h send.ptr) fun k k' h ↦ ?_
  have hentry : ∀ ptr, k'.routing.entryAt ptr = k.routing.entryAt ptr :=
    fun ptr ↦ h.read (f := (·.routing.entryAt ptr)) fun _ ↦ rfl
  refine rel_bind (rel_eq (hentry recv.ptr)) ?_
  rintro recv _ rfl
  refine rel_bind (rel_eq (hentry send.ptr)) ?_
  rintro send _ rfl
  exact .some (twin_sendMessage (twin_setLastHop (twin_setLastHop h _ _) _ _) _ _ _)

theorem twin_recvRrep (h : Twin q n n') (t : Task) (m : Rrep) :
    Option.Rel (Twin q) (n.recvRrep t m) (n'.recvRrep t m) := by
  have hfind : n'.findAodvNeigh t.srcIp = n.findAodvNeigh t.srcIp :=
    h.read (f := findAodvNeigh t.srcIp) fun _ ↦ rfl
  unfold recvRrep
  rw [hfind]
  rcases n.findAodvNeigh t.srcIp with _ | x
  · exact .some h
  have h := twin_updateNeighLifetime h x.ip
  have hcfg : (n'.updateNeighLifetime x.ip).cfg = (n.updateNeighLifetime x.ip).cfg :=
    h.read fun _ ↦ rfl
  dsimp only
  rw [hcfg]
  exact rel_ite Iff.rfl (twin_recvRrepSource h _ _) (twin_recvRrepForward h _ _)

end Rrep

section Hello

theorem twin_sendHello (h : Twin q n n') (ext : List HelloExtension) :
    Twin q (n.sendHello ext) (n'.sendHello ext) := by
  have hsent : ∀ {k k' : Node}, Twin q k k' → ∀ f : Node → Node,
      (∀ s, f { k with tasks := q, sent := s } = { f k with tasks := q, sent := s }) → Twin q (f k) (f k') := by
    rintro k _ ⟨s, rfl⟩ f hf
    exact ⟨s, hf s⟩
  unfold sendHello
  dsimp only
  obtain ⟨hfst, h⟩ := twin_alloc h
  rw [hfst]
  refine rel_ite Iff.rfl h ?_
  have hhello : helloOf ext n'.alloc.2 = helloOf ext n.alloc.2 := h.read (f := helloOf ext) fun _ ↦ rfl
  rw [hhello]
  obtain ⟨hrand, h⟩ := twin_getRandom (twin_localBroadcast h 1 (.hello (helloOf ext n.alloc.2)))
  generalize (n.alloc.2.localBroadcast 1 _).getRandom = p at *
  generalize (n'.alloc.2.localBroadcast 1 _).getRandom = p' at *
  obtain ⟨rand, k⟩ := p
  obtain ⟨rand', k'⟩ := p'
  have hrand : rand' = rand := hrand
  subst hrand
  obtain ⟨s, rfl⟩ := h
  exact rel_ite Iff.rfl (rel_ite Iff.rfl ⟨s, rfl⟩ ⟨s, rfl⟩) ⟨s, rfl⟩

theorem twin_helloExtensions (l : List AodvNeigh) (ext : List HelloExtension) (h : Twin q n n') :
    TwinWith q (helloExtensions l ext n) (helloExtensions l ext n') := by
  induction l generalizing ext n n' with
  | nil => exact ⟨rfl, h⟩
  | cons x l ih =>
    unfold helloExtensions
    obtain ⟨hfst, h⟩ := twin_alloc h
    dsimp only
    rw [hfst]
    exact rel_ite Iff.rfl ⟨rfl, h⟩ (ih _ h)

theorem twin_genHello (h : Twin q n n') : Twin q n.genHello n'.genHello := by
  have hcfg : n'.cfg = n.cfg := h.read fun _ ↦ rfl
  have hlist : n'.aodvNeighList = n.aodvNeighList := h.read fun _ ↦ rfl
  unfold genHello
  rw [hcfg, hlist]
  refine rel_ite Iff.rfl ?_ (twin_sendHello h [])
  obtain ⟨hfst, h⟩ := twin_helloExtensions n.aodvNeighList [] h
  generalize helloExtensions n.aodvNeighList [] n = p at *
  generalize helloExtensions n.aodvNeighList [] n' = p' at *
  obtain ⟨o, k⟩ := p
  obtain ⟨o', k'⟩ := p'
  have hfst : o' = o := hfst
  subst hfst
  rcases o' with _ | ext
  · exact h
  · exact twin_sendHello h ext

theorem twin_recoverLinks (ip : Ip) (l : List BrkLink) (h : Twin q n n') :
    Option.Rel (Twin q) (recoverLinks ip l n) (recoverLinks ip l n') := by
  induction l generalizing n n' with
  | nil => exact .some h
  | cons x l ih =>
    have hover : n'.isOverlappedWithRoute x = n.isOverlappedWithRoute x :=
      h.read (f := isOverlappedWithRoute x) fun _ ↦ rfl
    have hcfg : n'.cfg = n.cfg := h.read fun _ ↦ rfl
    unfold recoverLinks
    rw [hover, hcfg]
    exact rel_ite Iff.rfl (rel_ite Iff.rfl (.some (twin_genRcvp h ip))
      (rel_bind (twin_genRreq h _ _ _) fun _ _ h ↦ ih h)) (ih h)

theorem twin_redirectRoutes (l : List AodvRoute) (h : Twin q n n') :
    Twin q (redirectRoutes l n) (redirectRoutes l n') := by
  induction l generalizing n n' with
  | nil => exact h
  | cons e l ih =>
    have hcfg : ∀ {k k' : Node}, Twin q k k' → k'.cfg = k.cfg := fun h ↦ h.read fun _ ↦ rfl
    have hdtn : ∀ {k k' : Node}, Twin q k k' → k'.dtnRegister = k.dtnRegister := fun h ↦ h.read fun _ ↦ rfl
    unfold redirectRoutes
    refine rel_ite Iff.rfl h (ih ?_)
    have h₁ : Twin q
        (if e.srcIp ≠ e.dstIp ∧ e.srcIp ≠ n.cfg.gMeshIp then n.genRrdp e.srcIp e.dstIp e.lastHop e.tos
          else n)
        (if e.srcIp ≠ e.dstIp ∧ e.srcIp ≠ n'.cfg.gMeshIp then n'.genRrdp e.srcIp e.dstIp e.lastHop e.tos
          else n') :=
      rel_ite (by rw [hcfg h]) (twin_genRrdp h _ _ _ _) h
    exact rel_ite (by rw [hcfg h₁, hdtn h₁]) (twin_send2dtn h₁ _ _ _ _ _) h₁

theorem twin_takeNeigh2h (h : Twin q n n') (ip : Ip) :
    (n'.takeNeigh2h ip).1 = (n.takeNeigh2h ip).1 ∧
      TwinWith q (n.takeNeigh2h ip).2 (n'.takeNeigh2h ip).2 := by
  have hfind : n'.findAodvNeigh2h ip = n.findAodvNeigh2h ip :=
    h.read (f := findAodvNeigh2h ip) fun _ ↦ rfl
  unfold takeNeigh2h
  rw [hfind]
  rcases n.findAodvNeigh2h ip with _ | y
  · exact ⟨rfl, rfl, h⟩
  · exact ⟨rfl, rfl, twin_deleteAodvNeigh2h h _⟩

theorem twin_newHelloNeigh (h : Twin q n n') (ip : Ip) :
    Option.Rel (TwinWith q) (n.newHelloNeigh ip) (n'.newHelloNeigh ip) := by
  obtain ⟨hload, hseq, h⟩ := twin_takeNeigh2h h ip
  unfold newHelloNeigh
  dsimp only
  rw [hload, hseq]
  refine twin_bind (twin_createAodvNeigh h ip) fun ok k k' h ↦ ?_
  have hbrk : k'.brkList = k.brkList := h.read fun _ ↦ rfl
  dsimp only
  rw [hbrk]
  refine rel_ite Iff.rfl (.some ⟨rfl, h⟩) (rel_bind (twin_recoverLinks ip _ h) fun k k' h ↦ ?_)
  have hrouting : k'.routing = k.routing := h.read fun _ ↦ rfl
  rw [hrouting]
  exact .some ⟨rfl, twin_modifyNeigh (twin_redirectRoutes _ h) _ _⟩

theorem twin_recvHelloExtensions (orig : Ip) (m : Hello) (l : List HelloExtension) (h : Twin q n n') :
    Twin q (recvHelloExtensions orig m l n) (recvHelloExtensions orig m l n') := by
  have hcfg : ∀ {k k' : Node}, Twin q k k' → k'.cfg = k.cfg := fun h ↦ h.read fun _ ↦ rfl
  induction l generalizing n n' with
  | nil => exact h
  | cons ext l ih =>
    have hext : Twin q (n.recvHelloExtension orig m ext) (n'.recvHelloExtension orig m ext) := by
      have hfind : n'.findAodvNeigh ext.ip = n.findAodvNeigh ext.ip :=
        h.read (f := findAodvNeigh ext.ip) fun _ ↦ rfl
      unfold recvHelloExtension
      dsimp only
      rw [hfind]
      rcases n.findAodvNeigh ext.ip with _ | x
      · exact twin_modifyNeigh (twin_modifyNeigh2h (twin_refreshNeigh2h h _) _ _) _ _
      · exact twin_modifyNeigh (twin_modifyNeigh h _ _) _ _
    unfold recvHelloExtensions
    dsimp only
    rw [hcfg h]
    have h₁ := twin_modifyNeigh h orig fun x ↦ { x with etx := { x.etx with sendEtx := ext.count } }
    refine rel_ite Iff.rfl ?_ (ih (rel_ite Iff.rfl hext h))
    exact rel_ite (by rw [hcfg h₁]) h₁ (ih h₁)

theorem twin_helloFromNeigh (h : Twin q n n') (ip : Ip) (m : Hello) :
    Twin q (n.helloFromNeigh ip m) (n'.helloFromNeigh ip m) := by
  have hcfg : ∀ {k k' : Node}, Twin q k k' → k'.cfg = k.cfg := fun h ↦ h.read fun _ ↦ rfl
  have h₁ := twin_updateNeighLifetime h ip
  have h₂ := twin_modifyNeigh h₁ ip fun x ↦ { x with etx := { x.etx with count := x.etx.count + 1 } }
  unfold helloFromNeigh
  refine rel_ite (by rw [hcfg h₁]) h₁ (twin_recvHelloExtensions ip m m.ext ?_)
  exact rel_ite (by rw [hcfg h₂]) (twin_modifyNeigh h₂ _ _) h₂

theorem twin_recvHello (h : Twin q n n') (t : Task) (m : Hello) :
    Option.Rel (Twin q) (n.recvHello t m) (n'.recvHello t m) := by
  have hcfg : n'.cfg = n.cfg := h.read fun _ ↦ rfl
  have hfind : n'.findAodvNeigh t.srcIp = n.findAodvNeigh t.srcIp :=
    h.read (f := findAodvNeigh t.srcIp) fun _ ↦ rfl
  unfold recvHello
  rw [hcfg, hfind]
  refine rel_ite Iff.rfl (.some h) ?_
  rcases n.findAodvNeigh t.srcIp with _ | x
  · refine twin_bind (twin_newHelloNeigh h t.srcIp) fun ok k k' h ↦ .some ?_
    exact rel_ite Iff.rfl (twin_helloFromNeigh h _ _) h
  · exact .some (twin_helloFromNeigh h _ _)

end Hello

section Ett

theorem twin_resetEtt (h : Twin q n n') (ip : Ip) :
    Option.Rel (Twin q) (n.resetEtt ip) (n'.resetEtt ip) := by
  unfold resetEtt
  obtain ⟨s, rfl⟩ := h
  exact twin_genRerr ⟨s, rfl⟩ ip

theorem twin_sendEttInfo (h : Twin q n n') (ip : Ip) (myRate : UInt16) (fixed : UInt8) :
    Twin q (n.sendEttInfo ip myRate fixed) (n'.sendEttInfo ip myRate fixed) := by
  unfold sendEttInfo
  obtain ⟨hfst, h⟩ := twin_alloc h
  have hfind : n'.alloc.2.findAodvNeigh ip = n.alloc.2.findAodvNeigh ip :=
    h.read (f := findAodvNeigh ip) fun _ ↦ rfl
  dsimp only
  rw [hfst, hfind]
  refine rel_ite Iff.rfl h ?_
  rcases n.alloc.2.findAodvNeigh ip with _ | x
  · exact h
  · exact twin_sendMessage h _ _ _

theorem twin_retryEstimation (h : Twin q n n') (ip : Ip) (ett : EttParams) :
    Option.Rel (Twin q) (n.retryEstimation ip ett) (n'.retryEstimation ip ett) :=
  rel_ite Iff.rfl (twin_resetEtt h ip) (.some (twin_modifyNeigh h _ _))

theorem twin_useEstimation (h : Twin q n n') (ip : Ip) (ett : EttParams) (recvDelay : UInt32) :
    Option.Rel (Twin q) (n.useEstimation ip ett recvDelay) (n'.useEstimation ip ett recvDelay) := by
  unfold useEstimation
  refine rel_ite Iff.rfl (rel_bind (twin_retryEstimation h ip ett) fun k k' h ↦ ?_)
    (rel_ite Iff.rfl (.some (twin_modifyNeigh h _ _)) (rel_ite Iff.rfl (twin_resetEtt h ip) ?_))
  · refine rel_bind (rel_eq (h.read (f := findAodvNeigh ip) fun _ ↦ rfl)) ?_
    rintro x _ rfl
    exact .some (twin_sendEttInfo h _ _ _)
  · refine rel_bind (rel_eq rfl) ?_
    rintro rate _ rfl
    exact .some (twin_sendEttInfo (twin_modifyNeigh (twin_modifyNeigh h _ _) _ _) _ _ _)

theorem twin_computeEstimation (h : Twin q n n') (ip : Ip) :
    Option.Rel (Twin q) (n.computeEstimation ip) (n'.computeEstimation ip) := by
  unfold computeEstimation
  refine rel_bind (rel_eq (h.read (f := findAodvNeigh ip) fun _ ↦ rfl)) ?_
  rintro x _ rfl
  exact rel_ite Iff.rfl (.some (twin_modifyNeigh h _ _))
    (twin_useEstimation (twin_modifyNeigh (twin_modifyNeigh h _ _) _ _) _ _ _)

theorem twin_sendRateProbe (h : Twin q n n') (x : AodvNeigh) :
    TwinWith q (n.sendRateProbe x) (n'.sendRateProbe x) := by
  have hcfg : n'.cfg = n.cfg := h.read fun _ ↦ rfl
  have hpair : ∀ {k k' : Node} (s : SProbe) (l : LProbe), Twin q k k' →
      Twin q (k.sendEttProbe x.ip s l) (k'.sendEttProbe x.ip s l) := by
    rintro k _ s l ⟨sent, rfl⟩
    exact rel_ite Iff.rfl ⟨sent, rfl⟩ ⟨_, rfl⟩
  unfold sendRateProbe
  rw [hcfg]
  refine rel_ite Iff.rfl ⟨rfl, twin_sendEttInfo h _ _ _⟩ ?_
  obtain ⟨hfst, h⟩ := twin_alloc h
  dsimp only
  rw [hfst]
  refine rel_ite Iff.rfl ⟨rfl, h⟩ ?_
  obtain ⟨hfst, h⟩ := twin_alloc h
  have hcount : n'.alloc.2.alloc.2.countSend = n.alloc.2.alloc.2.countSend := h.read fun _ ↦ rfl
  have hcfg : n'.alloc.2.alloc.2.cfg = n.alloc.2.alloc.2.cfg := h.read fun _ ↦ rfl
  rw [hfst, hcount, hcfg]
  exact rel_ite Iff.rfl ⟨rfl, h⟩ ⟨rfl, hpair _ _ h⟩

theorem twin_sendProbe (h : Twin q n n') (ip : Ip) : Twin q (n.sendProbe ip) (n'.sendProbe ip) := by
  have hfind : n'.findAodvNeigh ip = n.findAodvNeigh ip := h.read (f := findAodvNeigh ip) fun _ ↦ rfl
  unfold sendProbe
  rw [hfind]
  rcases n.findAodvNeigh ip with _ | x
  · exact h
  have hcount : Twin q { n with countSend := n.nextCountSend } { n' with countSend := n'.nextCountSend } := by
    obtain ⟨s, rfl⟩ := h
    exact ⟨s, rfl⟩
  obtain ⟨hok, h⟩ := twin_sendRateProbe hcount x
  dsimp only
  rw [hok]
  exact rel_ite Iff.rfl (twin_updateTimers (twin_insertTimer h _ _ _)) h

theorem twin_recvSprobe (h : Twin q n n') (t : Task) (m : SProbe) :
    Twin q (n.recvSprobe t m) (n'.recvSprobe t m) := by
  have hfind : n'.findAodvNeigh t.srcIp = n.findAodvNeigh t.srcIp :=
    h.read (f := findAodvNeigh t.srcIp) fun _ ↦ rfl
  unfold recvSprobe
  rw [hfind]
  rcases n.findAodvNeigh t.srcIp with _ | x
  · exact h
  · exact twin_modifyNeigh h _ _

theorem twin_reloadEttCleanup (h : Twin q n n') (ip : Ip) :
    Twin q (n.reloadEttCleanup ip) (n'.reloadEttCleanup ip) :=
  twin_updateTimers (twin_insertTimer (twin_removeTimer h _ _ _ _) _ _ _)

theorem rel_map {x x' : Option Node} (h : Option.Rel (Twin q) x x') {f : Node → Node}
    (hf : ∀ k k', Twin q k k' → Twin q (f k) (f k')) : Option.Rel (Twin q) (x.map f) (x'.map f) := by
  cases h with
  | none => exact .none
  | some h => exact .some (hf _ _ h)

theorem twin_recvLprobe (h : Twin q n n') (t : Task) (m : LProbe) :
    Option.Rel (Twin q) (n.recvLprobe t m) (n'.recvLprobe t m) := by
  have hfind : n'.findAodvNeigh t.srcIp = n.findAodvNeigh t.srcIp :=
    h.read (f := findAodvNeigh t.srcIp) fun _ ↦ rfl
  unfold recvLprobe
  rw [hfind]
  rcases n.findAodvNeigh t.srcIp with _ | x
  · exact .some h
  have h := twin_updateNeighLifetime h t.srcIp
  refine rel_ite Iff.rfl (.some h) (rel_map ?_ fun _ _ h ↦ twin_modifyNeigh h _ _)
  have h := twin_modifyNeigh (twin_reloadEttCleanup h t.srcIp) t.srcIp fun x ↦
    { x with ett := { x.ett with measDelay := probeDelay x.ett m }, recvRate := m.myRate }
  have hcfg : (((n'.updateNeighLifetime t.srcIp).reloadEttCleanup t.srcIp).modifyNeigh t.srcIp fun x ↦
      { x with ett := { x.ett with measDelay := probeDelay x.ett m }, recvRate := m.myRate }).cfg =
      (((n.updateNeighLifetime t.srcIp).reloadEttCleanup t.srcIp).modifyNeigh t.srcIp fun x ↦
      { x with ett := { x.ett with measDelay := probeDelay x.ett m }, recvRate := m.myRate }).cfg :=
    h.read fun _ ↦ rfl
  exact rel_ite (by rw [hcfg]) (twin_computeEstimation (twin_modifyNeigh h _ _) _) (.some h)

theorem twin_recvEttInfo (h : Twin q n n') (t : Task) (m : EttInfo) :
    Option.Rel (Twin q) (n.recvEttInfo t m) (n'.recvEttInfo t m) := by
  have hfind : n'.findAodvNeigh t.srcIp = n.findAodvNeigh t.srcIp :=
    h.read (f := findAodvNeigh t.srcIp) fun _ ↦ rfl
  have hcfg : ∀ {k k' : Node}, Twin q k k' → k'.cfg = k.cfg := fun h ↦ h.read fun _ ↦ rfl
  unfold recvEttInfo
  rw [hfind]
  rcases n.findAodvNeigh t.srcIp with _ | x
  · exact .some h
  have h₁ := twin_modifyNeigh (twin_updateNeighLifetime h t.srcIp) t.srcIp fun x ↦
    { x with recvRate := m.myRate }
  refine rel_map (rel_ite Iff.rfl ?_ (.some h₁)) fun _ _ h ↦ twin_modifyNeigh h _ _
  have h₂ := twin_modifyNeigh (twin_reloadEttCleanup (twin_modifyNeigh h₁ t.srcIp
    (updateEtt fun e ↦ { e with fixedRate := 1 })) t.srcIp) t.srcIp
    (updateEtt (delayVectorAdd m.lastMeasDelay))
  exact rel_ite (by rw [hcfg h₂]) (twin_computeEstimation h₂ _) (.some h₂)

end Ett

section StRreq

theorem twin_updateGw (h : Twin q n n') (gwIp : Ip) (dstId : UInt32) (numHops : UInt8)
    (pathMetric : UInt32) :
    TwinWith q (n.updateGw gwIp dstId numHops pathMetric) (n'.updateGw gwIp dstId numHops pathMetric) := by
  obtain ⟨s, rfl⟩ := h
  unfold updateGw
  dsimp only
  split
  · exact rel_ite (R := TwinWith q) Iff.rfl ⟨rfl, s, rfl⟩
      (rel_ite (R := TwinWith q) Iff.rfl ⟨rfl, s, rfl⟩ ⟨rfl, s, rfl⟩)
  · exact rel_ite (R := TwinWith q) Iff.rfl ⟨rfl, s, rfl⟩ ⟨rfl, s, rfl⟩

theorem twin_genStRreq (h : Twin q n n') : Option.Rel (Twin q) n.genStRreq n'.genStRreq := by
  have hcfg : ∀ {k k' : Node}, Twin q k k' → k'.cfg = k.cfg := fun h ↦ h.read fun _ ↦ rfl
  unfold genStRreq
  rw [hcfg h]
  refine rel_ite Iff.rfl (.some h) ?_
  obtain ⟨hfst, h⟩ := twin_alloc h
  have hrouting : n'.alloc.2.routing = n.alloc.2.routing := h.read fun _ ↦ rfl
  dsimp only
  rw [hfst, hrouting, hcfg h]
  refine rel_ite Iff.rfl (.some h) ?_
  rcases n.alloc.2.routing.findAodvRoute n.alloc.2.cfg.gMeshIp n.alloc.2.cfg.gMeshIp 0 with _ | e
  · exact .some h
  generalize n'.alloc.2 = k' at h
  obtain ⟨s, rfl⟩ := h
  exact .some ⟨_, rfl⟩

theorem twin_recvRreqSt (h : Twin q n n') (t : Task) (m : RreqSt) :
    Twin q (n.recvRreqSt t m) (n'.recvRreqSt t m) := by
  have hfind : n'.findAodvNeigh t.srcIp = n.findAodvNeigh t.srcIp :=
    h.read (f := findAodvNeigh t.srcIp) fun _ ↦ rfl
  unfold recvRreqSt
  rw [hfind]
  rcases n.findAodvNeigh t.srcIp with _ | x
  · exact h
  have h := twin_updateNeighLifetime h x.ip
  have hcfg : (n'.updateNeighLifetime x.ip).cfg = (n.updateNeighLifetime x.ip).cfg :=
    h.read fun _ ↦ rfl
  dsimp only
  rw [hcfg]
  refine rel_ite Iff.rfl h ?_
  generalize (if (n.updateNeighLifetime x.ip).cfg.gRoutingMetric = .hops then _ else _) = pathMetric
  rcases pathMetric with _ | pathMetric
  · exact h
  obtain ⟨hok, h⟩ := twin_updateGw h m.gwIp m.dstId (m.numHops + 1) pathMetric
  dsimp only
  rw [hok]
  exact rel_ite Iff.rfl (twin_localBroadcast h _ _) h

end StRreq

section Thread

theorem twin_flushRoutes (h : Twin q n n') : Twin q n.flushRoutes n'.flushRoutes := by
  obtain ⟨s, rfl⟩ := h
  exact ⟨s, rfl⟩

/-- No handler looks at the tasks that wait or at what has been sent. -/
theorem twin_handle (h : Twin q n n') (t : Task) :
    Option.Rel (Twin q) (n.handle t) (n'.handle t) := by
  have hcfg : n'.cfg = n.cfg := h.read fun _ ↦ rfl
  unfold handle
  split
  · rw [hcfg]
    exact twin_genRreq h _ _ _
  · exact twin_recvRrep h _ _
  · exact twin_recvRerr h _ _
  · exact twin_recvHello h _ _
  · exact .some (twin_recvRcvp h _)
  · exact .some (twin_recvRrdp h _ _)
  · exact .some (twin_flushRoutes h)
  · exact .some (twin_genHello h)
  · exact twin_genStRreq h
  · obtain ⟨s, rfl⟩ := h
    exact .some ⟨s, rfl⟩
  · exact twin_deleteAodvNeigh h _
  · exact .some (twin_flushRoutes h)
  · exact .some (twin_sendProbe h _)
  · exact .some (twin_recvSprobe h _ _)
  · exact twin_recvLprobe h _ _
  · refine rel_bind (rel_eq (h.read (f := findAodvNeigh t.srcIp) fun _ ↦ rfl)) ?_
    rintro x _ rfl
    exact twin_resetEtt h _
  · exact .some (twin_deleteAodvNeigh2h h _)
  · exact twin_recvRreq h _ _
  · exact twin_resendRreq h _
  · exact twin_recvEttInfo h _ _
  · exact twin_genRrep h _ _ _
  · exact .some (twin_recvRreqSt h _ _)
  · exact .some (twin_updateMyLoad h)
  · exact twin_genRreq h _ _ _
  · exact .some h

theorem handle_tasks {t : Task} (h : n.handle t = some n') : n'.tasks = n.tasks := by
  obtain ⟨k, hk, s, hs⟩ := rel_some (twin_handle (.self n) t) h
  obtain rfl : n' = k := Option.some.inj (h.symm.trans hk)
  rw [hs]

end Thread

section Hooks

theorem twin_dtnInput (h : Twin q n n') (p : Packet) : Twin q (n.dtnInput p) (n'.dtnInput p) := by
  have hcfg : ∀ {k k' : Node}, Twin q k k' → k'.cfg = k.cfg := fun h ↦ h.read fun _ ↦ rfl
  have hdtn : ∀ {k k' : Node}, Twin q k k' → k'.dtnRegister = k.dtnRegister :=
    fun h ↦ h.read fun _ ↦ rfl
  have h₁ : Twin q
      (if !n.dtnRegister && p.udpDest == dtnRegisterPort then { n with dtnRegister := true } else n)
      (if !n'.dtnRegister && p.udpDest == dtnRegisterPort then { n' with dtnRegister := true } else n') := by
    rw [hdtn h]
    refine rel_ite Iff.rfl ?_ h
    obtain ⟨s, rfl⟩ := h
    exact ⟨s, rfl⟩
  unfold dtnInput
  dsimp only
  generalize (if (!n.dtnRegister && p.udpDest == dtnRegisterPort) = true then _ else n) = k at h₁ ⊢
  generalize (if (!n'.dtnRegister && p.udpDest == dtnRegisterPort) = true then _ else n') = k' at h₁ ⊢
  have h₂ : Twin q
      (if k.dtnRegister && p.udpDest == getDtnHello then
        (k.insertTimer .dtnHello 0 k.cfg.gMeshIp).updateTimers else k)
      (if k'.dtnRegister && p.udpDest == getDtnHello then
        (k'.insertTimer .dtnHello 0 k'.cfg.gMeshIp).updateTimers else k') := by
    rw [hdtn h₁, hcfg h₁]
    exact rel_ite Iff.rfl (twin_updateTimers (twin_insertTimer h₁ _ _ _)) h₁
  generalize (if (k.dtnRegister && p.udpDest == getDtnHello) = true then _ else k) = j at h₂ ⊢
  generalize (if (k'.dtnRegister && p.udpDest == getDtnHello) = true then _ else k') = j' at h₂ ⊢
  rw [hdtn h₂, hcfg h₂]
  refine rel_ite Iff.rfl (twin_updateTimers (twin_insertTimerDir ?_ _ _ _ _ _ _)) h₂
  obtain ⟨s, rfl⟩ := h₂
  exact ⟨s, rfl⟩

end Hooks

end Fbaodv.Proofs.TwinRuns
