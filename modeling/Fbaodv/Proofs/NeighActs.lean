import Fbaodv.Proofs.Upkeep

namespace Fbaodv.Proofs.NeighActs

open Fbaodv.Model Fbaodv.Model.Node Fbaodv.Foundation
open Fbaodv.Proofs.RouteEffects (useEstimation_cases)
open Fbaodv.Proofs.RouteFrame Fbaodv.Proofs.RoutingInvariant Fbaodv.Proofs.Background
open Fbaodv.Proofs.NodeRun Fbaodv.Proofs.Upkeep Relation

/-- The tasks that estimate the transmission time of a link. -/
def isProbeType (type : TaskType) : Bool :=
  type == .sendEtt || type == .ettCleanup || type == .recvLEtt || type == .ettInfo

/-- The timer that a task of the node's own work sets again. -/
def renewedBy : TaskType → Option TaskType
  | .hello => some .hello
  | .cleanup | .routeCleanup => some .cleanup
  | .gwCleanup => some .gwCleanup
  | .st => some .st
  | _ => none

/-- The handler of the task goes on to refresh the sender if that is a
neighbour. -/
def refreshes (t : Task) (n : Node) : Bool :=
  match t.type, t.data with
  | .recvRrep, some (.rrep _) => true
  | .recvRreq, some (.rreq m) => !(t.ttl ≤ 1 && !n.iamDestination m)
  | .recvStrreq, some (.strreq _) => true
  | .recvLEtt, some (.lprobe _) => true
  | .ettInfo, some (.ettInfo _) => true
  | .recvHello, some (.hello _) => !n.cfg.aodvBlacklistIp.contains t.srcIp
  | _, _ => false

/-- What the task `t`, which found the node as `n₀`, does to the neighbour tables
in one go. -/
inductive NeighAct (n₀ : Node) (t : Task) : Node → Node → Prop
  | same {n n' : Node} (h : NeighSame n n') : NeighAct n₀ t n n'
  | refresh {n : Node} (h : HasNeigh t.srcIp n) (hrefresh : refreshes t n₀ = true) :
      NeighAct n₀ t n (n.updateNeighLifetime t.srcIp)
  | arm {n : Node} (htype : isProbeType t.type = true) (h : HasNeigh t.srcIp n) :
      NeighAct n₀ t n (n.insertTimer .ettCleanup ettCleanupDelay t.srcIp)
  | rearm {n : Node} (htype : isProbeType t.type = true) (h : HasNeigh t.srcIp n) :
      NeighAct n₀ t n (n.reloadEttCleanup t.srcIp)
  | stop {n : Node} (htype : isProbeType t.type = true) :
      NeighAct n₀ t n (n.removeTimer t.srcIp t.srcIp noTos .sendEtt)
  | probe {n : Node} {delay : ℕ} {ip : Ip} (htype : isProbeType t.type = true) :
      NeighAct n₀ t n (n.insertTimer .sendEtt delay ip)
  | renew {n : Node} {type : TaskType} {delay : ℕ} {ip : Ip} (htype : renewedBy t.type = some type) :
      NeighAct n₀ t n (n.insertTimer type delay ip)
  | meet {n' : Node} {ok : Bool} (htype : t.type = .recvHello)
      (hblack : n₀.cfg.aodvBlacklistIp.contains t.srcIp = false)
      (hnone : n₀.findAodvNeigh t.srcIp = none)
      (h : (n₀.takeNeigh2h t.srcIp).2.2.createAodvNeigh t.srcIp = some (ok, n'))
      (hrefresh : refreshes t n₀ = true) : NeighAct n₀ t n₀ n'
  | lose (htype : t.type = .neighbor) (h : HasNeigh t.srcIp n₀) :
      NeighAct n₀ t n₀ (n₀.unlinkNeigh t.srcIp)
  | lose2h (htype : t.type = .neighbor2h) : NeighAct n₀ t n₀ (n₀.deleteAodvNeigh2h t.srcIp)
  | takeLoad {n : Node} :
      NeighAct n₀ t n (n.modifyNeigh t.srcIp fun x ↦ { x with loadMetric := { x.loadMetric with
        load := (n₀.takeNeigh2h t.srcIp).1, loadSeq := (n₀.takeNeigh2h t.srcIp).2.1 } })
  | ownLoad {n : Node} {m : Hello} (hdata : t.data = some (.hello m)) :
      NeighAct n₀ t n (n.modifyNeigh t.srcIp (updateNeighLoad m.load m.loadSeq))
  | extLoad {n : Node} {m : Hello} {ext : HelloExtension} (hdata : t.data = some (.hello m))
      (hext : ext ∈ m.ext) (hip : ext.ip ≠ n.cfg.gMeshIp) :
      NeighAct n₀ t n (n.modifyNeigh ext.ip (updateNeighLoad m.load m.loadSeq))
  | refresh2h {n : Node} {m : Hello} {ext : HelloExtension} (hdata : t.data = some (.hello m))
      (hext : ext ∈ m.ext) (hip : ext.ip ≠ n.cfg.gMeshIp) (hnone : n.findAodvNeigh ext.ip = none)
      (hrefresh : refreshes t n₀ = true) (hwcim : n.cfg.gRoutingMetric = .wcim) (h : HasNeigh t.srcIp n) :
      NeighAct n₀ t n (n.refreshNeigh2h ext.ip)
  | extLoad2h {n : Node} {m : Hello} {ext : HelloExtension} (hdata : t.data = some (.hello m))
      (hext : ext ∈ m.ext) (hip : ext.ip ≠ n.cfg.gMeshIp) :
      NeighAct n₀ t n (n.modifyNeigh2h ext.ip (updateNeighLoad2h m.load m.loadSeq))
  | neightx {n : Node} {m : Hello} {ext : HelloExtension} (hdata : t.data = some (.hello m))
      (hext : ext ∈ m.ext) (hip : ext.ip ≠ n.cfg.gMeshIp) :
      NeighAct n₀ t n (n.modifyNeigh t.srcIp (updateNeightx ext.ip))

/-- A task as a sequence of such acts. -/
def Acts (n₀ : Node) (t : Task) : Node → Node → Prop := ReflTransGen (NeighAct n₀ t)

section Frames

theorem updateNeighLoad_ip (load : UInt8) (loadSeq : UInt16) (x : AodvNeigh) :
    (updateNeighLoad load loadSeq x).ip = x.ip := by
  unfold updateNeighLoad
  split <;> rfl

theorem updateNeighLoad2h_ip (load : UInt8) (loadSeq : UInt16) (y : AodvNeigh2h) :
    (updateNeighLoad2h load loadSeq y).ip = y.ip := by
  unfold updateNeighLoad2h
  split <;> rfl

theorem updateNeightx_ip (neightx : Ip) (x : AodvNeigh) : (updateNeightx neightx x).ip = x.ip := by
  unfold updateNeightx
  dsimp only
  split
  · rfl
  split <;> rfl

theorem takeNeigh2h_frame (ip : Ip) (n : Node) : (n.takeNeigh2h ip).2.2.cfg = n.cfg ∧
    (n.takeNeigh2h ip).2.2.aodvNeighList = n.aodvNeighList := by
  unfold takeNeigh2h deleteAodvNeigh2h
  split
  · dsimp only
    split
    · exact ⟨rfl, rfl⟩
    · exact ⟨rfl, rfl⟩
  · exact ⟨rfl, rfl⟩

theorem refreshNeigh2h_frame (ip : Ip) (n : Node) : (n.refreshNeigh2h ip).cfg = n.cfg ∧
    (n.refreshNeigh2h ip).aodvNeighList = n.aodvNeighList := by
  unfold refreshNeigh2h createAodvNeigh2h
  split
  · dsimp only
    split
    · exact ⟨rfl, rfl⟩
    split
    · exact ⟨rfl, rfl⟩
    · exact ⟨rfl, rfl⟩
  · exact ⟨rfl, rfl⟩

theorem deleteAodvNeigh2h_frame (ip : Ip) (n : Node) : (n.deleteAodvNeigh2h ip).cfg = n.cfg ∧
    (n.deleteAodvNeigh2h ip).aodvNeighList = n.aodvNeighList := by
  unfold deleteAodvNeigh2h
  split
  · exact ⟨rfl, rfl⟩
  · exact ⟨rfl, rfl⟩

theorem deleteAodvNeigh2h_list (ip : Ip) (n : Node) : (n.deleteAodvNeigh2h ip).now = n.now ∧
    (n.deleteAodvNeigh2h ip).aodvNeighList2h = n.aodvNeighList2h.eraseP fun y ↦ y.ip == ip := by
  unfold deleteAodvNeigh2h
  split
  · exact ⟨rfl, rfl⟩
  · next hany =>
    refine ⟨rfl, (List.eraseP_of_forall_not fun y hy hip ↦ hany ?_).symm⟩
    exact List.any_eq_true.mpr ⟨y, hy, hip⟩

theorem unlinkNeigh_frame (ip : Ip) (n : Node) : (n.unlinkNeigh ip).cfg = n.cfg ∧
    (n.unlinkNeigh ip).aodvNeighList = n.aodvNeighList.eraseP (fun x ↦ x.ip == ip) ∧
    (n.unlinkNeigh ip).aodvNeighList2h = n.aodvNeighList2h := by
  unfold unlinkNeigh
  dsimp only
  split
  · exact ⟨rfl, rfl, rfl⟩
  · exact ⟨rfl, rfl, rfl⟩

end Frames

section Handlers

variable {n₀ n n' : Node} {t : Task}

theorem acts_of_same (h : NeighSame n n') : Acts n₀ t n n' := .single (.same h)

theorem acts_of_steady {P : Sent → Prop} (h : Steady P n n') : Acts n₀ t n n' :=
  acts_of_same (neighSame_of_steady h)

theorem acts_of_renews {type : TaskType} {ip : Ip} (htype : renewedBy t.type = some type)
    (h : Renews type ip n n') : Acts n₀ t n n' := by
  obtain ⟨n₁, delay, h₁, h₂⟩ := h
  exact .head (.same h₁) (.head (.renew htype) (acts_of_same h₂))

theorem hasNeigh_of_find {x : AodvNeigh} (h : n.findAodvNeigh t.srcIp = some x) :
    HasNeigh t.srcIp n ∧ x.ip = t.srcIp := by
  obtain ⟨hx, hip⟩ := OrderedList.findWhile_mem h
  have hip : x.ip = t.srcIp := by simpa using hip
  exact ⟨⟨x, hx, hip⟩, hip⟩

theorem hasNeigh_modifyNeigh {ip ip' : Ip} {f : AodvNeigh → AodvNeigh} (h : ∀ x, (f x).ip = x.ip)
    (hn : HasNeigh ip n) : HasNeigh ip (n.modifyNeigh ip' f) := by
  obtain ⟨x, hx, rfl⟩ := hn
  have hmem : x.ip ∈ (n.modifyNeigh ip' f).aodvNeighList.map AodvNeigh.ip := by
    rw [modifyNeigh, OrderedList.map_modifyFirst h]
    exact List.mem_map_of_mem hx
  obtain ⟨y, hy, hip⟩ := List.mem_map.mp hmem
  exact ⟨y, hy, hip⟩

theorem hasNeigh_updateNeighLifetime {ip : Ip} (ip' : Ip) (h : HasNeigh ip n) :
    HasNeigh ip (n.updateNeighLifetime ip') :=
  hasNeigh_modifyNeigh (n := ((n.removeTimer ip' ip' noTos .neighbor).insertTimer .neighbor
    (helloInterval * (1 + allowedHelloLoss) + 100) ip').updateTimers) (fun _ ↦ rfl) h

theorem acts_recvRrep {m : Rrep} (hrefresh : refreshes t n₀ = true) (h : n.recvRrep t m = some n') :
    Acts n₀ t n n' := by
  unfold recvRrep at h
  split at h
  · exact Option.some.inj h ▸ .refl
  next x hx =>
  obtain ⟨hhas, hip⟩ := hasNeigh_of_find hx
  rw [hip] at h
  refine .head (.refresh hhas hrefresh) (acts_of_same ?_)
  dsimp only at h
  split at h
  · exact neighSame_recvRrepSource h
  · exact neighSame_recvRrepForward h

theorem acts_recvRreq {m : Rreq} (htype : t.type = .recvRreq) (hdata : t.data = some (.rreq m))
    (h : n₀.recvRreq t m = some n') : Acts n₀ t n₀ n' := by
  unfold recvRreq at h
  split at h
  · exact Option.some.inj h ▸ .refl
  next hscope =>
  have hrefresh : refreshes t n₀ = true := by simpa [refreshes, htype, hdata, imp_iff_not_or] using hscope
  split at h
  · exact Option.some.inj h ▸ .refl
  next x hx =>
  obtain ⟨hhas, hip⟩ := hasNeigh_of_find hx
  rw [hip] at h
  refine .head (.refresh hhas hrefresh) (acts_of_same ?_)
  dsimp only at h
  split at h
  · exact Option.some.inj h ▸ .refl _
  split at h
  · exact Option.some.inj h ▸ .refl _
  obtain ⟨pathMetric, -, h⟩ := Option.bind_eq_some_iff.mp h
  cases pathMetric with
  | none => exact Option.some.inj h ▸ .refl _
  | some pathMetric =>
    obtain ⟨⟨ok, n₁⟩, hroute, h⟩ := Option.bind_eq_some_iff.mp h
    refine (neighSame_rreqRoute hroute).trans ?_
    exact Option.some.inj h ▸ neighSame_ite (neighSame_acceptRreq _ _ _) (.refl _)

theorem acts_recvRreqSt {m : RreqSt} (hrefresh : refreshes t n₀ = true) :
    Acts n₀ t n (n.recvRreqSt t m) := by
  rcases recvRreqSt_cases t m n with heq | ⟨x, gwList, kmalloc, hx, hlast⟩
  · rw [heq]
    exact .refl
  obtain ⟨hhas, hip⟩ := hasNeigh_of_find hx
  rw [hip] at hlast
  have hgw : NeighSame (n.updateNeighLifetime t.srcIp)
      { n.updateNeighLifetime t.srcIp with gwList := gwList, kmalloc := kmalloc } :=
    neighSame_of_eq rfl rfl rfl rfl rfl rfl
  refine .head (.refresh hhas hrefresh) (acts_of_same ?_)
  rcases hlast with heq | ⟨m', heq⟩
  · rw [heq]
    exact hgw
  · rw [heq]
    exact hgw.trans (neighSame_localBroadcast _ _)

theorem hasNeigh_recvHelloExtension {ip orig : Ip} (m : Hello) (ext : HelloExtension) (h : HasNeigh ip n) :
    HasNeigh ip (n.recvHelloExtension orig m ext) := by
  unfold recvHelloExtension
  refine hasNeigh_modifyNeigh (updateNeightx_ip _) ?_
  split
  · exact hasNeigh_modifyNeigh (updateNeighLoad_ip _ _) h
  · obtain ⟨x, hx, hip⟩ := h
    have hlist := (refreshNeigh2h_frame ext.ip n).2
    exact ⟨x, hlist.symm ▸ hx, hip⟩

theorem acts_recvHelloExtensions {m : Hello} (hdata : t.data = some (.hello m))
    (hrefresh : refreshes t n₀ = true) (hhas : HasNeigh t.srcIp n) (l : List HelloExtension) (hl : l ⊆ m.ext) :
    Acts n₀ t n (recvHelloExtensions t.srcIp m l n) := by
  induction l generalizing n with
  | nil => exact .refl
  | cons ext l ih =>
    have hext : ext ∈ m.ext := hl List.mem_cons_self
    have ih : ∀ n₁, HasNeigh t.srcIp n₁ → Acts n₀ t n₁ (recvHelloExtensions t.srcIp m l n₁) :=
      fun n₁ hn₁ ↦ ih (n := n₁) hn₁ fun _ hx ↦ hl (List.mem_cons_of_mem _ hx)
    unfold recvHelloExtensions
    split
    · have hetx : NeighSame n (n.modifyNeigh t.srcIp fun x ↦
          { x with etx := { x.etx with sendEtx := ext.count } }) :=
        neighSame_modifyNeigh fun _ ↦ ⟨rfl, rfl, rfl, id⟩
      dsimp only
      split
      · exact acts_of_same hetx
      · exact (acts_of_same hetx).trans (ih _ (hetx.hasNeigh hhas))
    next hip =>
    refine ReflTransGen.trans ?_ (ih _ ?_)
    swap
    · split
      · exact hasNeigh_recvHelloExtension m ext hhas
      · exact hhas
    split
    · next hwcim =>
      unfold recvHelloExtension
      dsimp only
      split
      · exact (ReflTransGen.single (.extLoad hdata hext hip)).tail (.neightx hdata hext hip)
      · next hnone =>
        have hcfg : (n.refreshNeigh2h ext.ip).cfg = n.cfg :=
          (RouteEffects.calm_refreshNeigh2h (P := isPlain) _ _).cfg
        have hip' : ext.ip ≠ (n.refreshNeigh2h ext.ip).cfg.gMeshIp := by rwa [hcfg]
        exact ((ReflTransGen.single (.refresh2h hdata hext hip hnone hrefresh hwcim hhas)).tail
          (.extLoad2h hdata hext hip')).tail (.neightx hdata hext hip')
    · exact .refl

/-- What a HELLO does once its sender is refreshed. -/
theorem acts_refreshedHello {m : Hello} (hdata : t.data = some (.hello m))
    (hrefresh : refreshes t n₀ = true) (hn : HasNeigh t.srcIp n) :
    Acts n₀ t (n.updateNeighLifetime t.srcIp) (n.helloFromNeigh t.srcIp m) := by
  unfold helloFromNeigh
  dsimp only
  split
  · exact .refl
  · generalize hn₁ : (n.updateNeighLifetime t.srcIp).modifyNeigh t.srcIp _ = n₁
    have h₁ : NeighSame (n.updateNeighLifetime t.srcIp) n₁ :=
      hn₁ ▸ neighSame_modifyNeigh fun _ ↦ ⟨rfl, rfl, rfl, id⟩
    have hhas : HasNeigh t.srcIp n₁ := h₁.hasNeigh (hasNeigh_updateNeighLifetime _ hn)
    refine (acts_of_same h₁).trans (ReflTransGen.trans ?_
      (acts_recvHelloExtensions hdata hrefresh ?_ m.ext fun _ hx ↦ hx))
    swap
    · split
      · exact hasNeigh_modifyNeigh (updateNeighLoad_ip _ _) hhas
      · exact hhas
    split
    · exact .single (.ownLoad hdata)
    · exact .refl

theorem acts_helloFromNeigh {m : Hello} (hdata : t.data = some (.hello m))
    (hrefresh : refreshes t n₀ = true) (hn : HasNeigh t.srcIp n) :
    Acts n₀ t n (n.helloFromNeigh t.srcIp m) :=
  .head (.refresh hn hrefresh) (acts_refreshedHello hdata hrefresh hn)

theorem hasNeigh_createAodvNeigh {ip : Ip} (h : n.createAodvNeigh ip = some (true, n')) :
    HasNeigh ip n' := by
  rcases createAodvNeigh_spec h with ⟨hok, -⟩ | ⟨-, hmeets⟩
  · cases hok
  · exact ⟨_, hmeets.neigh ▸ OrderedList.mem_insertBy.mpr (.inl rfl), rfl⟩

theorem acts_recvHello {m : Hello} (htype : t.type = .recvHello) (hdata : t.data = some (.hello m))
    (h : n₀.recvHello t m = some n') : Acts n₀ t n₀ n' := by
  unfold recvHello at h
  split at h
  · exact Option.some.inj h ▸ .refl
  next hblack =>
  have hrefresh : refreshes t n₀ = true := by simpa [refreshes, htype, hdata] using hblack
  split at h
  · next x hx => exact Option.some.inj h ▸ acts_helloFromNeigh hdata hrefresh (hasNeigh_of_find hx).1
  next hnone =>
  obtain ⟨⟨ok, n₁⟩, hnew, h⟩ := Option.bind_eq_some_iff.mp h
  obtain ⟨⟨ok₂, n₂⟩, hcreate, hnew⟩ := Option.bind_eq_some_iff.mp hnew
  have hmeet : NeighAct n₀ t n₀ n₂ := .meet htype (by simpa using hblack) hnone hcreate hrefresh
  cases ok₂ with
  | false =>
    simp only [Bool.not_false, if_true, Option.some.injEq, Prod.mk.injEq] at hnew
    obtain ⟨rfl, rfl⟩ := hnew
    exact Option.some.inj h ▸ .single hmeet
  | true =>
    obtain ⟨n₃, hrecover, hnew⟩ := Option.bind_eq_some_iff.mp hnew
    simp only [Option.some.injEq, Prod.mk.injEq] at hnew
    obtain ⟨rfl, rfl⟩ := hnew
    have hsame := (neighSame_recoverLinks hrecover).trans
      (neighSame_of_steady (steady_redirectRoutes n₃.routing.table n₃))
    have hhas := hsame.hasNeigh (hasNeigh_createAodvNeigh hcreate)
    refine .head hmeet (.head (.same hsame) (.head .takeLoad ?_))
    exact Option.some.inj h ▸ acts_helloFromNeigh hdata hrefresh
      (hasNeigh_modifyNeigh (fun _ ↦ rfl) hhas)

theorem acts_resetEtt (htype : isProbeType t.type = true) (hn : HasNeigh t.srcIp n)
    (h : n.resetEtt t.srcIp = some n') : Acts n₀ t n n' := by
  obtain ⟨n₁, delay, h₁, h₂⟩ := resetEtt_renews h
  have hhas : HasNeigh t.srcIp (n₁.insertTimer .sendEtt delay t.srcIp) :=
    h₁.hasNeigh (n := n.removeTimer t.srcIp t.srcIp noTos .sendEtt) hn
  exact .head (.stop htype) (.head (.same h₁) (.head (.probe htype) (.head (.arm htype hhas)
    (acts_of_same h₂))))

theorem acts_useEstimation {ett : EttParams} {recvDelay : UInt32}
    (htype : isProbeType t.type = true) (hn : HasNeigh t.srcIp n)
    (h : n.useEstimation t.srcIp ett recvDelay = some n') : Acts n₀ t n n' := by
  cases useEstimation_cases h with
  | again _ _ _ hreset => exact (acts_resetEtt htype hn hreset).trans (acts_of_same (neighSame_sendEttInfo _ _ _))
  | secondRound => exact acts_of_same ((neighSame_updateEtt _).trans (neighSame_sendEttInfo _ _ _))
  | widen => exact acts_of_same (neighSame_updateEtt _)
  | unusable _ _ hreset => exact acts_resetEtt htype hn hreset
  | @rated rate =>
    have hrate : ∀ n₁ : Node, NeighSame n₁
        (n₁.modifyNeigh t.srcIp fun x ↦ { x with sendRate := rate }) :=
      fun n₁ ↦ neighSame_modifyNeigh fun _ ↦ ⟨rfl, rfl, rfl, id⟩
    exact acts_of_same (((neighSame_updateEtt _).trans (hrate _)).trans (neighSame_sendEttInfo _ _ _))

theorem acts_computeEstimation (htype : isProbeType t.type = true)
    (h : n.computeEstimation t.srcIp = some n') : Acts n₀ t n n' := by
  obtain ⟨x, hx, h⟩ := Option.bind_eq_some_iff.mp h
  obtain ⟨hhas, -⟩ := hasNeigh_of_find hx
  dsimp only at h
  split at h
  · exact Option.some.inj h ▸ acts_of_same (neighSame_updateEtt _)
  · refine ReflTransGen.trans ?_ (acts_useEstimation htype ?_ h)
    · exact acts_of_same ((neighSame_updateEtt _).trans (neighSame_updateEtt _))
    · exact hasNeigh_modifyNeigh (fun _ ↦ rfl) (hasNeigh_modifyNeigh (fun _ ↦ rfl) hhas)

theorem acts_recvLprobe {m : LProbe} (htype : isProbeType t.type = true)
    (hrefresh : refreshes t n₀ = true) (h : n.recvLprobe t m = some n') : Acts n₀ t n n' := by
  unfold recvLprobe at h
  split at h
  · exact Option.some.inj h ▸ .refl
  next x hx =>
  have hhas := (hasNeigh_of_find hx).1
  refine .head (.refresh hhas hrefresh) ?_
  dsimp only at h
  split at h
  · exact Option.some.inj h ▸ .refl
  obtain ⟨n₁, hn₁, rfl⟩ := Option.map_eq_some_iff.mp h
  refine .head (.rearm htype (hasNeigh_updateNeighLifetime _ hhas)) ?_
  refine ReflTransGen.trans ?_ (acts_of_same (neighSame_modifyNeigh fun _ ↦ ⟨rfl, rfl, rfl, id⟩))
  generalize hn₂ : ((n.updateNeighLifetime t.srcIp).reloadEttCleanup t.srcIp).modifyNeigh t.srcIp _ =
    n₂ at hn₁
  have h₂ : NeighSame ((n.updateNeighLifetime t.srcIp).reloadEttCleanup t.srcIp) n₂ :=
    hn₂ ▸ neighSame_modifyNeigh fun _ ↦ ⟨rfl, rfl, rfl, id⟩
  refine (acts_of_same h₂).trans ?_
  split at hn₁
  · exact (acts_of_same (neighSame_updateEtt _)).trans (acts_computeEstimation htype hn₁)
  · exact Option.some.inj hn₁ ▸ .refl

theorem acts_recvEttInfo {m : EttInfo} (htype : isProbeType t.type = true)
    (hrefresh : refreshes t n₀ = true) (h : n.recvEttInfo t m = some n') : Acts n₀ t n n' := by
  unfold recvEttInfo at h
  split at h
  · exact Option.some.inj h ▸ .refl
  next x hx =>
  have hhas := (hasNeigh_of_find hx).1
  refine .head (.refresh hhas hrefresh) ?_
  obtain ⟨n₁, hn₁, rfl⟩ := Option.map_eq_some_iff.mp h
  refine ReflTransGen.trans ?_ (acts_of_same (neighSame_modifyNeigh fun _ ↦ ⟨rfl, rfl, rfl, id⟩))
  dsimp only at hn₁
  generalize hn₂ : (n.updateNeighLifetime t.srcIp).modifyNeigh t.srcIp _ = n₂ at hn₁
  have h₂ : NeighSame (n.updateNeighLifetime t.srcIp) n₂ :=
    hn₂ ▸ neighSame_modifyNeigh fun _ ↦ ⟨rfl, rfl, rfl, id⟩
  have hhas₂ := h₂.hasNeigh (hasNeigh_updateNeighLifetime _ hhas)
  refine (acts_of_same h₂).trans ?_
  split at hn₁
  · have hhas₃ : HasNeigh t.srcIp (n₂.modifyNeigh t.srcIp (updateEtt fun e ↦ { e with fixedRate := 1 })) :=
      hasNeigh_modifyNeigh (fun _ ↦ rfl) hhas₂
    refine .head (.same (neighSame_updateEtt _)) (.head (.rearm htype hhas₃) ?_)
    split at hn₁
    · exact .head (.same (neighSame_updateEtt _)) (acts_computeEstimation htype hn₁)
    · exact Option.some.inj hn₁ ▸ acts_of_same (neighSame_updateEtt _)
  · exact Option.some.inj hn₁ ▸ .refl

theorem acts_deleteAodvNeigh (htype : t.type = .neighbor)
    (h : n₀.deleteAodvNeigh t.srcIp = some n') : Acts n₀ t n₀ n' := by
  unfold deleteAodvNeigh at h
  split at h
  · next hany =>
    have hhas : HasNeigh t.srcIp n₀ := by simpa [HasNeigh] using hany
    exact .head (.lose htype hhas) (acts_of_steady (steady_genRerr h))
  · exact Option.some.inj h ▸ .refl

/-- Every task is a sequence of acts on the neighbour tables. -/
theorem handle_acts (h : n₀.handle t = some n') : Acts n₀ t n₀ n' := by
  unfold handle at h
  split at h
  · exact acts_of_same (neighSame_genRreq h)
  · next htype hdata => exact acts_recvRrep (by simp [refreshes, htype, hdata]) h
  · exact acts_of_steady (steady_recvRerr h)
  · next htype hdata => exact acts_recvHello htype hdata h
  · exact Option.some.inj h ▸ acts_of_steady (steady_recvRcvp _ _)
  · exact Option.some.inj h ▸ acts_of_steady (steady_recvRrdp _ _ _)
  · next htype =>
    exact Option.some.inj h ▸ acts_of_renews (by rw [htype]; rfl) (flushRoutes_renews n₀)
  · next htype =>
    rcases genHello_renews n₀ with ⟨hsame, -⟩ | ⟨ip, hrenews⟩
    · exact Option.some.inj h ▸ acts_of_same hsame
    · exact Option.some.inj h ▸ acts_of_renews (by rw [htype]; rfl) hrenews
  · next htype =>
    rcases genStRreq_renews h with ⟨hsame, -⟩ | hrenews
    · exact acts_of_same hsame
    · exact acts_of_renews (by rw [htype]; rfl) hrenews
  · next htype =>
    exact Option.some.inj h ▸ acts_of_renews (by rw [htype]; rfl) (gwCleanup_renews n₀)
  · next htype => exact acts_deleteAodvNeigh htype h
  · next htype =>
    exact Option.some.inj h ▸ acts_of_renews (by rw [htype]; rfl) (flushRoutes_renews n₀)
  · next htype =>
    rcases sendProbe_renews (n := n₀) t.dstIp with hsame | ⟨n₁, delay, h₁, h₂⟩
    · exact Option.some.inj h ▸ acts_of_same hsame
    · exact Option.some.inj h ▸ .head (.same h₁)
        (.head (.probe (by rw [htype]; rfl)) (acts_of_same h₂))
  · refine acts_of_same (Option.some.inj h ▸ ?_)
    unfold recvSprobe
    split
    · exact .refl n₀
    · exact neighSame_updateEtt _
  · next htype hdata => exact acts_recvLprobe (by rw [htype]; rfl) (by simp [refreshes, htype, hdata]) h
  · next htype =>
    obtain ⟨x, hx, h⟩ := Option.bind_eq_some_iff.mp h
    obtain ⟨hhas, hip⟩ := hasNeigh_of_find hx
    exact acts_resetEtt (by rw [htype]; rfl) hhas (hip ▸ h)
  · next htype => exact Option.some.inj h ▸ .single (.lose2h htype)
  · next htype hdata => exact acts_recvRreq htype hdata h
  · exact acts_of_same (neighSame_resendRreq h)
  · next htype hdata => exact acts_recvEttInfo (by rw [htype]; rfl) (by simp [refreshes, htype, hdata]) h
  · exact acts_of_same (neighSame_genRrep h)
  · next htype hdata => exact Option.some.inj h ▸ acts_recvRreqSt (by simp [refreshes, htype, hdata])
  · exact acts_of_same (Option.some.inj h ▸ neighSame_routing _)
  · exact acts_of_same (neighSame_genRreq h)
  · exact Option.some.inj h ▸ .refl

end Handlers

section Steps

variable {n n' : Node}

/-- What a step means for the neighbour tables. -/
inductive NeighStep (n : Node) : Event → Node → Prop
  | wait (ms : ℕ) : NeighStep n (.wait ms) { n with now := n.now + ms }
  | idle {e : Event} {n' : Node} (h : NeighIdle n n') : NeighStep n e n'
  | signal : NeighStep n .signal n.signal
  | thread {t : Task} {tasks : ClassQueue Task} {n' : Node} (hpop : n.tasks.pop = (some t, tasks))
      (h : Acts { n with tasks := tasks } t { n with tasks := tasks } n') : NeighStep n .thread n'

theorem step_neigh {e : Event} (h : n.step e = some n') : NeighStep n e n' := by
  cases e with
  | wait ms => exact Option.some.inj h ▸ .wait ms
  | input p => exact Option.some.inj h ▸ .idle (neighIdle_inputHandler p)
  | output skb =>
    obtain ⟨⟨v, n₁⟩, hsend, rfl⟩ := Option.map_eq_some_iff.mp h
    obtain ⟨⟨w, n₂⟩, hout, hsend⟩ := Option.bind_eq_some_iff.mp hsend
    have hidle := neighIdle_outputHandler hout
    dsimp only at hsend
    split at hsend
    · simp only [Option.some.injEq, Prod.mk.injEq] at hsend
      exact .idle (hsend.2 ▸ hidle.trans (neighIdle_of_eq rfl rfl rfl rfl rfl rfl))
    · simp only [Option.some.injEq, Prod.mk.injEq] at hsend
      exact .idle (hsend.2 ▸ hidle)
  | signal => exact Option.some.inj h ▸ .signal
  | thread =>
    simp only [step, threadStep] at h
    split at h
    · exact .idle (Option.some.inj h ▸ .refl n)
    · next t tasks hpop => exact .thread hpop (handle_acts h)

end Steps

end Fbaodv.Proofs.NeighActs
