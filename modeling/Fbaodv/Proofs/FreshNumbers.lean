import Fbaodv.Proofs.NetRuns

namespace Fbaodv.Proofs.FreshNumbers

open Fbaodv.Model Fbaodv.Model.Node Fbaodv.Foundation Fbaodv.Foundation.Interleaving
open Fbaodv.Proofs.RouteFrame Fbaodv.Proofs.RoutingInvariant Fbaodv.Proofs.HandlerSpecs
open Fbaodv.Proofs.NodeRun Fbaodv.Proofs.NodeOps Fbaodv.Proofs.NetOps Fbaodv.Proofs.NetPaths
open Fbaodv.Proofs.NetRuns Fbaodv.Proofs.PacketDiscovery

/-- The node that a message names as its originator, with its number. -/
def numberOf : Message → Option (Ip × UInt32)
  | .rreq m => some (m.srcIp, m.dstId)
  | .rrep m => some (m.dstIp, m.dstId)
  | .strreq m => some (m.gwIp, m.dstId)
  | _ => none

/-- The node has sent the number `k` under the name `a`. -/
def Sends (n : Node) (a : Ip) (k : UInt32) : Prop :=
  ∃ s ∈ n.sent, ∃ m, payload s = some m ∧ numberOf m = some (a, k)

/-- A number that is not above those that `a` has issued: its counter has got
there, or it has sent it in a message. `g_null_ip`, which has no counter, is the
name of whatever lies outside of the mesh, and any node may send for it. -/
def Issued (net : Network) (a : Ip) (k : UInt32) : Prop :=
  (∃ c, (net a).localDstId = some c ∧ k ≤ c) ∨
    ∃ b k', (b = a ∨ a = gNullIp) ∧ k ≤ k' ∧ Sends (net b) a k'

/-- No number that `a` has issued is above `k`. -/
def Fresh (net : Network) (a : Ip) (k : UInt32) : Prop := ∀ k', Issued net a k' → k' ≤ k

/-- Where the task creates an entry without a look into the table, the entry gets
a number that its destination has issued. -/
def CopiesIssued (net : Network) (a : Ip) (t : Task) (tasks : ClassQueue Task) : Prop :=
  (net a).routing.kmalloc.next = true →
    ∀ new, Creates { net a with tasks := tasks } t new → Issued net new.dstIp new.dstId

/-- The counter does not wrap around, and copied numbers are issued ones. -/
structure Steady (net : Network) (a : Ip) (e : Event) (n : Node) : Prop where
  counter : ∀ c c', (net a).localDstId = some c → n.localDstId = some c' → c ≤ c'
  copies : ∀ t tasks, e = .thread → (net a).tasks.pop = (some t, tasks) → CopiesIssued net a t tasks

section Messages

variable {net : Network} {a : Ip} {n n' : Node} {t : Task}

/-- A message whose number its originator has issued. Only an RREQ to the outside
names a gateway. -/
structure Genuine (net : Network) (m : Message) : Prop where
  rreq : ∀ r, m = .rreq r → Issued net r.srcIp r.dstId ∧ (r.gateway = gNullIp ∨ r.dstIp = gNullIp)
  rrep : ∀ r, m = .rrep r → Issued net r.dstIp r.dstId

theorem genuine_of_routeless (net : Network) {m : Message} {s : Sent} (hs : isRouteless s) (hm : payload s = some m) :
    Genuine net m := by
  cases s with
  | broadcast ttl m' | unicast ip ttl m' =>
    obtain rfl := Option.some.inj hm
    exact ⟨fun r hr ↦ (by rw [hr] at hs; exact hs.elim), fun r hr ↦ (by rw [hr] at hs; exact hs.elim)⟩
  | toDtn => cases hm

theorem Genuine.stamp {m : Message} (h : Genuine net m) (sec usec : UInt32) : Genuine net (m.stamp sec usec) := by
  cases m with
  | sprobe | lprobe => exact ⟨nofun, nofun⟩
  | _ => exact h

/-- The flows that a node takes up itself, by their types. -/
structure Named (n : Node) (t : Task) : Prop where
  discovery : t.type = .genRreq ∨ t.type = .resendRreq → t.srcIp = n.cfg.gMeshIp ∨ t.srcIp = gNullIp
  answer : t.type = .sendRrep →
    t.dstIp = n.cfg.gMeshIp ∨ t.dstIp = gNullIp ∨ isDtnAnswer n t.dstIp = true

theorem named_of_other (h : isFlowType t.type = false) : Named n t := by
  refine ⟨fun ht ↦ ?_, fun ht ↦ ?_⟩
  · rcases ht with ht | ht <;> rw [ht] at h <;> cases h
  · rw [ht] at h
    cases h

theorem Named.mono (h : Named n t) (hcfg : n'.cfg = n.cfg)
    (hdtn : n.dtnRegister = true → n'.dtnRegister = true) : Named n' t where
  discovery := by
    rw [hcfg]
    exact h.discovery
  answer := by
    intro htype
    rw [hcfg]
    refine (h.answer htype).imp_right (Or.imp_right fun hanswer ↦ ?_)
    obtain ⟨hregister, hdst⟩ := Bool.and_eq_true_iff.mp hanswer
    rw [isDtnAnswer, hcfg]
    exact Bool.and_eq_true_iff.mpr ⟨hdtn hregister, hdst⟩

end Messages

/-- The invariant of the run: the numbers in tables and messages are issued by
those whom they stand for. -/
structure Sound (net : Network) (a : Ip) (n : Node) : Prop where
  placed : Placed a n
  entries : ∀ e ∈ n.routing.table, e.ptr = n.routing.localRoute ∨ Issued net e.dstIp e.dstId
  sent : ∀ s ∈ n.sent, ∀ m, payload s = some m → Genuine net m
  tasks : ∀ t ∈ n.tasks.elems, ∀ m, t.data = some m → Genuine net m
  namedTasks : ∀ t ∈ n.tasks.elems, Named n t
  namedTimers : ∀ t ∈ n.timers.queue, Named n t

section Path

variable {net : Network} {a : Ip} {n₀ n n' : Node} {t : Task}

/-- The same while a task is being handled: what the node has just sent in its
own name or from outside counts as issued. -/
structure Handled (net : Network) (a : Ip) (n₀ n : Node) : Prop where
  onward : Onward n₀ n
  entries : ∀ e ∈ n.routing.table, e.ptr = n.routing.localRoute ∨ Issued net e.dstIp e.dstId ∨
    e.dstIp = a ∧ Sends n e.dstIp e.dstId
  rreqs : ∀ s ∈ n.sent, ∀ m, payload s = some (.rreq m) →
    (Issued net m.srcIp m.dstId ∨ m.srcIp = a ∨ m.srcIp = gNullIp) ∧
      (m.gateway = gNullIp ∨ m.dstIp = gNullIp)
  rreps : ∀ s ∈ n.sent, ∀ m, payload s = some (.rrep m) →
    Issued net m.dstIp m.dstId ∨ m.dstIp = a ∨ m.dstIp = gNullIp
  timers : ∀ t ∈ n.timers.queue, Named n t

/-- What is known of a task when the node turns to it. -/
structure Taken (net : Network) (a : Ip) (n₀ : Node) (t : Task) : Prop where
  address : n₀.cfg.gMeshIp = a
  real : a ≠ gNullIp
  genuine : ∀ m, t.data = some m → Genuine net m
  named : Named n₀ t
  copies : n₀.routing.kmalloc.next = true → ∀ new, Creates n₀ t new → Issued net new.dstIp new.dstId

theorem Taken.issued_of_call (ht : Taken net a n₀ t) {r : Routing} {c : HeardRoute}
    (h : RouteCall n₀ t r c) : Issued net c.dstIp c.dstId := by
  cases h with
  | rreq _ hdata => exact ((ht.genuine _ hdata).rreq _ rfl).1
  | rrepSource _ hdata | rrepForward _ hdata => exact (ht.genuine _ hdata).rrep _ rfl

theorem Sends.onward {b : Ip} {k : UInt32} (h : Sends n b k) (hn : Onward n n') : Sends n' b k := by
  obtain ⟨s, hs, m, hm, hk⟩ := h
  obtain ⟨l, hl⟩ := hn.sent
  exact ⟨s, hl ▸ List.mem_append_left l hs, m, hm, hk⟩

theorem Handled.entries_op (ht : Taken net a n₀ t) (hn : Handled net a n₀ n) (h : NetOp n₀ t n n') :
    ∀ e ∈ n'.routing.table, e.ptr = n'.routing.localRoute ∨ Issued net e.dstIp e.dstId ∨
      e.dstIp = a ∧ Sends n' e.dstIp e.dstId := by
  intro e' he'
  have honward := onward_of_op h
  rw [honward.localRoute]
  cases entry_of_op h he' with
  | kept he hsoft =>
    obtain ⟨⟨hptr, -, hdst, -⟩, hid, -⟩ := same_of_soft hsoft
    rw [hptr, hdst, hid]
    exact (hn.entries _ he).imp_right (Or.imp_right (And.imp_right fun hs ↦ hs.onward honward))
  | counted he hptr hsoft => exact .inl ((same_of_soft hsoft).1.1.trans hptr)
  | created hmemory hnew => exact .inr (.inl (ht.copies hmemory _ hnew))
  | heard hcall h =>
    rw [h.key.2.1, h.dstId]
    exact .inr (.inl (ht.issued_of_call hcall))
  | announced he hkey h hsent =>
    have hdst : e'.dstIp = n.cfg.gMeshIp := by rw [h]; exact hkey.2.1
    have haddr : n.cfg.gMeshIp = a := by rw [hn.onward.cfg, ht.address]
    refine .inr (.inr ⟨hdst.trans haddr, _, hsent, _, rfl, ?_⟩)
    rw [hdst, h]
    rfl

theorem Taken.named_source (ht : Taken net a n₀ t) (hn : Onward n₀ n) {srcIp : Ip}
    (h : SeeksAs n t srcIp) : srcIp = a ∨ srcIp = gNullIp := by
  rcases h.2 with h | ⟨htype, h⟩
  · exact .inl (by rw [h, hn.cfg, ht.address])
  · rw [h, ← ht.address]
    exact ht.named.discovery htype

theorem Taken.answer_source (ht : Taken net a n₀ t) {e : AodvRoute} (htype : t.type = .sendRrep)
    (he : isDtnAnswer n₀ t.dstIp = false ∧ e.srcIp = t.dstIp ∧ e.dstIp = t.srcIp ∧ e.tos = t.tos ∨
      isDtnAnswer n₀ t.dstIp = true ∧ n₀.routing.findAodvRoute t.dstIp t.srcIp t.tos ≠ none ∧
        e.srcIp = n₀.cfg.gMeshIp) : e.srcIp = a ∨ e.srcIp = gNullIp := by
  rcases he with ⟨hdtn, hsrc, -⟩ | ⟨-, -, hsrc⟩
  · rw [hsrc, ← ht.address]
    rcases ht.named.answer htype with h | h | h
    · exact .inl h
    · exact .inr h
    · rw [hdtn] at h
      cases h
  · exact .inl (hsrc.trans ht.address)

theorem Handled.op (ht : Taken net a n₀ t) (hn : Handled net a n₀ n) (h : NetOp n₀ t n n') :
    Handled net a n₀ n' := by
  have honward := onward_of_op h
  have hentries := hn.entries_op ht h
  have hsource : ∀ {srcIp : Ip}, SeeksAs n t srcIp → srcIp = a ∨ srcIp = gNullIp :=
    fun h ↦ ht.named_source hn.onward h
  refine ⟨hn.onward.trans honward, hn.entries_op ht h, fun s hs m hm ↦ ?_, fun s hs m hm ↦ ?_,
    fun t' ht' ↦ ?_⟩
  · rcases sent_of_op h hs with hs | hs
    · exact hn.rreqs s hs m hm
    cases hs with
    | routeless hroute =>
      obtain ⟨hid, hgateway⟩ := (genuine_of_routeless net hroute hm).rreq m rfl
      exact ⟨.inl hid, hgateway⟩
    | flood hname _ _ hgateway =>
      obtain rfl := Message.rreq.inj (Option.some.inj hm)
      exact ⟨.inr (hsource hname), hgateway⟩
    | forward _ hdata =>
      obtain rfl := Message.rreq.inj (Option.some.inj hm)
      obtain ⟨hid, hgateway⟩ := (ht.genuine _ hdata).rreq _ rfl
      exact ⟨.inl hid, hgateway⟩
    | answer | relay => cases hm
  · rcases sent_of_op h hs with hs | hs
    · exact hn.rreps s hs m hm
    cases hs with
    | routeless hroute => exact .inl ((genuine_of_routeless net hroute hm).rrep m rfl)
    | flood | forward => cases hm
    | answer htype he h =>
      obtain rfl := Message.rrep.inj (Option.some.inj hm)
      rw [h.message.2.1]
      exact .inr (ht.answer_source htype he)
    | relay _ hdata =>
      obtain rfl := Message.rrep.inj (Option.some.inj hm)
      have hid := (ht.genuine _ hdata).rrep _ rfl
      exact .inl hid
  · by_cases hflow : isFlowType t'.type = true
    · rcases timer_of_op h ht' hflow with ht' | hfrom
      · exact (hn.timers t' ht').mono honward.cfg fun h ↦ honward.dtnRegister.trans h
      have haddr : n'.cfg.gMeshIp = a := by rw [honward.cfg, hn.onward.cfg, ht.address]
      cases hfrom with
      | discovery htype hname =>
        refine ⟨fun _ ↦ haddr ▸ hsource hname, fun htype' ↦ ?_⟩
        rw [htype] at htype'
        cases htype'
      | answer htype' hflow _ hdata _ _ hdest =>
        refine ⟨fun htype ↦ ?_, fun _ ↦ ?_⟩
        · rcases htype with htype | htype <;> rw [htype] at htype' <;> cases htype'
        rw [hflow.2.1, haddr]
        simp only [iamDestination, ht.address, Bool.or_eq_true, beq_iff_eq] at hdest
        rcases hdest with hdst | hgateway
        · exact .inl hdst
        · rcases ((ht.genuine _ hdata).rreq _ rfl).2 with hnone | hdst
          · exact absurd (hgateway.symm.trans hnone) ht.real
          · exact .inr (.inl hdst)
    · exact named_of_other (eq_false_of_ne_true hflow)

end Path

section Steps

variable {net : Network} {a : Ip} {e : Event} {n : Node}

theorem Issued.turn (hn : Placed a (net a)) (h : Turn net a e n)
    (hcounter : ∀ c c', (net a).localDstId = some c → n.localDstId = some c' → c ≤ c') {b : Ip} {k : UInt32}
    (hk : Issued net b k) : Issued (Function.update net a n) b k := by
  obtain ⟨l, hl⟩ := sent_of_step hn.routes h.2.2
  rcases hk with ⟨c, hc, hkc⟩ | ⟨b', k', hb', hkk', hsends⟩
  · refine .inl ?_
    by_cases hb : b = a
    · subst hb
      obtain ⟨c', hc'⟩ := (hn.step h.2.2).counter
      rw [Function.update_self]
      exact ⟨c', hc', UInt32.le_trans hkc (hcounter c c' hc hc')⟩
    · rw [Function.update_of_ne hb]
      exact ⟨c, hc, hkc⟩
  · refine .inr ⟨b', k', hb', hkk', ?_⟩
    by_cases hb : b' = a
    · subst hb
      rw [Function.update_self]
      obtain ⟨s, hs, m, hm, hid⟩ := hsends
      exact ⟨s, hl ▸ List.mem_append_left l hs, m, hm, hid⟩
    · rwa [Function.update_of_ne hb]

theorem Genuine.mono {net' : Network} (hmono : ∀ {b k}, Issued net b k → Issued net' b k) {m : Message}
    (h : Genuine net m) : Genuine net' m :=
  ⟨fun r hr ↦ (h.rreq r hr).imp_left hmono, fun r hr ↦ hmono (h.rrep r hr)⟩

theorem Sound.mono {net' : Network} (hmono : ∀ {b k}, Issued net b k → Issued net' b k)
    (h : Sound net a n) : Sound net' a n where
  __ := h
  entries := fun e he ↦ (h.entries e he).imp_right hmono
  sent := fun s hs m hm ↦ (h.sent s hs m hm).mono hmono
  tasks := fun t ht m hm ↦ (h.tasks t ht m hm).mono hmono

theorem Sound.hooked (hsound : ∀ b, Sound net b (net b)) (h : Turn net a e n)
    (hhook : Hooked (net a) e n) : Sound net a n := by
  have hn := hsound a
  have hnamed : ∀ t, Named (net a) t → Named n t := fun t ht ↦ ht.mono hhook.cfg hhook.dtnRegister
  refine ⟨hn.placed.step h.2.2, fun x hx ↦ ?_, fun s hs ↦ hn.sent s (hhook.sent ▸ hs), fun t ht m hm ↦ ?_,
    fun t ht ↦ ?_, fun t ht ↦ ?_⟩
  · obtain ⟨x₀, hx₀, hsoft⟩ := Pointwise.exists_of_mem_right hhook.routing.entries hx
    obtain ⟨⟨hptr, -, hdst, -⟩, hid, -⟩ := same_of_soft hsoft
    rw [hptr, hdst, hid, hhook.routing.localRoute]
    exact hn.entries x₀ hx₀
  · rcases hhook.tasks t ht with ht | ht | harrival | ⟨-, hdata, -⟩
    · exact hn.tasks t ht m hm
    · rw [hn.placed.bare t ht] at hm
      cases hm
    · obtain ⟨m', hm'⟩ := delivered_of_arrival h.2.1 harrival
      obtain ⟨s, hs, hpayload, -⟩ := hm'.sent
      obtain ⟨sec, usec, hdata⟩ := hm'.data
      have hgenuine := (hsound t.srcIp).sent s hs m' hpayload
      obtain rfl : m'.stamp sec usec = m := Option.some.inj (hdata.symm.trans hm)
      exact hgenuine.stamp sec usec
    · rw [hdata] at hm
      cases hm
  · rcases hhook.tasks t ht with ht | ht | harrival | ⟨htype, -, -, hsource⟩
    · exact hnamed t (hn.namedTasks t ht)
    · exact hnamed t (hn.namedTimers t ht)
    · obtain ⟨m', hm'⟩ := delivered_of_arrival h.2.1 harrival
      refine named_of_other ?_
      rw [hm'.type]
      cases m' <;> rfl
    · refine ⟨fun _ ↦ ?_, fun htype' ↦ ?_⟩
      · rw [hhook.cfg]
        exact hsource.imp_right And.left
      · rw [htype] at htype'
        cases htype'
  · by_cases hflow : isFlowType t.type = true
    · rcases hhook.timers t ht hflow with ht | ⟨hdtn, htype, hdst⟩
      · exact hnamed t (hn.namedTimers t ht)
      · refine ⟨fun htype' ↦ ?_, fun _ ↦ .inr (.inr ?_)⟩
        · rcases htype' with htype' | htype' <;> rw [htype] at htype' <;> cases htype'
        · rw [isDtnAnswer, hdtn, hdst, beq_self_eq_true]
          rfl
    · exact named_of_other (eq_false_of_ne_true hflow)

theorem Sound.taken (hn : Sound net a (net a)) (ha : a ≠ gNullIp) {t : Task} {tasks : ClassQueue Task}
    (hpop : (net a).tasks.pop = (some t, tasks)) (hcopies : CopiesIssued net a t tasks) :
    Taken net a { net a with tasks := tasks } t := by
  have hmem : t ∈ (net a).tasks.elems := ClassQueue.pop_mem hpop
  exact ⟨hn.placed.address, ha, hn.tasks t hmem, (hn.namedTasks t hmem).mono rfl id, hcopies⟩

theorem Handled.path {n₀ n n' : Node} {t : Task} (ht : Taken net a n₀ t) (hn : Handled net a n₀ n)
    (h : NetPath n₀ t n n') : Handled net a n₀ n' := by
  induction h with
  | refl => exact hn
  | tail _ hop ih => exact ih.op ht hop

theorem Sound.turn (hsound : ∀ b, Sound net b (net b)) (h : Turn net a e n) (hsteady : Steady net a e n) :
    Sound (Function.update net a n) a n := by
  have hn := hsound a
  have hmono : ∀ {b k}, Issued net b k → Issued (Function.update net a n) b k :=
    fun hk ↦ hk.turn hn.placed h hsteady.counter
  rcases step_path hn.placed.routes h.2.2 with ⟨t, tasks, rfl, hpop, hpath⟩ | hhook
  · have htaken := hn.taken h.1 hpop (hsteady.copies t tasks rfl hpop)
    have hstart : Handled net a { net a with tasks := tasks } { net a with tasks := tasks } :=
      ⟨.refl _, fun x hx ↦ (hn.entries x hx).imp_right .inl,
        fun s hs m hm ↦ ((hn.sent s hs _ hm).rreq m rfl).imp_left .inl,
        fun s hs m hm ↦ .inl ((hn.sent s hs _ hm).rrep m rfl),
        fun t ht ↦ (hn.namedTimers t ht).mono rfl id⟩
    have hend := hstart.path htaken hpath
    have hsends : ∀ {b k}, b = a ∨ b = gNullIp → Sends n b k → Issued (Function.update net a n) b k :=
      fun hb hs ↦ .inr ⟨a, _, hb.imp_left Eq.symm, UInt32.le_refl _, by rwa [Function.update_self]⟩
    have hissued : ∀ {s m b k}, s ∈ n.sent → payload s = some m → numberOf m = some (b, k) →
        (Issued net b k ∨ b = a ∨ b = gNullIp) → Issued (Function.update net a n) b k := by
      intro s m b k hs hm hid hcases
      rcases hcases with hk | hb
      · exact hmono hk
      · exact hsends hb ⟨s, hs, m, hm, hid⟩
    have hsub : ∀ t' ∈ tasks.elems, t' ∈ (net a).tasks.elems := ClassQueue.pop_subset hpop
    refine ⟨hn.placed.step h.2.2, fun x hx ↦ ?_, fun s hs m hm ↦ ⟨fun r hr ↦ ?_, fun r hr ↦ ?_⟩,
      fun t' ht' m hm ↦ ?_, fun t' ht' ↦ ?_, hend.timers⟩
    · refine (hend.entries x hx).imp_right fun hx ↦ ?_
      rcases hx with hx | ⟨hdst, hs⟩
      · exact hmono hx
      · exact hsends (.inl hdst) hs
    · subst hr
      obtain ⟨hid, hgateway⟩ := hend.rreqs s hs r hm
      exact ⟨hissued hs hm rfl hid, hgateway⟩
    · subst hr
      exact hissued hs hm rfl (hend.rreps s hs r hm)
    · rw [hend.onward.tasks] at ht'
      exact (hn.tasks t' (hsub t' ht') m hm).mono hmono
    · rw [hend.onward.tasks] at ht'
      exact (hn.namedTasks t' (hsub t' ht')).mono hend.onward.cfg fun h ↦ hend.onward.dtnRegister.trans h
  · exact (Sound.hooked hsound h hhook).mono hmono

theorem init_sound (h : net.Initial) (a : Ip) : Sound net a (net a) := by
  have hplaced := init_placed h a
  obtain ⟨cfg, env, -, hnet⟩ := h
  obtain ⟨-, hrouting⟩ := init_frame (cfg a) (env a)
  obtain ⟨hsent, htasks, htimers⟩ := init_queues (cfg a) (env a)
  rw [← hnet] at hrouting hsent htasks htimers
  refine ⟨hplaced, fun x hx ↦ ?_, by simp [hsent], by simp [htasks],
    by simp [htasks], fun t ht ↦ ?_⟩
  · rw [hrouting] at hx ⊢
    obtain rfl := List.mem_singleton.mp hx
    exact .inl rfl
  · exact named_of_other (htimers t ht)

theorem run_sound {net₀ : Network} (h : Run Steady net₀ net) : ∀ b, Sound net b (net b) :=
  h.2.invariant (fun _ _ _ _ hsound h ↦ Sound.turn hsound h.1 h.2)
    (fun _ _ _ _ hsound h j _ ↦ (hsound j).mono fun hk ↦ hk.turn (hsound _).placed h.1 h.2.counter)
    (init_sound h.1)

theorem Sound.issued (hn : Sound net a (net a)) {x : AodvRoute} (hx : x ∈ (net a).routing.table) :
    Issued net x.dstIp x.dstId := by
  rcases hn.entries x hx with hptr | hid
  · rw [(hn.placed.routes.localEntry x hx hptr).2, hn.placed.address]
    refine .inl ⟨x.dstId, ?_, UInt32.le_refl _⟩
    rw [localDstId, ← hptr, entryAt_of_mem hn.placed.routes hx]
    rfl
  · exact hid

/-- In a run whose counters do not wrap around and that copies no number that is
not issued, every entry has an issued number, and no fresh number is rejected as
old. -/
theorem fresh_not_older {net₀ : Network} (h : Run Steady net₀ net) :
    (∀ a, ∀ x ∈ (net a).routing.table, Issued net x.dstIp x.dstId) ∧
      ∀ a t tasks r c x, (net a).tasks.pop = (some t, tasks) → CopiesIssued net a t tasks →
        RouteCall { net a with tasks := tasks } t r c → Fresh net c.dstIp c.dstId →
        r.findAodvRoute c.srcIp c.dstIp c.tos = some x → ¬ x.dstId > c.dstId := by
  have hsound := run_sound h
  refine ⟨fun a x hx ↦ (hsound a).issued hx, fun a t tasks r c x _ hcopies hcall hfresh hfind hold ↦ ?_⟩
  obtain ⟨hmem, -, hdst, -⟩ := findAodvRoute_some hfind
  have hissued : Issued net x.dstIp x.dstId := by
    have hroutes : WellFormed { net a with tasks := tasks }.cfg { net a with tasks := tasks }.routing :=
      (hsound a).placed.routes
    rcases (entry_of_call hroutes hcall).2 x hmem with hx | ⟨hmemory, hnew⟩
    · exact (hsound a).issued hx
    · exact hcopies hmemory x hnew
  rw [hdst] at hissued
  exact UInt32.not_lt.mpr (hfresh _ hissued) hold

end Steps

/-- 192.168.1.2 announces itself and looks for 192.168.1.1. -/
def callerEvents : List Event :=
  [.wait 1001, .signal, .thread,
    .output { id := 0, saddr := 0x0201a8c0, daddr := 0x0101a8c0, tos := 0, udpDest := 80 }, .thread]

/-- Its RREQ. -/
def callerRreq : Rreq where
  tos := 0
  numHops := 0
  gateway := 0
  dstIp := 0x0101a8c0
  srcIp := 0x0201a8c0
  dstId := 2
  pathMetric := 0
  dttl := 0

/-- 192.168.1.1 hears both. -/
def hearCaller : List Event :=
  [.input (packetAt 0x0201a8c0 0x0101a8c0 1 (.hello ⟨0, 0, 1, []⟩)), .thread,
    .input (packetAt 0x0201a8c0 0x0101a8c0 10 (.rreq callerRreq))]

/-- The task in which 192.168.1.1 is left with the RREQ. -/
def callerTask : Task :=
  { createTask .recvRreq 0 with
    dstIp := gBroadcastIp
    srcIp := 0x0201a8c0
    ttl := 10
    data := some (.rreq callerRreq) }

theorem caller_runs : ∃ n, runs callerEvents (stations 0x0201a8c0) = some n ∧ n.localDstId = some 2 ∧
    n.sent = [.broadcast 1 (.hello ⟨0, 0, 1, []⟩), .broadcast 10 (.rreq callerRreq)] := by
  have hrun : (runs callerEvents (stations 0x0201a8c0)).map (fun n ↦ (n.localDstId, n.sent)) =
      some (some 2, [.broadcast 1 (.hello ⟨0, 0, 1, []⟩), .broadcast 10 (.rreq callerRreq)]) := by
    decide +kernel
  obtain ⟨n, hn, hfacts⟩ := Option.map_eq_some_iff.mp hrun
  exact ⟨n, hn, congrArg Prod.fst hfacts, congrArg Prod.snd hfacts⟩

section Caller

variable {net₀ net : Network} {b : Node} {es : List Event} {n : Node}

theorem caller_fresh (hb : b.localDstId = some 2)
    (hsent : b.sent = [.broadcast 1 (.hello ⟨0, 0, 1, []⟩), .broadcast 10 (.rreq callerRreq)])
    (hnet : net 0x0201a8c0 = b) : Fresh net 0x0201a8c0 2 := by
  rintro k (⟨c, hc, hk⟩ | ⟨a, k', ha, hk, s, hs, m, hm, hid⟩)
  · rw [hnet, hb] at hc
    exact Option.some.inj hc ▸ hk
  · rcases ha with rfl | ha
    · rw [hnet, hsent] at hs
      rcases List.mem_cons.mp hs with rfl | hs
      · obtain rfl := Option.some.inj hm
        cases hid
      · obtain rfl := List.mem_singleton.mp hs
        obtain rfl := Option.some.inj hm
        obtain rfl : 2 = k' := congrArg Prod.snd (Option.some.inj hid)
        exact hk
    · exact absurd ha (by decide)

theorem hear_inputs (hsent : b.sent = [.broadcast 1 (.hello ⟨0, 0, 1, []⟩), .broadcast 10 (.rreq callerRreq)])
    (hnet : net 0x0201a8c0 = b) (hes : ∀ p, .input p ∈ es → .input p ∈ hearCaller) :
    ∀ p, .input p ∈ es → p.ifaAddress = 0x0101a8c0 ∧ p.saddr ≠ 0x0101a8c0 ∧
      ∀ m, p.message = some m → ∃ s ∈ (net p.saddr).sent, s.reaches 0x0101a8c0 p.ttl m := by
  intro p hp
  have hp := hes p hp
  simp only [hearCaller, List.mem_cons, Event.input.injEq, reduceCtorEq, List.not_mem_nil, or_false,
    false_or] at hp
  rcases hp with rfl | rfl
  · refine ⟨rfl, by decide, fun m hm ↦ ⟨.broadcast 1 m, ?_, rfl, rfl⟩⟩
    obtain rfl := Option.some.inj hm
    show _ ∈ (net 0x0201a8c0).sent
    rw [hnet, hsent]
    exact List.mem_cons_self
  · refine ⟨rfl, by decide, fun m hm ↦ ⟨.broadcast 10 m, ?_, rfl, rfl⟩⟩
    obtain rfl := Option.some.inj hm
    show _ ∈ (net 0x0201a8c0).sent
    rw [hnet, hsent]
    exact List.mem_cons_of_mem _ List.mem_cons_self

end Caller

theorem callerTask_call {n : Node} {tasks : ClassQueue Task}
    (hcfg : n.cfg.gMeshIp = 0x0101a8c0 ∧ n.cfg.gAodvGateway = false ∧ n.cfg.gRoutingMetric = .hops)
    {x : AodvNeigh} (hx : n.findAodvNeigh 0x0201a8c0 = some x) :
    RouteCall { n with tasks := tasks } callerTask n.routing ⟨0x0101a8c0, 0x0201a8c0, 0, x, 1, 2, 1⟩ := by
  refine .rreq (n := { n with tasks := tasks }) (m := callerRreq) rfl rfl ⟨rfl, hx, ?_, ?_, ?_⟩
  · show n.cfg.gMeshIp ≠ _
    rw [hcfg.1]
    decide
  · show (n.cfg.gAodvGateway && _ && _) = false
    rw [hcfg.2.1]
    rfl
  · have hmetric : (updateNeighLifetime x.ip { n with tasks := tasks }).cfg.gRoutingMetric = .hops :=
      hcfg.2.2
    rw [rreqMetric, hmetric]
    rfl

/-- 192.168.1.1 has looked for two others before it meets the caller, so that the
route to the new neighbour gets the number 3 of 192.168.1.1. The RREQ of the
caller has the number 2. -/
theorem fresh_rreq_rejected : ∃ net t tasks c x, Run (fun _ _ _ _ ↦ True) stations net ∧
    (net 0x0101a8c0).tasks.pop = (some t, tasks) ∧
    RouteCall { net 0x0101a8c0 with tasks := tasks } t (net 0x0101a8c0).routing c ∧
    Fresh net c.dstIp c.dstId ∧
    (net 0x0101a8c0).routing.findAodvRoute c.srcIp c.dstIp c.tos = some x ∧ x.dstId > c.dstId := by
  have hrun : (runs ([.output (packetTo 0x0801a8c0), .thread, .output (packetTo 0x0901a8c0), .thread] ++
      hearCaller) (stations 0x0101a8c0)).map (fun n ↦ ((n.cfg.gMeshIp, n.cfg.gAodvGateway, n.cfg.gRoutingMetric),
        (n.findAodvNeigh 0x0201a8c0).isSome, n.tasks.pop.1,
        (n.routing.findAodvRoute 0x0101a8c0 0x0201a8c0 0).map AodvRoute.dstId)) =
      some ((0x0101a8c0, false, .hops), true, some callerTask, some 3) := by
    decide +kernel
  obtain ⟨n, hn, hfacts⟩ := Option.map_eq_some_iff.mp hrun
  simp only [Prod.mk.injEq] at hfacts
  obtain ⟨hcfg, hneigh, hpop, hfind⟩ := hfacts
  obtain ⟨x, hx⟩ := Option.isSome_iff_exists.mp hneigh
  obtain ⟨e, he, hid⟩ := Option.map_eq_some_iff.mp hfind
  obtain ⟨b, hb, hcounter, hsent⟩ := caller_runs
  have hfirst : Run (fun _ _ _ _ ↦ True) stations (Function.update stations 0x0201a8c0 b) :=
    Run.alone ⟨stations_initial, .refl⟩ (by decide) (by simp [callerEvents])
      (Lockstep.along_of_forall (fun _ _ _ _ _ ↦ trivial) _) hb
  have hcaller : Function.update stations 0x0201a8c0 b 0x0201a8c0 = b := Function.update_self _ _ _
  have hstation : Function.update stations 0x0201a8c0 b 0x0101a8c0 = stations 0x0101a8c0 :=
    Function.update_of_ne (by decide) _ _
  have hsecond := hfirst.alone (a := 0x0101a8c0) (by decide)
    (hear_inputs hsent hcaller fun p hp ↦ ?_) (Lockstep.along_of_forall (fun _ _ _ _ _ ↦ trivial) _)
    (hstation.symm ▸ hn)
  · refine ⟨_, callerTask, n.tasks.pop.2, ⟨0x0101a8c0, 0x0201a8c0, 0, x, 1, 2, 1⟩, e, hsecond, ?_⟩
    rw [Function.update_self]
    refine ⟨Prod.ext hpop rfl, callerTask_call hcfg hx, caller_fresh hcounter hsent ?_, he, ?_⟩
    · rw [Function.update_of_ne (by decide), hcaller]
    · show e.dstId > 2
      rw [hid]
      decide
  · rcases List.mem_append.mp hp with hp | hp
    · simp at hp
    · exact hp

/-- What is seen of a step in which at most a HELLO of `b` leads to a new entry,
and that while the counter is not above `k`. -/
def isSober (b : Ip) (k : UInt32) (n : Node) (e : Event) : Bool :=
  ((n.step e).all fun n' ↦ n'.localDstId.all fun c' ↦ n.localDstId.all fun c ↦ decide (c ≤ c')) &&
    n.tasks.pop.1.all fun t ↦ t.type != .sendRrep && t.type != .recvRrep &&
      (t.type != .recvHello || t.srcIp == b && n.localDstId.all fun c ↦ decide (c ≤ k))

theorem Issued.le {net : Network} {b : Ip} {k k' : UInt32} (h : Issued net b k) (hk : k' ≤ k) :
    Issued net b k' := by
  rcases h with ⟨c, hc, hkc⟩ | ⟨a, k₁, ha, hk₁, hs⟩
  · exact .inl ⟨c, hc, UInt32.le_trans hk hkc⟩
  · exact .inr ⟨a, k₁, ha, UInt32.le_trans hk hk₁, hs⟩

theorem steady_of_isSober {net : Network} {a b : Ip} {k : UInt32} {n n' : Node} {e : Event}
    (hk : Issued (Function.update net a n) b k) (h : isSober b k n e = true) (hn' : n.step e = some n') :
    Steady (Function.update net a n) a e n' := by
  rw [isSober, Bool.and_eq_true, hn', Option.all_some] at h
  refine ⟨fun c c' hc hc' ↦ ?_, fun t tasks _ hpop _ new hnew ↦ ?_⟩
  · rw [Function.update_self] at hc
    have hrise := h.1
    rw [hc', Option.all_some, hc, Option.all_some, decide_eq_true_eq] at hrise
    exact hrise
  · rw [Function.update_self] at hpop hnew
    have htask := h.2
    rw [hpop, Option.all_some] at htask
    simp only [Bool.and_eq_true, bne_iff_ne, ne_eq, Bool.or_eq_true, beq_iff_eq] at htask
    obtain ⟨⟨hanswer, hforward⟩, hhello⟩ := htask
    cases hnew with
    | neigh htype _ hdstId hnew =>
      rcases hhello with hnot | ⟨hsrc, hle⟩
      · exact absurd htype hnot
      have hcount : n.localDstId = some _ := hdstId
      rw [hcount, Option.all_some, decide_eq_true_eq] at hle
      subst hnew
      show Issued _ t.srcIp _
      rw [hsrc]
      exact hk.le hle
    | answer htype => exact absurd htype hanswer
    | forward htype => exact absurd htype hforward

/-- Without the two discoveries the RREQ of the caller is no older than the route
to the neighbour. -/
theorem fresh_not_older_caller : ∃ net tasks x, Run Steady stations net ∧
    (net 0x0101a8c0).tasks.pop = (some callerTask, tasks) ∧
    (net 0x0101a8c0).routing.findAodvRoute 0x0101a8c0 0x0201a8c0 0 = some x ∧
    Issued net x.dstIp x.dstId ∧ ¬ x.dstId > 2 := by
  have hrun : (runs hearCaller (stations 0x0101a8c0)).map (fun n ↦
      ((n.cfg.gMeshIp, n.cfg.gAodvGateway, n.cfg.gRoutingMetric), (n.findAodvNeigh 0x0201a8c0).isSome,
        n.tasks.pop.1, (n.routing.findAodvRoute 0x0101a8c0 0x0201a8c0 0).isSome)) =
      some ((0x0101a8c0, false, .hops), true, some callerTask, true) := by
    decide +kernel
  obtain ⟨n, hn, hfacts⟩ := Option.map_eq_some_iff.mp hrun
  simp only [Prod.mk.injEq] at hfacts
  obtain ⟨hcfg, hneigh, hpop, hfind⟩ := hfacts
  obtain ⟨x, hx⟩ := Option.isSome_iff_exists.mp hneigh
  obtain ⟨e, he⟩ := Option.isSome_iff_exists.mp hfind
  obtain ⟨b, hb, hcounter, hsent⟩ := caller_runs
  have hcaller : Function.update stations 0x0201a8c0 b 0x0201a8c0 = b := Function.update_self _ _ _
  have hstation : Function.update stations 0x0201a8c0 b 0x0101a8c0 = stations 0x0101a8c0 :=
    Function.update_of_ne (by decide) _ _
  have hfirst : Run Steady stations (Function.update stations 0x0201a8c0 b) := by
    refine Run.alone ⟨stations_initial, .refl⟩ (by decide) (by simp [callerEvents]) ?_ hb
    have hsober : Lockstep.Along Node.step (fun n e ↦ isSober 0x0301a8c0 1 n e = true) callerEvents
        (stations 0x0201a8c0) := by
      decide +kernel
    refine hsober.mono fun k e h k' hk' ↦ steady_of_isSober (.inl ⟨1, ?_, UInt32.le_refl _⟩) h hk'
    rw [Function.update_of_ne (by decide)]
    decide +kernel
  have hsecond : Run Steady stations (Function.update (Function.update stations 0x0201a8c0 b) 0x0101a8c0 n) := by
    refine hfirst.alone (by decide) (hear_inputs hsent hcaller fun _ hp ↦ hp) ?_ (hstation.symm ▸ hn)
    have hsober : Lockstep.Along Node.step (fun n e ↦ isSober 0x0201a8c0 2 n e = true) hearCaller
        (stations 0x0101a8c0) := by
      decide +kernel
    rw [hstation]
    refine hsober.mono fun k e h k' hk' ↦ steady_of_isSober (.inl ⟨2, ?_, UInt32.le_refl _⟩) h hk'
    rw [Function.update_of_ne (by decide), hcaller, hcounter]
  obtain ⟨hissued, hfresh⟩ := fresh_not_older hsecond
  have hpop' : (Function.update (Function.update stations 0x0201a8c0 b) 0x0101a8c0 n 0x0101a8c0).tasks.pop =
      (some callerTask, n.tasks.pop.2) := by
    rw [Function.update_self]
    exact Prod.ext hpop rfl
  have hcopies : CopiesIssued (Function.update (Function.update stations 0x0201a8c0 b) 0x0101a8c0 n)
      0x0101a8c0 callerTask n.tasks.pop.2 := by
    intro _ new hnew
    rcases hnew with ⟨htype, -⟩ | ⟨htype, -⟩ | ⟨htype, -⟩ <;> cases htype
  refine ⟨_, n.tasks.pop.2, e, hsecond, hpop', ?_, ?_, ?_⟩
  · rw [Function.update_self]
    exact he
  · refine hissued 0x0101a8c0 e ?_
    rw [Function.update_self]
    exact (findAodvRoute_some he).1
  · refine hfresh 0x0101a8c0 callerTask n.tasks.pop.2 n.routing ⟨0x0101a8c0, 0x0201a8c0, 0, x, 1, 2, 1⟩ e hpop'
      hcopies ?_ (caller_fresh hcounter hsent ?_) he
    · rw [Function.update_self]
      exact callerTask_call hcfg hx
    · rw [Function.update_of_ne (by decide), hcaller]

end Fbaodv.Proofs.FreshNumbers
