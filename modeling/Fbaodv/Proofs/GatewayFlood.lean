import Fbaodv.Proofs.NeighLoss
import Fbaodv.Proofs.OwnNumber

namespace Fbaodv.Proofs.GatewayFlood

open Fbaodv.Model Fbaodv.Model.Node Fbaodv.Foundation
open Fbaodv.Proofs.NodeRun Fbaodv.Proofs.NeighLoss Fbaodv.Proofs.NetRuns Fbaodv.Proofs.OwnNumber
open Fbaodv.Proofs.PacketDiscovery

/-- The entry of a gateway in the list. -/
def gwEntry (g : Ip) (n : Node) : Option GwEntry := n.gwList.find? fun x ↦ x.ip == g

/-- The metric of the way to the gateway over the neighbour `x`. -/
def stMetric (x : AodvNeigh) (m : RreqSt) (n : Node) : Option UInt32 :=
  if n.cfg.gRoutingMetric = .hops then some (m.numHops + 1).toUInt32 else ettMetric x m.pathMetric

/-- What a received ST-RREQ says about the gateway `g`: the number and the
metric with which `recv_rreq_st` calls `update_gw`. -/
def announced (g : Ip) (t : Task) (m : RreqSt) (n : Node) : Option (UInt32 × UInt32) :=
  match n.findAodvNeigh t.srcIp with
  | none => none
  | some x =>
    if m.gwIp = g ∧ n.cfg.gMeshIp ≠ g then (stMetric x m n).map fun metric ↦ (m.dstId, metric)
    else none

/-- A transmission that passes on an announcement of the gateway. -/
def passesOn (g : Ip) (s : Sent) : Bool :=
  match payload s with
  | some (.strreq m) => m.gwIp == g
  | _ => false

/-- How often a step rebroadcasts an announcement of the gateway. -/
def rebroadcasts (g : Ip) (n : Node) (e : Event) (n' : Node) : ℕ :=
  if taskOf n e = some .recvStrreq then (n'.sent.drop n.sent.length).countP (passesOn g) else 0

/-- The entry knows the announcement as well, or better. -/
def Outdated (x : GwEntry) (dstId metric : UInt32) : Prop :=
  dstId < x.dstId ∨ x.dstId = dstId ∧ x.metric < metric

/-- What `recv_rreq_st` makes of an ST-RREQ for the entry of `g` and for its
announcements: it passes on `k`. -/
inductive GwUpdate (g : Ip) (t : Task) (m : RreqSt) (n n' : Node) (k : ℕ) : Prop
  | ignored (hsame : gwEntry g n' = gwEntry g n) (hk : k = 0)
      (hold : ∀ x a, gwEntry g n = some x → announced g t m n = some a → Outdated x a.1 a.2)
  | created (hx : gwEntry g n = none) (hk : k ≤ 1)
  | updated {x x' : GwEntry} (hx : gwEntry g n = some x)
      (hann : announced g t m n = some (x'.dstId, x'.metric)) (hnew : ¬ Outdated x x'.dstId x'.metric)
      (hx' : gwEntry g n' = some x') (hk : k = if t.ttl = 1 then 0 else 1)

section Updates

variable {g : Ip} {t : Task} {m : RreqSt} {n n' : Node}

theorem gwEntry_updateGw_of_ne {gwIp : Ip} (hne : gwIp ≠ g) (dstId : UInt32) (numHops : UInt8)
    (metric : UInt32) (n : Node) : gwEntry g (n.updateGw gwIp dstId numHops metric).2 = gwEntry g n := by
  unfold updateGw
  split
  · split
    · rfl
    split
    · rfl
    · refine OrderedList.find?_modifyFirst_of_neg (fun x hx ↦ ?_) n.gwList
      have hx : x.ip = gwIp := by simpa using hx
      have hfalse : (x.ip == g) = false := by simpa [hx] using hne
      exact ⟨hfalse, hfalse⟩
  · dsimp only
    split
    · rfl
    · exact List.find?_cons_of_neg (by simpa using hne)

theorem sent_updateGw (gwIp : Ip) (dstId : UInt32) (numHops : UInt8) (metric : UInt32) (n : Node) :
    (n.updateGw gwIp dstId numHops metric).2.sent = n.sent := by
  obtain ⟨gwList, kmalloc, heq⟩ := updateGw_frame gwIp dstId numHops metric n
  rw [heq]

theorem updateGw_of_entry {x : GwEntry} (dstId metric : UInt32) (numHops : UInt8) (hx : gwEntry g n = some x) :
    n.updateGw g dstId numHops metric = (false, n) ∧ Outdated x dstId metric ∨
      ¬ Outdated x dstId metric ∧ (n.updateGw g dstId numHops metric).1 = true ∧
        ∃ x', gwEntry g (n.updateGw g dstId numHops metric).2 = some x' ∧ x'.dstId = dstId ∧
          x'.metric = metric := by
  unfold updateGw
  have hfind : n.gwList.find? (fun x ↦ x.ip == g) = some x := hx
  rw [hfind]
  dsimp only
  by_cases hlater : x.dstId > dstId
  · rw [if_pos hlater]
    exact .inl ⟨rfl, .inl hlater⟩
  rw [if_neg hlater]
  by_cases hbetter : x.dstId = dstId ∧ x.metric < metric
  · rw [if_pos hbetter]
    exact .inl ⟨rfl, .inr hbetter⟩
  rw [if_neg hbetter]
  refine .inr ⟨not_or.mpr ⟨hlater, hbetter⟩, rfl, ?_⟩
  have hupdate := OrderedList.find?_modifyFirst (p := fun x : GwEntry ↦ x.ip == g)
    (f := fun x ↦ { x with
      metric := metric, numHops := numHops, lifetime := n.now + activeGwrouteTimeout, dstId := dstId })
    (fun _ ↦ rfl) n.gwList
  rw [hfind] at hupdate
  exact ⟨_, hupdate, rfl, rfl⟩

theorem ttl_pred_lt_one (ttl : UInt8) : ttl - 1 < 1 ↔ ttl = 1 := by
  rw [UInt8.lt_iff_toNat_lt, ← UInt8.toNat_inj, UInt8.toNat_sub]
  have hlt : ttl.toNat < 256 := ttl.toNat_lt
  have hone : (1 : UInt8).toNat = 1 := rfl
  rw [hone]
  omega

/-- The end of `recv_rreq_st`: the announcement is passed on if `update_gw`
says so. -/
theorem passOn_appended (ok : Bool) (ttl : UInt8) (m : RreqSt) (n : Node) :
    ∃ l, (if ok then n.localBroadcast (ttl - 1) (.strreq m) else n).sent = n.sent ++ l ∧
      gwEntry g (if ok then n.localBroadcast (ttl - 1) (.strreq m) else n) = gwEntry g n ∧
      l.countP (passesOn g) = if ok = true ∧ m.gwIp = g ∧ ttl ≠ 1 then 1 else 0 := by
  cases ok with
  | false => exact ⟨[], (List.append_nil _).symm, rfl, rfl⟩
  | true =>
    simp only [localBroadcast, ttl_pred_lt_one, if_true]
    by_cases httl : ttl = 1
    · rw [if_pos httl]
      exact ⟨[], (List.append_nil _).symm, rfl, by simp [httl]⟩
    · rw [if_neg httl]
      exact ⟨_, rfl, rfl, by simp [passesOn, payload, httl]⟩

theorem recvRreqSt_updates (g : Ip) (t : Task) (m : RreqSt) (n : Node) :
    ∃ l, (n.recvRreqSt t m).sent = n.sent ++ l ∧
      GwUpdate g t m n (n.recvRreqSt t m) (l.countP (passesOn g)) := by
  have hignore : ∀ n', n'.sent = n.sent → gwEntry g n' = gwEntry g n → announced g t m n = none →
      ∃ l, n'.sent = n.sent ++ l ∧ GwUpdate g t m n n' (l.countP (passesOn g)) :=
    fun n' hsent hsame hnone ↦ ⟨[], by rw [hsent, List.append_nil], .ignored hsame rfl fun _ _ _ h ↦ by
      rw [hnone] at h
      cases h⟩
  unfold recvRreqSt
  split
  · next hx => exact hignore _ rfl rfl (by rw [announced, hx])
  next y hy =>
  dsimp only
  split
  · next hself =>
    refine hignore _ rfl rfl ?_
    simp only [announced, hy]
    exact if_neg fun h ↦ h.2 (hself.trans h.1)
  next hself =>
  generalize hn₁ : n.updateNeighLifetime y.ip = n₁ at hself ⊢
  have hentry₁ : gwEntry g n₁ = gwEntry g n := hn₁ ▸ rfl
  have hsent₁ : n₁.sent = n.sent := hn₁ ▸ rfl
  have hcfg₁ : n₁.cfg = n.cfg := hn₁ ▸ rfl
  have hmetric : (if n₁.cfg.gRoutingMetric = .hops then some (m.numHops + 1).toUInt32
      else ettMetric y m.pathMetric) = stMetric y m n := by rw [hcfg₁]; rfl
  rw [hmetric]
  split
  · next hnone =>
    refine hignore _ hsent₁ hentry₁ ?_
    simp only [announced, hy, hnone]
    split <;> rfl
  next metric hsome =>
  obtain ⟨l, hl, hpassed, hcount⟩ := passOn_appended (g := g)
    (n₁.updateGw m.gwIp m.dstId (m.numHops + 1) metric).1 t.ttl
    { m with numHops := m.numHops + 1, pathMetric := metric }
    (n₁.updateGw m.gwIp m.dstId (m.numHops + 1) metric).2
  refine ⟨l, by rw [hl, sent_updateGw, hsent₁], ?_⟩
  by_cases hgw : m.gwIp = g
  · have hann : announced g t m n = some (m.dstId, metric) := by
      simp only [announced, hy, hsome, Option.map_some]
      exact if_pos ⟨hgw, fun h ↦ hself ((congrArg Config.gMeshIp hcfg₁).trans (h.trans hgw.symm))⟩
    cases hx : gwEntry g n with
    | none =>
      refine .created hx ?_
      rw [hcount]
      split
      · exact le_rfl
      · exact Nat.zero_le _
    | some x =>
      rw [hgw] at hcount hpassed ⊢
      rcases updateGw_of_entry m.dstId metric (m.numHops + 1)
        (hentry₁.trans hx) with ⟨hkept, hold⟩ | ⟨hnew, hok, x', hx', hid, hmetric⟩
      · rw [hkept] at hcount hpassed ⊢
        refine .ignored (hpassed.trans hentry₁) (by simpa using hcount) fun x₁ a hx₁ ha ↦ ?_
        obtain rfl := Option.some.inj (hx.symm.trans hx₁)
        obtain rfl := Option.some.inj (hann.symm.trans ha)
        exact hold
      · refine .updated hx ?_ ?_ (hpassed.trans hx') ?_
        · rw [hann, hid, hmetric]
        · rwa [hid, hmetric]
        · rw [hcount, hok]
          by_cases httl : t.ttl = 1
          · simp [httl]
          · simp [httl]
  · have hnone : announced g t m n = none := by
      simp only [announced, hy]
      exact if_neg fun h ↦ hgw h.1
    refine .ignored ?_ ?_ fun _ _ _ h ↦ by
      rw [hnone] at h
      cases h
    · rw [hpassed, gwEntry_updateGw_of_ne hgw, hentry₁]
    · rw [hcount]
      exact if_neg fun h ↦ hgw h.2.1

end Updates

/-- The thread takes an ST-RREQ that says about the gateway what its entry
already knows, and that has hops left. -/
def Repeats (g : Ip) (n : Node) (e : Event) : Prop :=
  ∃ t tasks m x, e = .thread ∧ n.tasks.pop = (some t, tasks) ∧ t.type = .recvStrreq ∧
    t.data = some (.strreq m) ∧ gwEntry g n = some x ∧ announced g t m n = some (x.dstId, x.metric) ∧
    t.ttl ≠ 1

/-- A run between two increases of the number that is stored for the gateway,
while its entry stays: how often it rebroadcast, and how often the metric of the
entry went down. -/
inductive Window (C : Node → Event → Prop) (g : Ip) : ℕ → ℕ → Node → Prop
  | start {n : Node} {x : GwEntry} (hx : gwEntry g n = some x) : Window C g 0 0 n
  | opened {n n' : Node} {e : Event} {x' : GwEntry} (hs : n.step e = some n')
      (hx' : gwEntry g n' = some x') (hnew : ∀ x, gwEntry g n = some x → x.dstId < x'.dstId) :
      Window C g (rebroadcasts g n e n') 0 n'
  | step {n n' : Node} {e : Event} {r d : ℕ} {x x' : GwEntry} (h : Window C g r d n) (hC : C n e)
      (hs : n.step e = some n') (hx : gwEntry g n = some x) (hx' : gwEntry g n' = some x')
      (hsame : ¬ x.dstId < x'.dstId) :
      Window C g (r + rebroadcasts g n e n') (d + if x'.metric < x.metric then 1 else 0) n'

section Windows

variable {g : Ip} {n n' : Node} {e : Event} {r d : ℕ}

theorem drop_of_append {s s' l : List Sent} (h : s' = s ++ l) : s'.drop s.length = l := by
  rw [h, List.drop_left]

theorem handle_updates (g : Ip) {t : Task} {tasks : ClassQueue Task} (htype : t.type = .recvStrreq)
    (h : ({ n with tasks := tasks } : Node).handle t = some n') :
    (∀ m, t.data ≠ some (.strreq m)) ∧ n'.sent = n.sent ∨
      ∃ m, t.data = some (.strreq m) ∧ GwUpdate g t m n n' ((n'.sent.drop n.sent.length).countP (passesOn g)) := by
  have hidle : ({ n with tasks := tasks } : Node).handle t = some { n with tasks := tasks } →
      n'.sent = n.sent := fun hidle ↦ by
    obtain rfl := Option.some.inj (hidle.symm.trans h)
    rfl
  cases hdata : t.data with
  | none => exact .inl ⟨fun _ heq ↦ (by cases heq), hidle (by rw [handle, htype, hdata])⟩
  | some message =>
    cases message with
    | strreq m =>
      rw [handle, htype, hdata] at h
      obtain rfl := Option.some.inj h
      obtain ⟨l, hl, hupdate⟩ := recvRreqSt_updates g t m { n with tasks := tasks }
      refine .inr ⟨m, rfl, ?_⟩
      rw [drop_of_append hl]
      cases hupdate with
      | ignored hsame hk hold => exact .ignored hsame hk hold
      | created hx hk => exact .created hx hk
      | updated hx hann hnew hx' hk => exact .updated hx hann hnew hx' hk
    | _ => exact .inl ⟨fun _ heq ↦ (by cases heq), hidle (by rw [handle, htype, hdata])⟩

theorem step_updates (g : Ip) (hs : n.step e = some n') : rebroadcasts g n e n' = 0 ∨
    ∃ t tasks m, e = .thread ∧ n.tasks.pop = (some t, tasks) ∧ t.type = .recvStrreq ∧
      t.data = some (.strreq m) ∧ GwUpdate g t m n n' (rebroadcasts g n e n') := by
  by_cases htask : taskOf n e = some .recvStrreq
  · cases e with
    | thread =>
      obtain ⟨t, ht, htype⟩ := Option.map_eq_some_iff.mp htask
      have hpop : n.tasks.pop = (some t, n.tasks.pop.2) := by rw [← ht]
      simp only [Node.step, threadStep] at hs
      rw [hpop] at hs
      rw [rebroadcasts, if_pos htask]
      rcases handle_updates g htype hs with ⟨-, hsent⟩ | ⟨m, hdata, hupdate⟩
      · rw [hsent, List.drop_length]
        exact .inl rfl
      · exact .inr ⟨t, _, m, rfl, hpop, htype, hdata, hupdate⟩
    | wait | input | output | signal => cases htask
  · exact .inl (if_neg htask)

theorem GwUpdate.le_one {t : Task} {m : RreqSt} {k : ℕ} (h : GwUpdate g t m n n' k) : k ≤ 1 := by
  cases h with
  | ignored _ hk => exact hk.le.trans (Nat.zero_le 1)
  | created _ hk => exact hk
  | updated _ _ _ _ hk =>
    rw [hk]
    split <;> simp

theorem step_le {x x' : GwEntry} (hrepeats : ¬ Repeats g n e) (hs : n.step e = some n')
    (hx : gwEntry g n = some x) (hx' : gwEntry g n' = some x') (hsame : ¬ x.dstId < x'.dstId) :
    rebroadcasts g n e n' ≤ if x'.metric < x.metric then 1 else 0 := by
  rcases step_updates g hs with hnone | ⟨t, tasks, m, he, hpop, htype, hdata, hupdate⟩
  · rw [hnone]
    exact Nat.zero_le _
  cases hupdate with
  | ignored _ hk =>
    rw [hk]
    exact Nat.zero_le _
  | created hnone => cases hnone.symm.trans hx
  | @updated x₀ x₁ hx₀ hann hnew hx₁ hk =>
    obtain rfl := Option.some.inj (hx.symm.trans hx₀)
    obtain rfl := Option.some.inj (hx'.symm.trans hx₁)
    obtain ⟨hlater, hbetter⟩ := not_or.mp hnew
    have hid : x.dstId = x'.dstId := UInt32.le_antisymm (UInt32.not_lt.mp hlater) (UInt32.not_lt.mp hsame)
    by_cases himproves : x'.metric < x.metric
    · rw [if_pos himproves, hk]
      split <;> simp
    · -- the announcement is the one that the entry has
      have hmetric : x.metric = x'.metric :=
        UInt32.le_antisymm (UInt32.not_lt.mp himproves) (UInt32.not_lt.mp fun h ↦ hbetter ⟨hid, h⟩)
      have httl : t.ttl = 1 := by
        by_contra httl
        rw [← hid, ← hmetric] at hann
        exact hrepeats ⟨t, tasks, m, x, he, hpop, htype, hdata, hx, hann, httl⟩
      rw [hk, if_pos httl]
      exact Nat.zero_le _

/-- As long as no announcement comes again, a node passes on at most one for
each number and one for each improvement. One that comes again is passed on. -/
theorem flood_forwards_improvements (h : Window (fun n e ↦ ¬ Repeats g n e) g r d n) :
    r ≤ 1 + d ∧ ∀ e n', n.step e = some n' → Repeats g n e → rebroadcasts g n e n' = 1 := by
  refine ⟨?_, fun e n' hs hrepeats ↦ ?_⟩
  · induction h with
    | start => exact Nat.zero_le _
    | opened hs =>
      rcases step_updates g hs with hnone | ⟨_, _, _, -, -, -, -, hupdate⟩
      · rw [hnone]
        exact Nat.zero_le _
      · exact hupdate.le_one
    | step _ hC hs hx hx' hsame ih => exact (Nat.add_le_add ih (step_le hC hs hx hx' hsame)).trans (by omega)
  · obtain ⟨t, tasks, m, x, rfl, hpop, htype, hdata, hx, hann, httl⟩ := hrepeats
    have htask : taskOf n .thread = some .recvStrreq := by
      rw [taskOf, hpop]
      exact congrArg some htype
    simp only [Node.step, threadStep] at hs
    rw [hpop] at hs
    rw [rebroadcasts, if_pos htask]
    have hnot : ¬ Outdated x x.dstId x.metric := by
      rintro (hlt | ⟨-, hlt⟩)
      all_goals exact absurd hlt (UInt32.lt_irrefl _)
    rcases handle_updates g htype hs with ⟨hnone, -⟩ | ⟨m', hdata', hupdate⟩
    · exact absurd hdata (hnone m)
    · obtain rfl := Message.strreq.inj (Option.some.inj (hdata.symm.trans hdata'))
      cases hupdate with
      | ignored _ _ hold => exact absurd (hold x _ hx hann) hnot
      | created hnone => cases hnone.symm.trans hx
      | updated _ _ _ _ hk => rw [hk, if_neg httl]

end Windows

/-- The number and the metric of a gateway's entry. -/
def stored (g : Ip) (n : Node) : Option (UInt32 × UInt32) := (gwEntry g n).map fun x ↦ (x.dstId, x.metric)

/-- What the next task says about the gateway. -/
def announcedNext (g : Ip) (n : Node) : Option (UInt32 × UInt32) :=
  n.tasks.pop.1.bind fun t ↦
    match t.data with
    | some (.strreq m) => announced g t m n
    | _ => none

theorem not_repeats {g : Ip} {n : Node} (h : announcedNext g n ≠ stored g n) : ¬ Repeats g n .thread := by
  rintro ⟨t, tasks, m, x, -, hpop, -, hdata, hx, hann, -⟩
  apply h
  rw [announcedNext, hpop, stored, hx]
  simp only [Option.bind_some, hdata, hann, Option.map_some]

/-- An ST-RREQ of the gateway 192.168.1.5 comes over so many hops. -/
def announcement (numHops : UInt8) : Event := .input (heard 0x0201a8c0 (.strreq ⟨numHops, 0x0501a8c0, 1, 0⟩))

/-- The station hears it over `a` hops and over `b` hops: whether it passes on
both, and what its entry has and is told when the second is taken. -/
def hearTwice (a b : UInt8) : Option (Bool × Option (UInt32 × UInt32) × Option (UInt32 × UInt32)) := do
  let n₀ ← metStation.step (announcement a)
  let n₁ ← n₀.step .thread
  let n₂ ← n₁.step (announcement b)
  let n₃ ← n₂.step .thread
  some (stored 0x0501a8c0 n₀ == none && stored 0x0501a8c0 n₁ == some (1, (a + 1).toUInt32) &&
      rebroadcasts 0x0501a8c0 n₀ .thread n₁ == 1 && rebroadcasts 0x0501a8c0 n₂ .thread n₃ == 1 &&
      stored 0x0501a8c0 n₃ == some (1, (b + 1).toUInt32),
    stored 0x0501a8c0 n₂, announcedNext 0x0501a8c0 n₂)

theorem window_of_hearTwice {C : Node → Event → Prop} {a b : UInt8} {told : Option (UInt32 × UInt32)}
    (h : hearTwice a b = some (true, some (1, (a + 1).toUInt32), told))
    (hquiet : ∀ n, C n (announcement b))
    (hC : ∀ n, stored 0x0501a8c0 n = some (1, (a + 1).toUInt32) → announcedNext 0x0501a8c0 n = told → C n .thread) :
    ∃ n, Reachable n ∧
      Window C 0x0501a8c0 2 (if (b + 1).toUInt32 < (a + 1).toUInt32 then 1 else 0) n := by
  simp only [hearTwice, Option.bind_eq_bind, Option.bind_eq_some_iff, Option.some.injEq, Prod.mk.injEq,
    Bool.and_eq_true, beq_iff_eq] at h
  obtain ⟨n₀, h₀, n₁, h₁, n₂, h₂, n₃, h₃, ⟨⟨⟨⟨hnone, hstored₁⟩, hr₁⟩, hr₃⟩, hstored₃⟩, hstored₂, htold⟩ := h
  obtain ⟨x₁, hx₁, heq₁⟩ := Option.map_eq_some_iff.mp hstored₁
  obtain ⟨x₂, hx₂, heq₂⟩ := Option.map_eq_some_iff.mp hstored₂
  obtain ⟨x₃, hx₃, heq₃⟩ := Option.map_eq_some_iff.mp hstored₃
  simp only [Prod.mk.injEq] at heq₁ heq₂ heq₃
  have hreach : Reachable n₃ :=
    .step (.step (.step (.step metStation_reachable trivial h₀) trivial h₁) trivial h₂) trivial h₃
  have hopened : Window C 0x0501a8c0 1 0 n₁ := hr₁ ▸ .opened h₁ hx₁ fun x hx ↦ by
    rw [stored, hx] at hnone
    cases hnone
  have hwaited : Window C 0x0501a8c0 1 0 n₂ := by
    have hstep := hopened.step (hquiet n₁) h₂ hx₁ hx₂ (by simp [heq₁.1, heq₂.1])
    simpa [heq₁.2, heq₂.2, rebroadcasts, taskOf, announcement] using hstep
  refine ⟨n₃, hreach, ?_⟩
  have hstep := hwaited.step (hC n₂ hstored₂ htold) h₃ hx₂ hx₃ (by simp [heq₂.1, heq₃.1])
  rwa [hr₃, heq₂.2, heq₃.2, Nat.zero_add] at hstep

/-- The gateway is heard of over a long way, then over a shorter one. -/
theorem flood_of_improvement : ∃ n, Reachable n ∧
    Window (fun n e ↦ ¬ Repeats 0x0501a8c0 n e) 0x0501a8c0 2 1 n ∧ 2 ≤ 1 + 1 := by
  have hrun : hearTwice 5 2 = some (true, some (1, 6), some (1, 3)) := by decide +kernel
  obtain ⟨n, hreach, hwindow⟩ := window_of_hearTwice (C := fun n e ↦ ¬ Repeats 0x0501a8c0 n e) hrun
    (by rintro n ⟨_, _, _, _, h, -⟩; cases h) fun n hstored htold ↦ not_repeats (by rw [hstored, htold]; decide)
  exact ⟨n, hreach, hwindow, (flood_forwards_improvements hwindow).1⟩

/-- The same announcement comes twice, and is passed on twice. -/
theorem flood_of_repetition : ∃ n, Reachable n ∧ Window (fun _ _ ↦ True) 0x0501a8c0 2 0 n ∧ ¬ 2 ≤ 1 + 0 := by
  have hrun : hearTwice 5 5 = some (true, some (1, 6), some (1, 6)) := by decide +kernel
  obtain ⟨n, hreach, hwindow⟩ := window_of_hearTwice (C := fun _ _ ↦ True) hrun (fun _ ↦ trivial)
    fun _ _ _ ↦ trivial
  exact ⟨n, hreach, hwindow, by decide⟩

end Fbaodv.Proofs.GatewayFlood
