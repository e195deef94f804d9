import Fbaodv.Foundation.Mirror
import Fbaodv.Proofs.KernelRequests
import Fbaodv.Proofs.SourceTables

namespace Fbaodv.Proofs.KernelRules

open Fbaodv.Model Fbaodv.Model.Node Fbaodv.Model.Rpdb Fbaodv.Foundation
open Fbaodv.Proofs.RouteFrame Fbaodv.Proofs.RoutingInvariant Fbaodv.Proofs.HandlerSpecs
open Fbaodv.Proofs.NodeRun Fbaodv.Proofs.SourceAccounts Fbaodv.Proofs.SourceTables
open Fbaodv.Proofs.PacketDiscovery Fbaodv.Proofs.NeighLoss Fbaodv.Proofs.KernelRequests
open Relation

/-- The tables of a node beside the kernel's rules. `missed` is a history
variable: the number of deletions that were refused. -/
structure Ruled where
  routing : Routing
  rules : Multiset KernelRule
  missed : ℕ

/-- The addresses and route tables of the sources. -/
def sourceKeys (l : List SrcListEntry) : List (Ip × ℕ) := l.map fun s ↦ (s.ip, s.rtTable)

/-- The calls that a step of the node consists of, as far as the sources are
concerned, with what the kernel makes of them. -/
inductive RuleOp (o : ByteOrder) (kernel : Kernel) (cfg : Config) : Ruled → Ruled → Prop
  | insert {r : Routing} {rules rules' : Multiset KernelRule} {ip : Ip} {past : UInt8} (missed : ℕ)
      (hnew : r.findSrcListEntry ip = none)
      (h : kernel.AnswersRule r.netlink.next (r.insertRequest o cfg ip past) rules rules') :
      RuleOp o kernel cfg ⟨r, rules, missed⟩ ⟨(r.insertSrcListEntry cfg ip).2, rules', missed⟩
  | delete {r : Routing} {rules rules' : Multiset KernelRule} {ip : Ip} {past : UInt8} (missed : ℕ)
      (h : kernel.AnswersRule r.netlink.next (r.deleteRequest o cfg ip past) rules rules') :
      RuleOp o kernel cfg ⟨r, rules, missed⟩
        ⟨r.deleteSrcListEntry ip, rules',
          if (r.deleteRequest o cfg ip past).isSome && !r.netlink.next then missed + 1 else missed⟩
  | other {r r' : Routing} (rules : Multiset KernelRule) (missed : ℕ)
      (h : sourceKeys r'.srcList = sourceKeys r.srcList) : RuleOp o kernel cfg ⟨r, rules, missed⟩ ⟨r', rules, missed⟩

def RulePath (o : ByteOrder) (kernel : Kernel) (cfg : Config) : Ruled → Ruled → Prop :=
  ReflTransGen (RuleOp o kernel cfg)

/-- The priorities that the daemon uses. -/
def Mine (k : KernelRule) : Prop := 1000 < k.priority.toNat ∧ k.priority.toNat ≤ 1000 + maxRouteTables

/-- The rules of the listed sources. -/
def listedRules (cfg : Config) (l : List SrcListEntry) : Multiset KernelRule :=
  ((nonNull l).map fun s ↦ ruleOf cfg s.ip s.rtTable : List KernelRule)

/-- The kernel has the rules of the listed sources, those of others, and one
stale rule for each deletion that was refused. -/
structure RulesKept (cfg : Config) (foreign : Multiset KernelRule) (x : Ruled) : Prop where
  allocated : Allocated x.routing.srcList
  rules : Mirrors Mine foreign (listedRules cfg x.routing.srcList) x.rules x.missed

section Lists

variable {cfg : Config} {l l' : List SrcListEntry} {s s' : SrcListEntry}

theorem nonNull_keys (l : List SrcListEntry) :
    (nonNull l).map (fun s ↦ (s.ip, s.rtTable)) = (sourceKeys l).filter fun p ↦ p.1 ≠ gNullIp := by
  rw [nonNull, sourceKeys, List.filter_map]
  rfl

theorem listedRules_eq (cfg : Config) (l : List SrcListEntry) : listedRules cfg l =
    (((sourceKeys l).filter fun p ↦ p.1 ≠ gNullIp).map fun p ↦ ruleOf cfg p.1 p.2 : List KernelRule) := by
  rw [← nonNull_keys, List.map_map, listedRules]
  rfl

theorem listedRules_congr (h : sourceKeys l' = sourceKeys l) : listedRules cfg l' = listedRules cfg l := by
  rw [listedRules_eq, listedRules_eq, h]

theorem mem_keys_iff {p : Ip × ℕ} : p ∈ sourceKeys l ↔ ∃ s ∈ l, (s.ip, s.rtTable) = p := List.mem_map

theorem allocated_congr (h : sourceKeys l' = sourceKeys l) (hl : Allocated l) : Allocated l' := by
  have hips : l'.map SrcListEntry.ip = l.map SrcListEntry.ip := by
    have hfst := congrArg (List.map Prod.fst) h
    rwa [sourceKeys, sourceKeys, List.map_map, List.map_map] at hfst
  have htables : (nonNull l').map SrcListEntry.rtTable = (nonNull l).map SrcListEntry.rtTable := by
    have hkeys : (nonNull l').map (fun s ↦ (s.ip, s.rtTable)) = (nonNull l).map fun s ↦ (s.ip, s.rtTable) := by
      rw [nonNull_keys, nonNull_keys, h]
    have hsnd := congrArg (List.map Prod.snd) hkeys
    rwa [List.map_map, List.map_map] at hsnd
  have hback : ∀ s ∈ l', ∃ s₀ ∈ l, s₀.ip = s.ip ∧ s₀.rtTable = s.rtTable := by
    intro s hs
    have hmem : (s.ip, s.rtTable) ∈ sourceKeys l := h ▸ mem_keys_iff.mpr ⟨s, hs, rfl⟩
    obtain ⟨s₀, hs₀, heq⟩ := mem_keys_iff.mp hmem
    exact ⟨s₀, hs₀, Prod.mk.inj heq⟩
  refine ⟨hips ▸ hl.addresses, htables ▸ hl.tables, ?_, ?_⟩
  · intro s hs hne
    obtain ⟨s₀, hs₀, hip, htable⟩ := hback s hs
    rw [← htable]
    exact hl.range s₀ hs₀ (hip ▸ hne)
  · intro s hs hzero
    obtain ⟨s₀, hs₀, hip, htable⟩ := hback s hs
    rw [← htable]
    exact hl.main s₀ hs₀ (hip.trans hzero)

/-- The priorities are numbers that fit. -/
theorem priority_ruleOf (cfg : Config) (ip : Ip) {rtTable : ℕ} (h : rtTable ≤ maxRouteTables) :
    (ruleOf cfg ip rtTable).priority.toNat = rtTable + 1000 := by
  have hmax : maxRouteTables = 252 := rfl
  rw [ruleOf, UInt32.toNat_ofNat', Nat.mod_eq_of_lt (by omega)]

theorem mine_ruleOf (hl : Allocated l) (hs : s ∈ nonNull l) : Mine (ruleOf cfg s.ip s.rtTable) := by
  obtain ⟨hs, hne⟩ := List.mem_filter.mp hs
  obtain ⟨hlow, hhigh⟩ := hl.range s hs (of_decide_eq_true hne)
  rw [Mine, priority_ruleOf cfg s.ip hhigh]
  omega

theorem mine_of_selected {k : KernelRule} {rtTable : ℕ} (h : Selected rtTable k) (hlow : 1 ≤ rtTable)
    (hhigh : rtTable ≤ maxRouteTables) : Mine k := by
  have hmax : maxRouteTables = 252 := rfl
  rw [Mine, h.1, UInt32.toNat_ofNat', Nat.mod_eq_of_lt (by omega)]
  omega

theorem selected_ruleOf (ip : Ip) (rtTable : ℕ) : Selected rtTable (ruleOf cfg ip rtTable) := ⟨rfl, .inr rfl⟩

theorem perm_filter_ip (h : (l.map SrcListEntry.ip).Nodup) (hs : s ∈ l) :
    l.Perm (s :: l.filter fun x ↦ !(x.ip == s.ip)) := by
  have herase : l.erase s = l.filter fun x ↦ !(x.ip == s.ip) := by
    rw [h.of_map.erase_eq_filter]
    refine List.filter_congr fun x hx ↦ ?_
    by_cases hxs : x = s
    · simp [hxs]
    · have hip : x.ip ≠ s.ip := fun hip ↦ hxs (List.inj_on_of_nodup_map h hx hs hip)
      rw [bne_iff_ne.mpr hxs, beq_false_of_ne hip]
      rfl
  exact herase ▸ List.perm_cons_erase hs

theorem listedRules_cons (hs : s.ip ≠ gNullIp) :
    listedRules cfg (s :: l) = ruleOf cfg s.ip s.rtTable ::ₘ listedRules cfg l := by
  rw [listedRules, nonNull, List.filter_cons_of_pos (by simpa using hs)]
  rfl

theorem listedRules_cons_null (hs : s.ip = gNullIp) : listedRules cfg (s :: l) = listedRules cfg l := by
  rw [listedRules, nonNull, List.filter_cons_of_neg (by simpa using hs)]
  rfl

theorem listedRules_perm (cfg : Config) (h : l.Perm l') : listedRules cfg l = listedRules cfg l' :=
  Multiset.coe_eq_coe.mpr ((h.filter _).map _)

/-- Other sources have other priorities. -/
theorem not_mem_listedRules {k : KernelRule} (hl : Allocated l) (hs : s ∈ nonNull l) (hk : Selected s.rtTable k)
    (hothers : ∀ x ∈ l', x ∈ l ∧ x.ip ≠ s.ip) : k ∉ listedRules cfg l' := by
  intro hmem
  obtain ⟨x, hx, rfl⟩ := List.mem_map.mp (Multiset.mem_coe.mp hmem)
  obtain ⟨hx, hne⟩ := List.mem_filter.mp hx
  obtain ⟨hx, hip⟩ := hothers x hx
  have hx' : x ∈ nonNull l := List.mem_filter.mpr ⟨hx, hne⟩
  have hlow := hl.range x hx (of_decide_eq_true hne)
  obtain ⟨hsl, hsne⟩ := List.mem_filter.mp hs
  have hhigh := hl.range s hsl (of_decide_eq_true hsne)
  have hmax : maxRouteTables = 252 := rfl
  have hpriority : x.rtTable + 1000 = s.rtTable + 1000 := by
    rw [← priority_ruleOf cfg x.ip hlow.2, hk.1, UInt32.toNat_ofNat', Nat.mod_eq_of_lt (by omega)]
  exact hip (congrArg SrcListEntry.ip (List.inj_on_of_nodup_map hl.tables hx' hs (Nat.add_right_cancel hpriority)))

end Lists

section Steps

variable {o : ByteOrder} {kernel : Kernel} {cfg : Config} {foreign : Multiset KernelRule} {x x' : Ruled} {r : Routing}
  {ip : Ip} {past : UInt8}

theorem served_refused {call : Option Bytes} {rules rules' : Multiset KernelRule}
    (h : kernel.AnswersRule false call rules rules') : rules' = rules := by
  cases h with
  | silent => rfl
  | refused => rfl

theorem served_none {ok : Bool} {rules rules' : Multiset KernelRule} (h : kernel.AnswersRule ok none rules rules') :
    rules' = rules := by
  cases h
  rfl

theorem netlink_of_insert (cfg : Config) (hip : ip ≠ gNullIp) (h : (r.insertSrcListEntry cfg ip).1 ≠ none) :
    r.netlink.next = true := by
  by_contra hnext
  have hnext : r.netlink.next = false := by simpa using hnext
  refine h ?_
  simp only [Routing.insertSrcListEntry, Routing.rpdbRule, hnext]
  cases r.kmalloc.next with
  | false => rfl
  | true =>
    simp only [Bool.not_true, Bool.false_eq_true, if_false, if_pos hip]
    split <;> rfl

theorem deleteRequest_of_none (hfind : r.findSrcListEntry ip = none) : r.deleteRequest o cfg ip past = none := by
  rw [Routing.deleteRequest, hfind]

theorem deleteRequest_of_null (hip : ip = gNullIp) : r.deleteRequest o cfg ip past = none := by
  rw [Routing.deleteRequest]
  split
  · rfl
  · rw [if_neg (not_not.mpr hip)]

theorem deleteRequest_of_some {s : SrcListEntry} (hfind : r.findSrcListEntry ip = some s) (hip : ip ≠ gNullIp) :
    r.deleteRequest o cfg ip past = some (rpdbRule o cfg rtmDelrule s.rtTable ip gNullIp past) := by
  rw [Routing.deleteRequest, hfind]
  exact if_pos hip

variable (hkernel : kernel.Documented o)

include hkernel

theorem RulesKept.insert {rules rules' : Multiset KernelRule} {missed : ℕ}
    (hx : RulesKept cfg foreign ⟨r, rules, missed⟩) (hnew : r.findSrcListEntry ip = none)
    (h : kernel.AnswersRule r.netlink.next (r.insertRequest o cfg ip past) rules rules') :
    RulesKept cfg foreign ⟨(r.insertSrcListEntry cfg ip).2, rules', missed⟩ := by
  obtain ⟨hl, hmirrors⟩ := hx
  dsimp only at hl hmirrors
  rcases insertSrcListEntry_spec cfg ip r with ⟨-, hlist, hwhy⟩ | ⟨s, hs, hlist, hip, hmem, hnull, hfree⟩
  · have hrules : rules' = rules := by
      rcases hwhy with hmem | ⟨-, hfull | hnet⟩
      · rw [Routing.insertRequest, if_neg (by simp [hmem])] at h
        exact served_none h
      · rw [Routing.insertRequest, if_neg (fun hsent ↦ absurd hsent.2.2 (not_le.mpr hfull))] at h
        exact served_none h
      · rw [hnet] at h
        exact served_refused h
    refine ⟨hlist.symm ▸ hl, ?_⟩
    rw [hrules]
    exact hlist.symm ▸ hmirrors
  · have hl' := hl.insert (find_src_none hnew) hip hnull hfree
    refine ⟨hlist.symm ▸ hl', ?_⟩
    dsimp only
    rw [hlist]
    by_cases hzero : ip = gNullIp
    · rw [Routing.insertRequest, if_neg (fun hsent ↦ absurd hzero hsent.2.1)] at h
      rw [listedRules_cons_null (hip.trans hzero), served_none h]
      exact hmirrors
    · obtain ⟨htable, hle⟩ := hfree hzero
      have hne : s.ip ≠ gNullIp := hip ▸ hzero
      have hnet := netlink_of_insert cfg hzero (fun hnone ↦ by rw [hnone] at hs; cases hs)
      rw [Routing.insertRequest, if_pos ⟨hmem, hzero, hle⟩, hnet] at h
      cases h with
      | carried hserves =>
        rw [listedRules_cons hne, (serves_newRule hkernel).mp hserves, hip, htable]
        have hmine : Mine (ruleOf cfg s.ip s.rtTable) := mine_ruleOf hl' (List.mem_filter.mpr
          ⟨List.mem_cons_self, decide_eq_true hne⟩)
        rw [hip, htable] at hmine
        exact hmirrors.add hmine

/-- A deletion that is carried out takes the rule of its source, or one that is
stale. -/
theorem mirrors_served {l l' : List SrcListEntry} {s : SrcListEntry} {rules rules' : Multiset KernelRule} {missed : ℕ}
    (hl : Allocated l) (hs : s ∈ nonNull l) (hothers : ∀ x ∈ l', x ∈ l ∧ x.ip ≠ s.ip)
    (hmirrors : Mirrors Mine foreign (ruleOf cfg s.ip s.rtTable ::ₘ listedRules cfg l') rules missed)
    (h : kernel.ServesRule (rpdbRule o cfg rtmDelrule s.rtTable s.ip gNullIp past) rules rules') :
    Mirrors Mine foreign (listedRules cfg l') rules' missed := by
  obtain ⟨hsl, hne⟩ := List.mem_filter.mp hs
  obtain ⟨hlow, hhigh⟩ := hl.range s hsl (of_decide_eq_true hne)
  rcases serves_delRule hkernel h with ⟨k, hk, hsel, rfl⟩ | ⟨hnone, -⟩
  · exact hmirrors.take hk (mine_of_selected hsel hlow hhigh) (not_mem_listedRules hl hs hsel hothers)
  · have hrule : ruleOf cfg s.ip s.rtTable ∈ rules := hmirrors.mem_bag (Multiset.mem_cons_self _ _)
    exact absurd (selected_ruleOf s.ip s.rtTable) (hnone _ hrule)

theorem RulesKept.delete {rules rules' : Multiset KernelRule} {missed : ℕ}
    (hx : RulesKept cfg foreign ⟨r, rules, missed⟩)
    (h : kernel.AnswersRule r.netlink.next (r.deleteRequest o cfg ip past) rules rules') :
    RulesKept cfg foreign ⟨r.deleteSrcListEntry ip, rules',
      if (r.deleteRequest o cfg ip past).isSome && !r.netlink.next then missed + 1 else missed⟩ := by
  obtain ⟨hl, hmirrors⟩ := hx
  dsimp only at hl hmirrors
  have hlist := deleteSrcListEntry_srcList hl.addresses ip
  refine ⟨hlist.symm ▸ hl.sublist List.filter_sublist, ?_⟩
  dsimp only
  rw [hlist]
  cases hfind : r.findSrcListEntry ip with
  | none =>
    have hsame : (r.srcList.filter fun s ↦ !(s.ip == ip)) = r.srcList :=
      List.filter_eq_self.mpr fun s hs ↦ by simpa using find_src_none hfind s hs
    rw [deleteRequest_of_none hfind] at h ⊢
    rw [hsame, served_none h]
    exact hmirrors
  | some s =>
    obtain ⟨hs, rfl⟩ := find_src_some hfind
    have hperm := perm_filter_ip hl.addresses hs
    by_cases hzero : s.ip = gNullIp
    · have hrest := (listedRules_perm cfg hperm).trans (listedRules_cons_null hzero)
      rw [deleteRequest_of_null hzero] at h ⊢
      rw [served_none h, ← hrest]
      exact hmirrors
    · have hs' : s ∈ nonNull r.srcList := List.mem_filter.mpr ⟨hs, decide_eq_true hzero⟩
      rw [deleteRequest_of_some hfind hzero] at h ⊢
      rw [listedRules_perm cfg hperm, listedRules_cons hzero] at hmirrors
      cases hnet : r.netlink.next with
      | false =>
        rw [hnet] at h
        rw [served_refused h]
        exact hmirrors.miss
      | true =>
        rw [hnet] at h
        cases h with
        | carried hserves =>
          refine mirrors_served hkernel hl hs' (fun x hx ↦ ?_) hmirrors hserves
          obtain ⟨hx, hip⟩ := List.mem_filter.mp hx
          exact ⟨hx, by simpa using hip⟩

theorem RuleOp.keeps (h : RuleOp o kernel cfg x x') (hx : RulesKept cfg foreign x) : RulesKept cfg foreign x' := by
  cases h with
  | insert missed hnew h => exact hx.insert hkernel hnew h
  | delete missed h => exact hx.delete hkernel h
  | other rules missed h =>
    refine ⟨allocated_congr h hx.allocated, ?_⟩
    dsimp only
    rw [listedRules_congr h]
    exact hx.rules

theorem RulePath.keeps (h : RulePath o kernel cfg x x') (hx : RulesKept cfg foreign x) : RulesKept cfg foreign x' := by
  induction h with
  | refl => exact hx
  | tail _ hop ih => exact hop.keeps hkernel ih

end Steps

/-- Whatever rules the kernel has, calls lead from these tables to those. -/
def Leads (o : ByteOrder) (kernel : Kernel) (cfg : Config) (r r' : Routing) : Prop :=
  ∀ rules missed, ∃ rules' missed', RulePath o kernel cfg ⟨r, rules, missed⟩ ⟨r', rules', missed'⟩

section Calls

variable {o : ByteOrder} {kernel : Kernel} {cfg : Config} {r r' r'' : Routing} {ip : Ip}

theorem Leads.trans (h : Leads o kernel cfg r r') (h' : Leads o kernel cfg r' r'') : Leads o kernel cfg r r'' := by
  intro rules missed
  obtain ⟨rules', missed', hpath⟩ := h rules missed
  obtain ⟨rules'', missed'', hpath'⟩ := h' rules' missed'
  exact ⟨rules'', missed'', hpath.trans hpath'⟩

theorem leads_of_keys (h : sourceKeys r'.srcList = sourceKeys r.srcList) : Leads o kernel cfg r r' := fun rules missed ↦
  ⟨rules, missed, .single (.other rules missed h)⟩

theorem leads_of_srcList (h : r'.srcList = r.srcList) : Leads o kernel cfg r r' := leads_of_keys (h ▸ rfl)

theorem Leads.refl (r : Routing) : Leads o kernel cfg r r := leads_of_srcList rfl

theorem leads_modifySrc (ip : Ip) (f : ℤ → ℤ) (r : Routing) : Leads o kernel cfg r (r.modifySrc ip f) :=
  leads_of_keys (OrderedList.map_modifyFirst (f := fun s : SrcListEntry ↦ { s with numRoutes := f s.numRoutes })
    (fun _ ↦ rfl) _ _)

theorem leads_rrepAodvRoute {now ptr : ℕ} {e : Option AodvRoute} (h : r.rrepAodvRoute cfg now ptr = some (e, r')) :
    Leads o kernel cfg r r' := by
  obtain ⟨e, -, ⟨-, -, rfl⟩ | ⟨hnew, -⟩ | ⟨r₁, -, hnew, -, rfl⟩⟩ := rrepAodvRoute_cases h
  · exact .refl _
  · exact leads_of_srcList (newRoute_srcList hnew)
  · have hsame : r₁.srcList = r.srcList := newRoute_srcList hnew
    exact leads_of_srcList hsame

theorem leads_addsNeigh {dstId : UInt32} (h : AddsNeigh cfg ip dstId r r') : Leads o kernel cfg r r' := by
  obtain ⟨lifetime, r₁, hins, h⟩ := h
  refine (leads_of_srcList hins.srcList).trans ?_
  rcases h with htouch | ⟨ok, r₂, freed, hnew, -, htouch⟩
  · exact leads_of_srcList htouch.srcList
  · exact (leads_of_srcList (newRoute_srcList hnew)).trans (leads_of_srcList htouch.srcList)

variable (hkernel : kernel.Documented o)

include hkernel

theorem exists_answer_newrule (ok : Bool) (rtTable : ℕ) (past : UInt8) (rules : Multiset KernelRule) :
    ∃ rules', kernel.AnswersRule ok (some (rpdbRule o cfg rtmNewrule rtTable ip gNullIp past)) rules rules' := by
  cases ok with
  | false => exact ⟨rules, .refused _ rules⟩
  | true => exact ⟨_, .carried ((serves_newRule hkernel).mpr rfl)⟩

theorem exists_answer_delrule (ok : Bool) (rtTable : ℕ) (past : UInt8) (rules : Multiset KernelRule) :
    ∃ rules', kernel.AnswersRule ok (some (rpdbRule o cfg rtmDelrule rtTable ip gNullIp past)) rules rules' := by
  cases ok with
  | false => exact ⟨rules, .refused _ rules⟩
  | true =>
    obtain ⟨rules', hserves⟩ := hkernel.delRuleEnds rules rpdbRule_reads rfl
    exact ⟨rules', .carried hserves⟩

theorem leads_insertSrcListEntry (hnew : r.findSrcListEntry ip = none) :
    Leads o kernel cfg r (r.insertSrcListEntry cfg ip).2 := by
  intro rules missed
  have hanswer : ∃ rules', kernel.AnswersRule r.netlink.next (r.insertRequest o cfg ip 0) rules rules' := by
    rw [Routing.insertRequest]
    split
    · exact exists_answer_newrule hkernel _ _ _ _
    · exact ⟨rules, .silent _ rules⟩
  obtain ⟨rules', hanswer⟩ := hanswer
  exact ⟨rules', missed, .single (.insert missed hnew hanswer)⟩

theorem leads_deleteSrcListEntry (ip : Ip) (r : Routing) : Leads o kernel cfg r (r.deleteSrcListEntry ip) := by
  intro rules missed
  have hanswer : ∃ rules', kernel.AnswersRule r.netlink.next (r.deleteRequest o cfg ip 0) rules rules' := by
    rw [Routing.deleteRequest]
    split
    · exact ⟨rules, .silent _ rules⟩
    split
    · exact exists_answer_delrule hkernel _ _ _ _
    · exact ⟨rules, .silent _ rules⟩
  obtain ⟨rules', hanswer⟩ := hanswer
  exact ⟨rules', _, .single (.delete missed hanswer)⟩

theorem leads_sourceEntry (srcIp : Ip) (r : Routing) : Leads o kernel cfg r (r.sourceEntry cfg srcIp).2 := by
  unfold Routing.sourceEntry
  cases hfind : r.findSrcListEntry srcIp with
  | none => exact leads_insertSrcListEntry hkernel hfind
  | some s => exact .refl r

theorem leads_rreqEntry (srcIp dstIp : Ip) (tos : UInt8) (dstId pathMetric : UInt32) (r : Routing) :
    Leads o kernel cfg r (r.rreqEntry cfg srcIp dstIp tos dstId pathMetric).2 := by
  unfold Routing.rreqEntry
  split
  · rcases hcreate : r.createAodvRoute srcIp dstIp tos dstId with ⟨o₁, r₀⟩
    have hsame : r₀.srcList = r.srcList := by
      rcases createAodvRoute_cases cfg hcreate with ⟨-, htouch⟩ | ⟨lifetime, -, hins⟩
      · exact htouch.srcList
      · exact hins.srcList
    have hcreated : Leads o kernel cfg r r₀ := leads_of_srcList hsame
    cases o₁ with
    | none => exact hcreated
    | some e =>
      have hsource := hcreated.trans (leads_sourceEntry hkernel srcIp r₀)
      dsimp only
      rcases hs : r₀.sourceEntry cfg srcIp with ⟨_ | s, r₁⟩
      · rw [hs] at hsource
        exact hsource
      · rw [hs] at hsource
        exact hsource.trans (leads_modifySrc srcIp (· + 1) r₁)
  · next e _ =>
    dsimp only
    split
    · exact .refl r
    split
    · have hdel : (r.delRoute cfg e.srcIp e.kernelRoute).2.srcList = r.srcList := delRoute_srcList rfl
      split
      · exact leads_of_srcList hdel
      · exact leads_of_srcList hdel
    · exact .refl r

theorem leads_rreqAodvRoute {now : ℕ} {srcIp dstIp : Ip} {tos : UInt8} {nextHop : Ip} {sendRate : UInt16}
    {hops : UInt8} {dstId pathMetric : UInt32} {ok : Bool}
    (h : r.rreqAodvRoute cfg now srcIp dstIp tos nextHop sendRate hops dstId pathMetric = some (ok, r')) :
    Leads o kernel cfg r r' := by
  have hentry : Leads o kernel cfg r (r.rreqEntry cfg srcIp dstIp tos dstId pathMetric).2 :=
    leads_rreqEntry hkernel _ _ _ _ _ _
  rcases rreqAodvRoute_cases h with ⟨-, heq, -⟩ | ⟨-, e, st, r₁, heq, -, htouch⟩
  · rwa [heq] at hentry
  · rw [heq] at hentry
    exact hentry.trans (leads_of_srcList htouch.srcList)

theorem leads_flushEntry (now : ℕ) (e : AodvRoute) (r : Routing) : Leads o kernel cfg r (r.flushEntry cfg now e) := by
  unfold Routing.flushEntry
  split
  · split
    · exact leads_of_srcList rfl
    dsimp only
    split
    · exact leads_of_srcList rfl
    next s hfind =>
    have hcounted : Leads o kernel cfg r (r.modifySrc e.srcIp (· - 1)) := leads_modifySrc _ _ _
    generalize hr₁ : (if e.neighRoute = true then r.modifySrc e.srcIp (· - 1) else _) = r₁
    have hr₁' : Leads o kernel cfg r r₁ := by
      rw [← hr₁]
      split
      · exact hcounted
      · have hdel : ((r.modifySrc e.srcIp (· - 1)).delRoute cfg e.srcIp e.kernelRoute).2.srcList =
            (r.modifySrc e.srcIp (· - 1)).srcList := delRoute_srcList rfl
        exact hcounted.trans (leads_of_srcList hdel)
    have hremove : ∀ r₂ : Routing, Leads o kernel cfg r r₂ → Leads o kernel cfg r (r₂.removeAodvRoute e.ptr) :=
      fun r₂ h ↦ h.trans (leads_of_srcList rfl)
    split
    · split
      · exact hremove _ (hr₁'.trans (leads_deleteSrcListEntry hkernel _ _))
      · exact hremove _ (hr₁'.trans (leads_modifySrc _ _ _))
    · exact hremove _ hr₁'
  · exact .refl r

theorem leads_flushAodvRouteTable (now : ℕ) (r : Routing) : Leads o kernel cfg r (r.flushAodvRouteTable cfg now) :=
  flushAodvRouteTable_induct (.refl r) (fun r₁ e h ↦ h.trans (leads_flushEntry hkernel now e r₁))
    fun r₁ h ↦ h.trans (leads_of_srcList (touches_updateMyLoad cfg r₁).srcList)

end Calls

section Runs

variable {o : ByteOrder} {kernel : Kernel} {n n' : Node} {t : Task}

theorem leads_of_effect {r : Routing} (hkernel : kernel.Documented o) (hr : WellFormed n.cfg n.routing)
    (h : RouteEffect n t r) : Leads o kernel n.cfg n.routing r := by
  cases h with
  | touch h => exact leads_of_srcList h.srcList
  | hello _ h _ h' =>
    rcases h with h | ⟨dstId, -, h⟩
    · exact (leads_of_srcList h.srcList).trans (leads_of_srcList h'.srcList)
    · exact (leads_addsNeigh h).trans (leads_of_srcList h'.srcList)
  | rreq _ _ _ h => exact leads_rreqAodvRoute hkernel h
  | @answer e _ r₀ r₁ r₂ _ _ h h₁ h₂ h' =>
    have hfrom : Leads o kernel n.cfg n.routing r₀ := by
      rcases h with ⟨rfl, -⟩ | ⟨-, -, new, hcopy, -⟩
      · exact .refl _
      · have hsame : r₀.srcList = n.routing.srcList := hcopy.inserts.srcList
        exact leads_of_srcList hsame
    exact ((hfrom.trans (leads_of_srcList h₁.srcList)).trans (leads_rrepAodvRoute h₂)).trans
      (leads_of_srcList h'.srcList)
  | @rrepSource _ _ _ r₁ r₂ _ _ _ _ _ h₁ h₂ h' =>
    have hinstall : Leads o kernel n.cfg r₁ r₂ := by
      rcases h₂ with ⟨-, rfl⟩ | ⟨e, found, -, h₂⟩
      · exact .refl _
      · exact leads_rrepAodvRoute h₂
    exact ((leads_rreqAodvRoute hkernel h₁).trans hinstall).trans (leads_of_srcList h'.srcList)
  | @rrepForward m m' x recv ok n₁ r₁ _ _ _ _ _ hrecv h₁ h' =>
    have hcopy : Leads o kernel n.cfg n.routing n₁.routing := by
      rcases rrepRecvRoute_cases (n := n.updateNeighLifetime x.ip) hr hrecv with
        ⟨-, rfl⟩ | ⟨-, -, e, new, r₀, -, rfl, hcopy, -⟩
      · exact .refl _
      · have hsame : r₀.srcList = n.routing.srcList := hcopy.inserts.srcList
        exact leads_of_srcList hsame
    have hheard : Leads o kernel n.cfg n.routing r₁ := hcopy.trans (leads_rreqAodvRoute hkernel h₁)
    rcases h' with ⟨-, rfl⟩ | ⟨send, o₂, r₂, o₃, r₃, -, h₂, h₃, h'⟩
    · exact hheard
    · exact ((hheard.trans (leads_rrepAodvRoute h₂)).trans (leads_rrepAodvRoute h₃)).trans
        (leads_of_srcList h'.srcList)
  | flush => exact leads_flushAodvRouteTable hkernel _ _

/-- Every step of a node consists of such calls. -/
theorem step_leads {e : Event} (hkernel : kernel.Documented o) (hr : WellFormed n.cfg n.routing)
    (h : n.step e = some n') : Leads o kernel n.cfg n.routing n'.routing := by
  rcases step_cases hr h with ⟨t, tasks, -, -, -, -, heffect⟩ | ⟨-, htouch⟩
  · exact leads_of_effect (n := { n with tasks := tasks }) hkernel hr heffect
  · exact leads_of_srcList htouch.srcList

/-- What `create_aodv_dev` asks for. -/
def initRequest (o : ByteOrder) (cfg : Config) (past : UInt8) : Option Bytes :=
  if cfg.gMeshIp ≠ gNullIp then some (rpdbRule o cfg rtmNewrule 1 cfg.gMeshIp gNullIp past) else none

/-- The runs of a node beside the kernel, which has the rules of others when the
module is loaded. -/
inductive RuledRun (o : ByteOrder) (kernel : Kernel) (foreign : Multiset KernelRule) :
    Node → Multiset KernelRule → ℕ → Prop
  | init {cfg : Config} {env : Environment} {past : UInt8} {rules : Multiset KernelRule}
      (h : kernel.AnswersRule true (initRequest o cfg past) foreign rules) :
      RuledRun o kernel foreign (Node.init cfg env) rules 0
  | step {n n' : Node} {e : Event} {rules rules' : Multiset KernelRule} {missed missed' : ℕ}
      (h : RuledRun o kernel foreign n rules missed) (hs : n.step e = some n')
      (hpath : RulePath o kernel n.cfg ⟨n.routing, rules, missed⟩ ⟨n'.routing, rules', missed'⟩) :
      RuledRun o kernel foreign n' rules' missed'

/-- The kernel answers the requests of `flush_src_list`, and the deletions that it
refuses are counted. -/
inductive Flushes (kernel : Kernel) : List Bytes → Multiset KernelRule → ℕ → Multiset KernelRule → ℕ → Prop
  | done (rules : Multiset KernelRule) (missed : ℕ) : Flushes kernel [] rules missed rules missed
  | refused {msg : Bytes} {l : List Bytes} {rules rules' : Multiset KernelRule} {missed missed' : ℕ}
      (h : Flushes kernel l rules (missed + 1) rules' missed') : Flushes kernel (msg :: l) rules missed rules' missed'
  | carried {msg : Bytes} {l : List Bytes} {rules rules₁ rules' : Multiset KernelRule} {missed missed' : ℕ}
      (hmsg : kernel.ServesRule msg rules rules₁) (h : Flushes kernel l rules₁ missed rules' missed') :
      Flushes kernel (msg :: l) rules missed rules' missed'

variable {foreign rules rules' : Multiset KernelRule} {missed missed' : ℕ}

theorem RuledRun.reachable (h : RuledRun o kernel foreign n rules missed) : Reachable n := by
  induction h with
  | init => exact .init trivial
  | step _ hs _ ih => exact ih.step trivial hs

theorem allocated_singleton {s : SrcListEntry} (hnull : s.ip = gNullIp → s.rtTable = defaultRouteTable)
    (hother : s.ip ≠ gNullIp → s.rtTable = 1) : Allocated [s] := by
  have hmax : 1 ≤ maxRouteTables := by decide
  refine ⟨List.nodup_singleton _, ((List.nodup_singleton s).filter _).map_on ?_, ?_, ?_⟩
  · intro x hx y hy _
    rw [List.mem_singleton.mp (List.mem_filter.mp hx).1, List.mem_singleton.mp (List.mem_filter.mp hy).1]
  · intro x hx hne
    obtain rfl := List.mem_singleton.mp hx
    rw [hother hne]
    exact ⟨le_refl 1, hmax⟩
  · intro x hx hzero
    obtain rfl := List.mem_singleton.mp hx
    exact hnull hzero

theorem rulesKept_init {cfg : Config} {env : Environment} {past : UInt8} (hkernel : kernel.Documented o)
    (hforeign : ∀ k ∈ foreign, ¬ Mine k) (h : kernel.AnswersRule true (initRequest o cfg past) foreign rules) :
    RulesKept cfg foreign ⟨(Node.init cfg env).routing, rules, 0⟩ := by
  obtain ⟨-, hrouting⟩ := init_frame cfg env
  have hstart : Mirrors Mine foreign (listedRules cfg []) foreign 0 := .start hforeign
  rw [hrouting]
  generalize hs : (⟨cfg.gMeshIp, if cfg.gMeshIp = gNullIp then defaultRouteTable else 1, 1⟩ : SrcListEntry) = s
  have hlist : (initRouting cfg env.routeMemory env.netlink env.routeJunk).srcList = [s] := congrArg (fun s ↦ [s]) hs
  have hip : s.ip = cfg.gMeshIp := hs ▸ rfl
  have htable : s.rtTable = if cfg.gMeshIp = gNullIp then defaultRouteTable else 1 := hs ▸ rfl
  have hl : Allocated [s] := allocated_singleton (fun hzero ↦ by rw [htable, if_pos (hip ▸ hzero)])
    fun hne ↦ by rw [htable, if_neg (hip ▸ hne)]
  refine ⟨hlist ▸ hl, ?_⟩
  dsimp only
  rw [hlist]
  rw [initRequest] at h
  by_cases hnull : cfg.gMeshIp = gNullIp
  · rw [if_neg (not_not.mpr hnull)] at h
    rw [listedRules_cons_null (hip.trans hnull), served_none h]
    exact hstart
  · have hne : s.ip ≠ gNullIp := hip ▸ hnull
    have hin : s ∈ nonNull [s] := List.mem_filter.mpr ⟨List.mem_singleton_self s, decide_eq_true hne⟩
    have hmine : Mine (ruleOf cfg s.ip s.rtTable) := mine_ruleOf hl hin
    rw [if_pos hnull] at h
    cases h with
    | carried hserves =>
      rw [listedRules_cons hne, (serves_newRule hkernel).mp hserves]
      rw [hip, htable, if_neg hnull] at hmine ⊢
      exact hstart.add hmine

theorem RuledRun.kept (hkernel : kernel.Documented o) (hforeign : ∀ k ∈ foreign, ¬ Mine k)
    (h : RuledRun o kernel foreign n rules missed) : RulesKept n.cfg foreign ⟨n.routing, rules, missed⟩ := by
  induction h with
  | @init cfg env past rules h =>
    rw [(init_frame cfg env).1]
    exact rulesKept_init hkernel hforeign h
  | @step n n' e rules rules' missed missed' h hs hpath ih =>
    have hcfg : n'.cfg = n.cfg := by
      rcases step_cases (reach_wellFormed h.reachable) hs with ⟨t, tasks, -, -, hhandled⟩ | ⟨hcfg, -⟩
      · exact hhandled.cfg
      · exact hcfg
    rw [hcfg]
    exact hpath.keeps hkernel ih

/-- Each request of the flush takes the rule of its source, or one that is stale. -/
theorem flush_mirrors {cfg : Config} {past : UInt8} {l : List SrcListEntry} (hkernel : kernel.Documented o)
    (hl : Allocated l)
    (hmirrors : Mirrors Mine foreign (listedRules cfg l) rules missed)
    (h : Flushes kernel ((nonNull l).map fun s ↦ rpdbRule o cfg rtmDelrule s.rtTable s.ip gNullIp past) rules missed
      rules' missed') : Mirrors Mine foreign 0 rules' missed' := by
  induction l generalizing rules missed with
  | nil =>
    cases h
    exact hmirrors
  | cons s l ih =>
    have hrest : Allocated l := hl.sublist (List.sublist_cons_self s l)
    by_cases hzero : s.ip = gNullIp
    · have hskip : nonNull (s :: l) = nonNull l := by simp [nonNull, hzero]
      rw [listedRules_cons_null hzero] at hmirrors
      rw [hskip] at h
      exact ih hrest hmirrors h
    · have hcons : nonNull (s :: l) = s :: nonNull l := by simp [nonNull, hzero]
      rw [listedRules_cons hzero] at hmirrors
      rw [hcons, List.map_cons] at h
      cases h with
      | refused h => exact ih hrest hmirrors.miss h
      | carried hmsg h =>
        have hs : s ∈ nonNull (s :: l) := hcons ▸ List.mem_cons_self
        have hothers : ∀ x ∈ l, x ∈ s :: l ∧ x.ip ≠ s.ip := fun x hx ↦
          ⟨List.mem_cons_of_mem s hx, fun hip ↦ (List.nodup_cons.mp hl.addresses).1 (hip ▸ List.mem_map_of_mem hx)⟩
        exact ih hrest (mirrors_served hkernel hl hs hothers hmirrors hmsg) h

end Runs

/-- In every run a kernel that does what is documented has the rules that others put there, the rule of each
listed source, and one stale rule for each deletion that was refused; when the
module is unloaded, only the stale ones are left of the daemon's. -/
theorem kernel_rules {o : ByteOrder} {kernel : Kernel} {foreign rules : Multiset KernelRule} {n : Node} {missed : ℕ}
    (hkernel : kernel.Documented o) (hforeign : ∀ k ∈ foreign, ¬ Mine k)
    (h : RuledRun o kernel foreign n rules missed) :
    (∀ e n', n.step e = some n' → ∃ rules' missed', RuledRun o kernel foreign n' rules' missed') ∧
    (∃ stale : Multiset KernelRule, rules = foreign + listedRules n.cfg n.routing.srcList + stale ∧
      (∀ k ∈ stale, Mine k) ∧ stale.card = missed) ∧
    ∀ past rules' missed', Flushes kernel (n.routing.flushRequests o n.cfg past) rules missed rules' missed' →
      ∃ stale : Multiset KernelRule, rules' = foreign + stale ∧ (∀ k ∈ stale, Mine k) ∧ stale.card = missed' := by
  have hkept := h.kept hkernel hforeign
  refine ⟨?_, hkept.rules.split, ?_⟩
  · intro e n' hs
    obtain ⟨rules', missed', hpath⟩ := step_leads hkernel (reach_wellFormed h.reachable) hs rules missed
    exact ⟨rules', missed', h.step hs hpath⟩
  · intro past rules' missed' hflush
    obtain ⟨stale, hsplit, hrest⟩ := (flush_mirrors hkernel hkept.allocated hkept.rules hflush).split
    rw [add_zero] at hsplit
    exact ⟨stale, hsplit, hrest⟩

/-- The kernel's own rule for the main table. -/
def mainRule : KernelRule where
  priority := 32766
  table := 254
  src := none
  dst := none
  iif := none

/-- The station passes on an RREQ from 192.168.1.3 for 192.168.1.4. -/
def relayRreq : List Event :=
  meetNeigh ++ [.input (heard 0x0201a8c0 (.rreq ⟨0, 1, 0, 0x0401a8c0, 0x0301a8c0, 6, 0, 0⟩)), .thread]

def relayStation : Node := (runs relayRreq station).getD station

theorem RuledRun.runs {o : ByteOrder} {kernel : Kernel} {foreign rules : Multiset KernelRule} {n n' : Node} {missed : ℕ}
    {l : List Event} (hkernel : kernel.Documented o) (h : RuledRun o kernel foreign n rules missed)
    (hl : runs l n = some n') : ∃ rules' missed', RuledRun o kernel foreign n' rules' missed' := by
  induction l generalizing n rules missed with
  | nil => exact ⟨rules, missed, Option.some.inj hl ▸ h⟩
  | cons e l ih =>
    obtain ⟨n₁, hs, hl⟩ := Option.bind_eq_some_iff.mp hl
    obtain ⟨rules₁, missed₁, hpath⟩ := step_leads hkernel (reach_wellFormed h.reachable) hs rules missed
    exact ih (h.step hs hpath) hl

theorem kernel_rules_relay : ∃ rules missed, RuledRun .little (plainKernel .little) {mainRule} relayStation rules missed ∧
    ruleOf station.cfg 0x0401a8c0 2 ∈ rules ∧ rules.card = 3 + missed := by
  have hkernel := plainKernel_documented .little
  have hmain : ∀ k ∈ ({mainRule} : Multiset KernelRule), ¬ Mine k := by
    intro k hk
    rw [Multiset.mem_singleton.mp hk]
    exact fun h ↦ absurd h.2 (by decide)
  have hcall : (plainKernel .little).AnswersRule true (initRequest .little station.cfg 0) {mainRule}
      (ruleOf station.cfg 0x0101a8c0 1 ::ₘ {mainRule}) := .carried ((serves_newRule hkernel).mpr rfl)
  have hstart : RuledRun .little (plainKernel .little) {mainRule} station
      (ruleOf station.cfg 0x0101a8c0 1 ::ₘ {mainRule}) 0 := .init hcall
  have hl : NodeRun.runs relayRreq station = some relayStation := rfl
  obtain ⟨rules, missed, hrun⟩ := hstart.runs hkernel hl
  obtain ⟨-, ⟨stale, hsplit, -, hcard⟩, -⟩ := kernel_rules hkernel hmain hrun
  have hlisted : listedRules relayStation.cfg relayStation.routing.srcList =
      {ruleOf station.cfg 0x0401a8c0 2, ruleOf station.cfg 0x0101a8c0 1} := by
    have hlist : relayStation.routing.srcList = [⟨0x0401a8c0, 2, 1⟩, ⟨0x0101a8c0, 1, 1⟩] := by decide +kernel
    have hcfg : relayStation.cfg = station.cfg := rfl
    rw [hlist, hcfg]
    rfl
  refine ⟨rules, missed, hrun, ?_, ?_⟩
  · rw [hsplit, hlisted]
    simp
  · rw [hsplit, hlisted, Multiset.card_add, Multiset.card_add, hcard]
    rfl

end Fbaodv.Proofs.KernelRules
