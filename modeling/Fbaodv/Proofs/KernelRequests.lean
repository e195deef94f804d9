import Fbaodv.Model.Rpdb
import Fbaodv.Proofs.MessageRoundTrip
import Fbaodv.Proofs.PacketDiscovery

namespace Fbaodv.Proofs.KernelRequests

open Fbaodv.Model Fbaodv.Model.Rpdb Fbaodv.Foundation
open Fbaodv.Proofs.HelloRoundTrip (uint32_of_put uint16_of_put)
open Fbaodv.Proofs.Dispatch (byteAt_field)
open Fbaodv.Proofs.MessageRoundTrip
open Fbaodv.Proofs.PacketDiscovery (station)

section Format

variable {o : ByteOrder} {h : RtHeader} {l : List Attribute}

/-- What a request reads as. -/
def readAs (h : RtHeader) (l : List Attribute) : RtRequest where
  type := h.type.toUInt16
  flags := nlmFlags
  family := afInet
  dstLen := h.dstLen
  srcLen := h.srcLen
  tos := 0
  table := h.table
  protocol := rtprotStatic
  scope := h.scope
  rtmType := rtnUnicast
  attributes := l

theorem layout_header (h : RtHeader) (rtl : ℕ) : Layout (sizeofNlmsghdr + sizeofRtmsg) (h.stores o rtl) := by
  constructor
  · simp [RtHeader.stores, sizeofNlmsghdr, sizeofRtmsg]
  · simp [RtHeader.stores, Store.Apart]

theorem field_take {l : Bytes} {m offset k : ℕ} (hm : offset + k ≤ m) :
    field (l.take m) offset k = field l offset k := by
  rw [field, field, List.drop_take, List.take_take, Nat.min_eq_left (by omega)]

theorem drop_take_eq_field (l : Bytes) (m k : ℕ) : (l.take (m + k)).drop m = field l m k := by
  rw [field, List.drop_take, Nat.add_sub_cancel_left]

/-- The request in `req`, before it is cut. -/
def filledReq (o : ByteOrder) (h : RtHeader) (l : List Attribute) : Bytes :=
  storeAll (List.replicate sizeofReq 0)
    (Attribute.storesAll o 28 l ++ h.stores o (sizeofRtmsg + Attribute.sizes l))

/-- What a request has in its fields when the attributes fit into `buf`. -/
structure Filled (o : ByteOrder) (h : RtHeader) (l : List Attribute) (req : Bytes) : Prop where
  length : req.length = sizeofReq
  header : ∀ s ∈ h.stores o (sizeofRtmsg + Attribute.sizes l), field req s.offset s.value.length = s.value
  tos : field req 19 1 = [0]
  attributes : field req 28 (Attribute.sizes l) = l.flatMap (Attribute.bytes o)

theorem filled (hroom : Attribute.sizes l ≤ 400) : Filled o h l (filledReq o h l) := by
  have hsize : sizeofReq = 428 := rfl
  have hzero : (List.replicate sizeofReq (0 : UInt8)).length = sizeofReq := List.length_replicate
  have hinside : ∀ s ∈ Attribute.storesAll o 28 l, s.stop ≤ (List.replicate sizeofReq (0 : UInt8)).length := by
    intro s hs
    have hstop := (Attribute.storesAll_within hs).2
    omega
  have hlength := storeAll_length hinside
  have hlayout := layout_header (o := o) h (sizeofRtmsg + Attribute.sizes l)
  have hheader : ∀ s ∈ h.stores o (sizeofRtmsg + Attribute.sizes l), s.stop ≤ 28 := hlayout.inside
  have hfits : ∀ s ∈ h.stores o (sizeofRtmsg + Attribute.sizes l),
      s.stop ≤ (storeAll (List.replicate sizeofReq 0) (Attribute.storesAll o 28 l)).length := by
    intro s hs
    have hstop := hheader s hs
    omega
  rw [filledReq, storeAll_append]
  refine ⟨?_, ?_, ?_, ?_⟩
  · rw [storeAll_length hfits, hlength, hzero]
  · intro s hs
    exact field_storeAll ⟨hfits, hlayout.apart⟩ hs
  · have hapart : ∀ s ∈ h.stores o (sizeofRtmsg + Attribute.sizes l), 19 + 1 ≤ s.offset ∨ s.stop ≤ 19 := by
      simp [RtHeader.stores]
    have hbefore : ∀ s ∈ Attribute.storesAll o 28 l, 19 + 1 ≤ s.offset ∨ s.stop ≤ 19 := fun s hs ↦
      .inl (by have hlow := (Attribute.storesAll_within hs).1; omega)
    rw [field_storeAll_of_apart hfits hapart, field_storeAll_of_apart hinside hbefore]
    rfl
  · rw [field_storeAll_of_apart hfits fun s hs ↦ .inr (hheader s hs)]
    exact Attribute.field_storesAll (by omega)

/-- A request is a message of its length that reads as it was meant. -/
theorem readRequest_sentRequest (hfits : ∀ a ∈ l, a.Fits) (hroom : Attribute.sizes l ≤ 400) :
    (sentRequest o h l).length = 28 + Attribute.sizes l ∧ readRequest o (sentRequest o h l) = some (readAs h l) := by
  obtain ⟨hlen, hheader, htos, hattributes⟩ := filled (o := o) (h := h) hroom
  have hsent : sentRequest o h l = (filledReq o h l).take (28 + Attribute.sizes l) := by
    rw [sentRequest, filledReq, sizeofNlmsghdr, sizeofRtmsg, ← Nat.add_assoc]
  have hlength : (sentRequest o h l).length = 28 + Attribute.sizes l := by
    have hsize : sizeofReq = 428 := rfl
    rw [hsent, List.length_take]
    omega
  have hfield : ∀ offset k, offset + k ≤ 28 →
      field (sentRequest o h l) offset k = field (filledReq o h l) offset k := by
    intro offset k hk
    rw [hsent, field_take (by omega)]
  refine ⟨hlength, ?_⟩
  simp only [RtHeader.stores, List.forall_mem_cons, storeU8, storeU16, storeU32, ByteOrder.put_length,
    List.length_singleton] at hheader
  obtain ⟨hmsglen, hflags, htype, hfamily, hdstLen, hsrcLen, htable, hprotocol, hscope, hrtm, -⟩ := hheader
  have hnum : (UInt32.ofNat (sizeofNlmsghdr + (sizeofRtmsg + Attribute.sizes l))).toNat = 28 + Attribute.sizes l := by
    rw [UInt32.toNat_ofNat', sizeofNlmsghdr, sizeofRtmsg, Nat.mod_eq_of_lt (by omega)]
    omega
  have hget : o.get (field (sentRequest o h l) 0 4) = 28 + Attribute.sizes l := by
    rw [hfield 0 4 (by omega), hmsglen, hnum]
    exact o.get_put (by norm_num; omega)
  have hbyte : ∀ {offset : ℕ} {v : UInt8}, offset + 1 ≤ 28 → field (filledReq o h l) offset 1 = [v] →
      byteAt (sentRequest o h l) offset = v := by
    intro offset v hoffset hv
    rw [← byteAt_field, hfield offset 1 hoffset, hv]
    rfl
  have hdrop : (sentRequest o h l).drop (sizeofNlmsghdr + sizeofRtmsg) = l.flatMap (Attribute.bytes o) := by
    rw [hsent, sizeofNlmsghdr, sizeofRtmsg, drop_take_eq_field, hattributes]
  have hguard : ¬ ((sentRequest o h l).length < sizeofNlmsghdr + sizeofRtmsg ∨
      o.get (field (sentRequest o h l) 0 4) ≠ (sentRequest o h l).length) := by
    rw [hget, hlength, sizeofNlmsghdr, sizeofRtmsg]
    omega
  rw [readRequest, if_neg hguard, hfield 4 2 (by omega), hfield 6 2 (by omega), htype, hflags, uint16_of_put,
    uint16_of_put, hdrop, Attribute.readAll_flatMap hfits, hbyte (by omega) hfamily, hbyte (by omega) hdstLen,
    hbyte (by omega) hsrcLen, hbyte (by omega) htos, hbyte (by omega) htable, hbyte (by omega) hprotocol,
    hbyte (by omega) hscope, hbyte (by omega) hrtm]
  rfl

end Format

section Attributes

variable {o : ByteOrder} {h : RtHeader} {l : List Attribute} {type : UInt16} {v : UInt32}

theorem sizes_words (hwords : ∀ a ∈ l, a.value.length = 4) : Attribute.sizes l = 8 * l.length := by
  induction l with
  | nil => rfl
  | cons a l ih =>
    have hrest := ih fun b hb ↦ hwords b (List.mem_cons_of_mem a hb)
    rw [Attribute.sizes_cons, Attribute.size, hwords a List.mem_cons_self, hrest, List.length_cons]
    omega

/-- The requests of the daemon have values of four bytes only. -/
theorem readRequest_words (hwords : ∀ a ∈ l, a.value.length = 4) (hl : l.length ≤ 50) :
    (sentRequest o h l).length = 28 + 8 * l.length ∧ readRequest o (sentRequest o h l) = some (readAs h l) := by
  have hfits : ∀ a ∈ l, a.Fits := by
    intro a ha
    have hsize : a.size = 4 + a.value.length := rfl
    have hword := hwords a ha
    constructor
    · omega
    · omega
  have hsizes := sizes_words hwords
  rw [← hsizes]
  exact readRequest_sentRequest hfits (by omega)

theorem attribute4_word : (attribute4 o type v).value.length = 4 := o.put_length 4 v.toNat

theorem number_of_find {q : RtRequest} (h : q.find type = some (attribute4 o type v).value) :
    q.number o type = some v := by
  rw [RtRequest.number, h, Option.map_some]
  exact congrArg some (uint32_of_put v)

end Attributes

section Routes

variable {o : ByteOrder} {cfg : Config} {type tos : UInt8} {rtTable : ℕ} {ipSrc ipDst ipGw : Ip}
  {devIndex metric : UInt32} {msg : Bytes}

/-- What a message of `rpdb_route` reads as. -/
def routeRequest (o : ByteOrder) (cfg : Config) (type : UInt8) (ipDst ipGw : Ip) (devIndex metric : UInt32) :
    RtRequest :=
  readAs
    { type := type
      dstLen := if ipDst ≠ gNullIp then 32 else 0
      srcLen := 0
      table := 0
      scope := if ipDst = cfg.gMeshIp then rtScopeLink else rtScopeUniverse }
    [attribute4 o rtaDst ipDst, attribute4 o rtaOif devIndex, attribute4 o rtaGateway ipGw,
      attribute4 o rtaPriority metric]

theorem number_routeRequest (o : ByteOrder) (cfg : Config) (type : UInt8) (ipDst ipGw : Ip) (devIndex metric : UInt32) :
    (routeRequest o cfg type ipDst ipGw devIndex metric).number o rtaDst = some ipDst ∧
    (routeRequest o cfg type ipDst ipGw devIndex metric).number o rtaOif = some devIndex ∧
    (routeRequest o cfg type ipDst ipGw devIndex metric).number o rtaGateway = some ipGw ∧
    (routeRequest o cfg type ipDst ipGw devIndex metric).number o rtaPriority = some metric :=
  ⟨number_of_find rfl, number_of_find rfl, number_of_find rfl, number_of_find rfl⟩

theorem rpdbRoute_reads (h : rpdbRoute o cfg type rtTable tos ipSrc ipDst ipGw devIndex metric = some msg) :
    ¬ (ipDst = cfg.dtnHelloIp ∨ ipSrc = cfg.dtnHelloIp) ∧ msg.length = 60 ∧
      readRequest o msg = some (routeRequest o cfg type ipDst ipGw devIndex metric) := by
  unfold rpdbRoute at h
  split at h
  · cases h
  next hdtn =>
  obtain rfl := Option.some.inj h
  have hwords : ∀ a ∈ [attribute4 o rtaDst ipDst, attribute4 o rtaOif devIndex, attribute4 o rtaGateway ipGw,
      attribute4 o rtaPriority metric], a.value.length = 4 := by
    simp only [List.forall_mem_cons, attribute4_word, true_and]
    exact fun a ha ↦ absurd ha List.not_mem_nil
  exact ⟨hdtn, readRequest_words hwords (by simp)⟩

variable {kernel : Kernel} {routes routes' : Finset KernelRoute}

theorem route_routeRequest (o : ByteOrder) (cfg : Config) (type : UInt8) (ipDst ipGw : Ip) (devIndex metric : UInt32) :
    (routeRequest o cfg type ipDst ipGw devIndex metric).route o = some ⟨ipDst, ipGw, metric.toUInt8⟩ := by
  obtain ⟨hdst, -, hgateway, hmetric⟩ := number_routeRequest o cfg type ipDst ipGw devIndex metric
  simp only [RtRequest.route, hdst, hgateway, hmetric]
  rfl

/-- The kernel adds the route that the call was about, or deletes it. -/
theorem serves_newRoute (hkernel : kernel.Documented o)
    (h : rpdbRoute o cfg rtmNewroute rtTable tos ipSrc ipDst ipGw devIndex metric = some msg) :
    kernel.serveRoute msg routes = insert ⟨ipDst, ipGw, metric.toUInt8⟩ routes :=
  hkernel.newRoute routes (rpdbRoute_reads h).2.2 rfl (route_routeRequest ..)

theorem serves_delRoute (hkernel : kernel.Documented o)
    (h : rpdbRoute o cfg rtmDelroute rtTable tos ipSrc ipDst ipGw devIndex metric = some msg) :
    kernel.serveRoute msg routes = routes.erase ⟨ipDst, ipGw, metric.toUInt8⟩ :=
  hkernel.delRoute routes (rpdbRoute_reads h).2.2 rfl (route_routeRequest ..)

/-- The kernel's routes after a call, whether it sends a request or not. -/
theorem servedRoutes_rpdbRoute (ok : Bool)
    (hserve : ∀ msg, rpdbRoute o cfg type rtTable tos ipSrc ipDst ipGw devIndex metric = some msg →
      kernel.serveRoute msg routes = routes') :
    kernel.servedRoutes ok (rpdbRoute o cfg type rtTable tos ipSrc ipDst ipGw devIndex metric) routes =
      if ipDst = cfg.dtnHelloIp ∨ ipSrc = cfg.dtnHelloIp then routes else if ok then routes' else routes := by
  rcases h : rpdbRoute o cfg type rtTable tos ipSrc ipDst ipGw devIndex metric with _ | msg
  · have hdtn : ipDst = cfg.dtnHelloIp ∨ ipSrc = cfg.dtnHelloIp := by
      by_contra hdtn
      rw [rpdbRoute, if_neg hdtn] at h
      cases h
    rw [if_pos hdtn, Kernel.servedRoutes]
  · rw [if_neg (rpdbRoute_reads h).1, Kernel.servedRoutes, hserve msg h]

end Routes

section Rules

variable {o : ByteOrder} {cfg : Config} {ip : Ip} {rtTable : ℕ} {past : UInt8} {rules rules' : Multiset KernelRule}
  {kernel : Kernel}

/-- The rule of a source with a route table: its own packets are those from `lo`. -/
def ruleOf (cfg : Config) (ip : Ip) (rtTable : ℕ) : KernelRule where
  priority := UInt32.ofNat (rtTable + 1000)
  table := UInt8.ofNat rtTable
  src := if ip = cfg.gMeshIp then none else some ip
  dst := none
  iif := if ip = cfg.gMeshIp then some [108, 111] else none

/-- The rules that a deletion for this route table may mean. -/
def Selected (rtTable : ℕ) (k : KernelRule) : Prop :=
  k.priority = UInt32.ofNat (rtTable + 1000) ∧ (UInt8.ofNat rtTable = 0 ∨ k.table = UInt8.ofNat rtTable)

/-- By what a request tells the packets of a source. -/
def selectors (o : ByteOrder) (cfg : Config) (type : UInt8) (ip : Ip) (past : UInt8) : List Attribute :=
  if type ≠ rtmNewrule then []
  else if ip = cfg.gMeshIp then [attribute4 o rtaSrc gNullIp, ⟨rtaIif, loName past⟩]
  else [attribute4 o rtaSrc ip]

/-- The headers of a message of `rpdb_rule`. -/
def ruleHeader (cfg : Config) (type : UInt8) (rtTable : ℕ) (ip : Ip) : RtHeader where
  type := type
  dstLen := 0
  srcLen := if type = rtmNewrule ∧ ip ≠ cfg.gMeshIp then 32 else 0
  table := UInt8.ofNat rtTable
  scope := rtScopeUniverse

/-- Its attributes. -/
def ruleAttributes (o : ByteOrder) (cfg : Config) (type : UInt8) (rtTable : ℕ) (ip : Ip) (past : UInt8) :
    List Attribute :=
  selectors o cfg type ip past ++ [attribute4 o rtaPriority (UInt32.ofNat (rtTable + 1000))]

theorem rpdbRule_eq {type : UInt8} : rpdbRule o cfg type rtTable ip gNullIp past =
    sentRequest o (ruleHeader cfg type rtTable ip) (ruleAttributes o cfg type rtTable ip past) := by
  simp [rpdbRule, ruleHeader, ruleAttributes, selectors]

theorem selectors_words {type : UInt8} : ∀ a ∈ selectors o cfg type ip past, a.value.length = 4 := by
  unfold selectors
  split
  · exact fun a ha ↦ absurd ha List.not_mem_nil
  split
  · simp only [List.forall_mem_cons, attribute4_word, true_and]
    exact ⟨rfl, fun a ha ↦ absurd ha List.not_mem_nil⟩
  · simp only [List.forall_mem_cons, attribute4_word, true_and]
    exact fun a ha ↦ absurd ha List.not_mem_nil

theorem rpdbRule_reads {type : UInt8} : readRequest o (rpdbRule o cfg type rtTable ip gNullIp past) =
    some (readAs (ruleHeader cfg type rtTable ip) (ruleAttributes o cfg type rtTable ip past)) := by
  have hwords : ∀ a ∈ ruleAttributes o cfg type rtTable ip past, a.value.length = 4 := by
    intro a ha
    rcases List.mem_append.mp ha with ha | ha
    · exact selectors_words a ha
    · rw [List.mem_singleton.mp ha]
      exact attribute4_word
  have hfew : (selectors o cfg type ip past).length ≤ 2 := by
    unfold selectors
    split
    · exact Nat.zero_le 2
    · split <;> simp
  have hlength : (ruleAttributes o cfg type rtTable ip past).length ≤ 50 := by
    rw [ruleAttributes, List.length_append, List.length_singleton]
    omega
  rw [rpdbRule_eq]
  exact (readRequest_words hwords hlength).2

/-- A request for a new rule gives the kernel the rule of the source, whatever
the byte behind `lo` is. -/
theorem rule_newrule : (readAs (ruleHeader cfg rtmNewrule rtTable ip)
    (ruleAttributes o cfg rtmNewrule rtTable ip past)).rule o = some (ruleOf cfg ip rtTable) := by
  by_cases hown : ip = cfg.gMeshIp
  · have hattributes : ruleAttributes o cfg rtmNewrule rtTable ip past = [attribute4 o rtaSrc gNullIp,
        ⟨rtaIif, loName past⟩, attribute4 o rtaPriority (UInt32.ofNat (rtTable + 1000))] := by
      simp [ruleAttributes, selectors, hown]
    have hheader : (ruleHeader cfg rtmNewrule rtTable ip).srcLen = 0 := by simp [ruleHeader, hown]
    have hpriority : (readAs (ruleHeader cfg rtmNewrule rtTable ip) [attribute4 o rtaSrc gNullIp,
        ⟨rtaIif, loName past⟩, attribute4 o rtaPriority (UInt32.ofNat (rtTable + 1000))]).number o rtaPriority =
        some (UInt32.ofNat (rtTable + 1000)) := number_of_find rfl
    rw [RtRequest.rule, hattributes, hpriority, ruleOf, if_pos hown, if_pos hown]
    simp only [readAs, hheader]
    rfl
  · have hattributes : ruleAttributes o cfg rtmNewrule rtTable ip past = [attribute4 o rtaSrc ip,
        attribute4 o rtaPriority (UInt32.ofNat (rtTable + 1000))] := by
      simp [ruleAttributes, selectors, hown]
    have hheader : (ruleHeader cfg rtmNewrule rtTable ip).srcLen = 32 := by simp [ruleHeader, hown]
    have hsrc : (readAs (ruleHeader cfg rtmNewrule rtTable ip) [attribute4 o rtaSrc ip,
        attribute4 o rtaPriority (UInt32.ofNat (rtTable + 1000))]).number o rtaSrc = some ip := number_of_find rfl
    have hpriority : (readAs (ruleHeader cfg rtmNewrule rtTable ip) [attribute4 o rtaSrc ip,
        attribute4 o rtaPriority (UInt32.ofNat (rtTable + 1000))]).number o rtaPriority =
        some (UInt32.ofNat (rtTable + 1000)) := number_of_find rfl
    rw [RtRequest.rule, hattributes, hpriority, hsrc, ruleOf, if_neg hown, if_neg hown]
    simp only [readAs, hheader]
    rfl

/-- A deletion has the table and the priority only. -/
theorem selects_delrule {k : KernelRule} : (readAs (ruleHeader cfg rtmDelrule rtTable ip)
    (ruleAttributes o cfg rtmDelrule rtTable ip past)).selects o k ↔ Selected rtTable k := by
  have hattributes : ruleAttributes o cfg rtmDelrule rtTable ip past =
      [attribute4 o rtaPriority (UInt32.ofNat (rtTable + 1000))] := by
    have hdel : rtmDelrule ≠ rtmNewrule := by decide
    rw [ruleAttributes, selectors, if_pos hdel, List.nil_append]
  rw [RtRequest.selects, hattributes, number_of_find (v := UInt32.ofNat (rtTable + 1000)) rfl]
  simp only [Option.mem_some_iff, forall_eq']
  rfl

theorem serves_newRule (hkernel : kernel.Documented o) :
    kernel.ServesRule (rpdbRule o cfg rtmNewrule rtTable ip gNullIp past) rules rules' ↔
      rules' = ruleOf cfg ip rtTable ::ₘ rules :=
  hkernel.newRule rpdbRule_reads rfl rule_newrule

theorem serves_delRule (hkernel : kernel.Documented o)
    (h : kernel.ServesRule (rpdbRule o cfg rtmDelrule rtTable ip gNullIp past) rules rules') :
    (∃ k ∈ rules, Selected rtTable k ∧ rules' = rules.erase k) ∨
      (∀ k ∈ rules, ¬ Selected rtTable k) ∧ rules' = rules := by
  rcases hkernel.delRule rpdbRule_reads rfl h with ⟨k, hk, hsel, hrules⟩ | ⟨hnone, hrules⟩
  · exact .inl ⟨k, hk, selects_delrule.mp hsel, hrules⟩
  · exact .inr ⟨fun k hk hsel ↦ hnone k hk (selects_delrule.mpr hsel), hrules⟩

end Rules

/-- Requests for routes are messages of 60 bytes that read as the call meant.
They are the same bytes exactly for the same type, destination, gateway, device
and metric, whatever source, table and ToS the route is for, and with them any
kernel that does what is documented comes to the routes that `Routing` has. -/
theorem kernel_requests {o : ByteOrder} {kernel : Kernel} (hkernel : kernel.Documented o) (cfg : Config) :
    (∀ type rtTable tos ipSrc ipDst ipGw devIndex metric msg,
      rpdbRoute o cfg type rtTable tos ipSrc ipDst ipGw devIndex metric = some msg →
        msg.length = 60 ∧ readRequest o msg = some (routeRequest o cfg type ipDst ipGw devIndex metric)) ∧
    (∀ type rtTable tos ipSrc ipDst ipGw devIndex metric type' rtTable' tos' ipSrc' ipDst' ipGw' devIndex' metric'
      msg msg', rpdbRoute o cfg type rtTable tos ipSrc ipDst ipGw devIndex metric = some msg →
        rpdbRoute o cfg type' rtTable' tos' ipSrc' ipDst' ipGw' devIndex' metric' = some msg' →
        (msg = msg' ↔
          type = type' ∧ ipDst = ipDst' ∧ ipGw = ipGw' ∧ devIndex = devIndex' ∧ metric = metric')) ∧
    ∀ (r : Routing) byRrep srcIp k rtTable tos devIndex,
      (r.newRoute cfg byRrep srcIp k).2.kernel =
        kernel.servedRoutes r.netlink.next
          (rpdbRoute o cfg rtmNewroute rtTable tos srcIp k.dst k.gateway devIndex k.metric.toUInt32) r.kernel ∧
      (r.delRoute cfg srcIp k).2.kernel =
        kernel.servedRoutes r.netlink.next
          (rpdbRoute o cfg rtmDelroute rtTable tos srcIp k.dst k.gateway devIndex k.metric.toUInt32) r.kernel := by
  refine ⟨?_, ?_, ?_⟩
  · intro type rtTable tos ipSrc ipDst ipGw devIndex metric msg h
    exact (rpdbRoute_reads h).2
  · intro type rtTable tos ipSrc ipDst ipGw devIndex metric type' rtTable' tos' ipSrc' ipDst' ipGw' devIndex' metric'
      msg msg' h h'
    obtain ⟨hsent, -, hread⟩ := rpdbRoute_reads h
    obtain ⟨hsent', -, hread'⟩ := rpdbRoute_reads h'
    constructor
    · rintro rfl
      have hsame := Option.some.inj (hread.symm.trans hread')
      obtain ⟨hdst, hdev, hgateway, hmetric⟩ := number_routeRequest o cfg type ipDst ipGw devIndex metric
      obtain ⟨hdst', hdev', hgateway', hmetric'⟩ := number_routeRequest o cfg type' ipDst' ipGw' devIndex' metric'
      rw [hsame] at hdst hdev hgateway hmetric
      have htype : type.toUInt16 = type'.toUInt16 := congrArg RtRequest.type hsame
      refine ⟨?_, Option.some.inj (hdst.symm.trans hdst'), Option.some.inj (hgateway.symm.trans hgateway'),
        Option.some.inj (hdev.symm.trans hdev'), Option.some.inj (hmetric.symm.trans hmetric')⟩
      simpa using congrArg UInt16.toUInt8 htype
    · rintro ⟨rfl, rfl, rfl, rfl, rfl⟩
      unfold rpdbRoute at h h'
      rw [if_neg hsent] at h
      rw [if_neg hsent'] at h'
      exact Option.some.inj (h.symm.trans h')
  · intro r byRrep srcIp k rtTable tos devIndex
    have hmetric : k.metric.toUInt32.toUInt8 = k.metric := UInt8.toUInt8_toUInt32 k.metric
    constructor
    · rw [servedRoutes_rpdbRoute _ fun _ ↦ serves_newRoute hkernel, hmetric, Routing.newRoute]
      split
      · rfl
      · split <;> rfl
    · rw [servedRoutes_rpdbRoute _ fun _ ↦ serves_delRoute hkernel, hmetric, Routing.delRoute]
      split
      · rfl
      · split <;> rfl

/-- A request about a rule adds it, or deletes any one of those that are meant. -/
inductive ServesRule (o : ByteOrder) (msg : Bytes) (rules : Multiset KernelRule) : Multiset KernelRule → Prop
  | added {q : RtRequest} {k : KernelRule} (hread : readRequest o msg = some q)
      (htype : q.type = rtmNewrule.toUInt16) (hrule : q.rule o = some k) : ServesRule o msg rules (k ::ₘ rules)
  | deleted {q : RtRequest} {k : KernelRule} (hread : readRequest o msg = some q)
      (htype : q.type = rtmDelrule.toUInt16) (hk : k ∈ rules) (hsel : q.selects o k) :
      ServesRule o msg rules (rules.erase k)
  | absent {q : RtRequest} (hread : readRequest o msg = some q) (htype : q.type = rtmDelrule.toUInt16)
      (hnone : ∀ k ∈ rules, ¬ q.selects o k) : ServesRule o msg rules rules

/-- A kernel that does what is documented and no more. -/
def plainKernel (o : ByteOrder) : Kernel where
  serveRoute msg routes :=
    match readRequest o msg with
    | none => routes
    | some q =>
      match q.route o with
      | none => routes
      | some k =>
        if q.type = rtmNewroute.toUInt16 then insert k routes
        else if q.type = rtmDelroute.toUInt16 then routes.erase k
        else routes
  ServesRule := ServesRule o

theorem plainKernel_documented (o : ByteOrder) : (plainKernel o).Documented o where
  newRoute routes hread htype hroute := by
    simp only [plainKernel, hread, hroute, htype, if_true]
  delRoute routes hread htype hroute := by
    have hdel : rtmDelroute.toUInt16 ≠ rtmNewroute.toUInt16 := by decide
    simp only [plainKernel, hread, hroute, htype, if_true, if_neg hdel]
  newRule hread htype hrule := by
    have hnew : rtmNewrule.toUInt16 ≠ rtmDelrule.toUInt16 := by decide
    constructor
    · intro h
      cases h with
      | added hread' _ hrule' =>
        obtain rfl := Option.some.inj (hread.symm.trans hread')
        rw [Option.some.inj (hrule'.symm.trans hrule)]
      | deleted hread' htype' | absent hread' htype' =>
        obtain rfl := Option.some.inj (hread.symm.trans hread')
        exact absurd (htype.symm.trans htype') hnew
    · rintro rfl
      exact .added hread htype hrule
  delRule hread htype h := by
    have hdel : rtmDelrule.toUInt16 ≠ rtmNewrule.toUInt16 := by decide
    cases h with
    | added hread' htype' =>
      obtain rfl := Option.some.inj (hread.symm.trans hread')
      exact absurd (htype.symm.trans htype') hdel
    | deleted hread' _ hk hsel =>
      obtain rfl := Option.some.inj (hread.symm.trans hread')
      exact .inl ⟨_, hk, hsel, rfl⟩
    | absent hread' _ hnone =>
      obtain rfl := Option.some.inj (hread.symm.trans hread')
      exact .inr ⟨hnone, rfl⟩
  delRuleEnds {_ q} rules hread htype := by
    by_cases h : ∃ k ∈ rules, q.selects o k
    · obtain ⟨k, hk, hsel⟩ := h
      exact ⟨_, .deleted hread htype hk hsel⟩
    · exact ⟨rules, .absent hread htype fun k hk hsel ↦ h ⟨k, hk, hsel⟩⟩

/-- A station whose kernel has a route that two of its own entries share. -/
def sharingTables : Routing := { station.routing with kernel := {⟨0x0901a8c0, 0x0201a8c0, 2⟩} }

/-- The routes of two sources by one neighbour are one request, and when it is
carried out for one of them the kernel has none for the other either. -/
theorem kernel_requests_shared : ∃ msg, msg.length = 60 ∧
    rpdbRoute .little station.cfg rtmDelroute 2 0 0x0301a8c0 0x0901a8c0 0x0201a8c0 3 2 = some msg ∧
    rpdbRoute .little station.cfg rtmDelroute 5 8 0x0401a8c0 0x0901a8c0 0x0201a8c0 3 2 = some msg ∧
    (plainKernel .little).serveRoute msg {⟨0x0901a8c0, 0x0201a8c0, 2⟩} = ∅ := by
  obtain ⟨hread, hsame, hserved⟩ := kernel_requests (plainKernel_documented .little) station.cfg
  have hfirst : ∃ msg, rpdbRoute .little station.cfg rtmDelroute 2 0 0x0301a8c0 0x0901a8c0 0x0201a8c0 3 2 = some msg :=
    ⟨_, if_neg (by decide)⟩
  have hsecond : ∃ msg, rpdbRoute .little station.cfg rtmDelroute 5 8 0x0401a8c0 0x0901a8c0 0x0201a8c0 3 2 = some msg :=
    ⟨_, if_neg (by decide)⟩
  obtain ⟨msg, hmsg⟩ := hfirst
  obtain ⟨msg', hmsg'⟩ := hsecond
  obtain rfl : msg = msg' := (hsame _ _ _ _ _ _ _ _ _ _ _ _ _ _ _ _ _ _ hmsg hmsg').mpr ⟨rfl, rfl, rfl, rfl, rfl⟩
  refine ⟨msg, (hread _ _ _ _ _ _ _ _ _ hmsg).1, hmsg, hmsg', ?_⟩
  have hgone := (hserved sharingTables false 0x0301a8c0 ⟨0x0901a8c0, 0x0201a8c0, 2⟩ 2 0 3).2
  have hcall : rpdbRoute .little station.cfg rtmDelroute 2 0 0x0301a8c0 0x0901a8c0 0x0201a8c0 3
      (2 : UInt8).toUInt32 = some msg := hmsg
  have hnext : sharingTables.netlink.next = true := rfl
  rw [hcall, hnext, Kernel.servedRoutes, if_pos rfl] at hgone
  exact hgone.symm.trans (by decide)

end Fbaodv.Proofs.KernelRequests
