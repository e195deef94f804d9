import Fbaodv.Foundation.Attributes
import Fbaodv.Model.MessageBytes
import Fbaodv.Model.Routing
import Mathlib.Algebra.Order.Group.Multiset

namespace Fbaodv.Model

open Fbaodv.Foundation

def sizeofNlmsghdr : ℕ := 16
def sizeofRtmsg : ℕ := 12

/-- `req`, with the room for attributes in `buf`. -/
def sizeofReq : ℕ := sizeofNlmsghdr + sizeofRtmsg + 400

def rtmNewroute : UInt8 := 24
def rtmDelroute : UInt8 := 25
def rtmNewrule : UInt8 := 32
def rtmDelrule : UInt8 := 33

def rtaDst : UInt16 := 1
def rtaSrc : UInt16 := 2
def rtaIif : UInt16 := 3
def rtaOif : UInt16 := 4
def rtaGateway : UInt16 := 5
def rtaPriority : UInt16 := 6

/-- `NLM_F_REQUEST | NLM_F_CREATE`. -/
def nlmFlags : UInt16 := 0x401

def afInet : UInt8 := 2
def rtprotStatic : UInt8 := 4
def rtScopeUniverse : UInt8 := 0
def rtScopeLink : UInt8 := 253
def rtnUnicast : UInt8 := 1

/-- An attribute with an address or an `int`, of `sizeof(struct rtattr) + 4`
bytes. -/
def attribute4 (o : ByteOrder) (type : UInt16) (v : UInt32) : Attribute := ⟨type, o.put 4 v.toNat⟩

/-- The fields of `nlmsghdr` and `rtmsg` that a request does not leave zero. -/
structure RtHeader where
  type : UInt8
  dstLen : UInt8
  srcLen : UInt8
  table : UInt8
  scope : UInt8

/-- The stores into the headers, with the length `NLMSG_LENGTH(rtl)`. -/
def RtHeader.stores (o : ByteOrder) (h : RtHeader) (rtl : ℕ) : List Store :=
  [storeU32 o 0 (UInt32.ofNat (sizeofNlmsghdr + rtl)), storeU16 o 6 nlmFlags, storeU16 o 4 h.type.toUInt16,
    storeU8 16 afInet, storeU8 17 h.dstLen, storeU8 18 h.srcLen, storeU8 20 h.table, storeU8 21 rtprotStatic,
    storeU8 22 h.scope, storeU8 23 rtnUnicast]

/-- What a request sends of `req`, which it has cleared: the attributes are
written into `buf` one behind the other, `rtl` counts their lengths. -/
def sentRequest (o : ByteOrder) (h : RtHeader) (attributes : List Attribute) : Bytes :=
  let rtl := sizeofRtmsg + Attribute.sizes attributes
  let req := storeAll (List.replicate sizeofReq 0)
    (Attribute.storesAll o (sizeofNlmsghdr + sizeofRtmsg) attributes ++ h.stores o rtl)
  req.take (sizeofNlmsghdr + rtl)

namespace Rpdb

/-- The message of `rpdb_route`, which keeps the routes of the DTN hello protocol
from the kernel. The route table, the ToS and the source are not part of it. -/
def rpdbRoute (o : ByteOrder) (cfg : Config) (type : UInt8) (_rtTable : ℕ) (_tos : UInt8) (ipSrc ipDst ipGw : Ip)
    (devIndex metric : UInt32) : Option Bytes :=
  if ipDst = cfg.dtnHelloIp ∨ ipSrc = cfg.dtnHelloIp then none
  else
    some <| sentRequest o
      { type := type
        dstLen := if ipDst ≠ gNullIp then 32 else 0
        srcLen := 0
        table := 0
        scope := if ipDst = cfg.gMeshIp then rtScopeLink else rtScopeUniverse }
      [attribute4 o rtaDst ipDst, attribute4 o rtaOif devIndex, attribute4 o rtaGateway ipGw,
        attribute4 o rtaPriority metric]

/-- The four bytes that are copied of the name `lo`. The last one lies behind the
string. -/
def loName (past : UInt8) : Bytes := [108, 111, 0, past]

/-- The message of `rpdb_rule`. A rule is deleted by its priority. -/
def rpdbRule (o : ByteOrder) (cfg : Config) (type : UInt8) (rtTable : ℕ) (ipSrc dstIp : Ip) (past : UInt8) : Bytes :=
  let normal : Bool := dstIp == gNullIp
  let table : UInt32 := UInt32.ofNat (if normal then rtTable + 1000 else rtTable + 500)
  let isLocal : Bool := ipSrc == cfg.gMeshIp || !normal
  let selectors : List Attribute :=
    if type ≠ rtmNewrule then []
    else if isLocal then
      [attribute4 o rtaSrc gNullIp,
        if normal then ⟨rtaIif, loName past⟩ else attribute4 o rtaDst dstIp]
    else [attribute4 o rtaSrc ipSrc]
  sentRequest o
    { type := type
      dstLen := if type = rtmNewrule ∧ !normal then 32 else 0
      srcLen := if type = rtmNewrule ∧ !isLocal then 32 else 0
      table := if normal then UInt8.ofNat rtTable else UInt8.ofNat defaultRouteTable
      scope := rtScopeUniverse }
    (selectors ++ [attribute4 o rtaPriority table])

end Rpdb

/-- A request as it is read. -/
structure RtRequest where
  type : UInt16
  flags : UInt16
  family : UInt8
  dstLen : UInt8
  srcLen : UInt8
  tos : UInt8
  table : UInt8
  protocol : UInt8
  scope : UInt8
  rtmType : UInt8
  attributes : List Attribute
  deriving DecidableEq

/-- The message is read if its length is the one that its header has. -/
def readRequest (o : ByteOrder) (l : Bytes) : Option RtRequest :=
  if l.length < sizeofNlmsghdr + sizeofRtmsg ∨ o.get (field l 0 4) ≠ l.length then none
  else some
    { type := UInt16.ofNat (o.get (field l 4 2))
      flags := UInt16.ofNat (o.get (field l 6 2))
      family := byteAt l 16
      dstLen := byteAt l 17
      srcLen := byteAt l 18
      tos := byteAt l 19
      table := byteAt l 20
      protocol := byteAt l 21
      scope := byteAt l 22
      rtmType := byteAt l 23
      attributes := Attribute.readAll o (l.drop (sizeofNlmsghdr + sizeofRtmsg)) }

namespace RtRequest

/-- The value of the first attribute of a type, if there is one. -/
def find (type : UInt16) (q : RtRequest) : Option Bytes :=
  (q.attributes.find? fun a ↦ a.type == type).map Attribute.value

def number (o : ByteOrder) (type : UInt16) (q : RtRequest) : Option UInt32 :=
  (q.find type).map fun l ↦ UInt32.ofNat (o.get l)

/-- The route that a request is about. -/
def route (o : ByteOrder) (q : RtRequest) : Option KernelRoute := do
  let dst ← q.number o rtaDst
  let gateway ← q.number o rtaGateway
  let metric ← q.number o rtaPriority
  some ⟨dst, gateway, metric.toUInt8⟩

end RtRequest

/-- A rule of the kernel. An interface name ends at the first zero. -/
structure KernelRule where
  priority : UInt32
  table : UInt8
  src : Option Ip
  dst : Option Ip
  iif : Option Bytes
  deriving DecidableEq

namespace RtRequest

/-- The rule that a request creates. An address counts by the length of its
prefix. -/
def rule (o : ByteOrder) (q : RtRequest) : Option KernelRule :=
  (q.number o rtaPriority).map fun priority ↦
    { priority := priority
      table := q.table
      src := if q.srcLen = 0 then none else q.number o rtaSrc
      dst := if q.dstLen = 0 then none else q.number o rtaDst
      iif := (q.find rtaIif).map (List.takeWhile (· ≠ 0)) }

/-- The rules that a deletion may mean, where only its priority and its table
are given. -/
def selects (o : ByteOrder) (q : RtRequest) (k : KernelRule) : Prop :=
  (∀ priority ∈ q.number o rtaPriority, k.priority = priority) ∧ (q.table = 0 ∨ k.table = q.table)

end RtRequest

/-- What a kernel makes of the requests that it carries out: the routes it then
has, and the rules that it may come to. -/
structure Kernel where
  serveRoute : Bytes → Finset KernelRoute → Finset KernelRoute
  ServesRule : Bytes → Multiset KernelRule → Multiset KernelRule → Prop

namespace Kernel

/-- What `rtnetlink` documents. A route or a rule is added as the request has it,
a route is deleted as the request has it, and the deletion of a rule takes one of
those that are meant, if there is one. -/
structure Documented (o : ByteOrder) (kernel : Kernel) : Prop where
  newRoute : ∀ {msg q k} routes, readRequest o msg = some q → q.type = rtmNewroute.toUInt16 →
    q.route o = some k → kernel.serveRoute msg routes = insert k routes
  delRoute : ∀ {msg q k} routes, readRequest o msg = some q → q.type = rtmDelroute.toUInt16 →
    q.route o = some k → kernel.serveRoute msg routes = routes.erase k
  newRule : ∀ {msg q k rules rules'}, readRequest o msg = some q → q.type = rtmNewrule.toUInt16 →
    q.rule o = some k → (kernel.ServesRule msg rules rules' ↔ rules' = k ::ₘ rules)
  delRule : ∀ {msg q rules rules'}, readRequest o msg = some q → q.type = rtmDelrule.toUInt16 →
    kernel.ServesRule msg rules rules' → (∃ k ∈ rules, q.selects o k ∧ rules' = rules.erase k) ∨
      (∀ k ∈ rules, ¬ q.selects o k) ∧ rules' = rules
  delRuleEnds : ∀ {msg q} rules, readRequest o msg = some q → q.type = rtmDelrule.toUInt16 →
    ∃ rules', kernel.ServesRule msg rules rules'

/-- The kernel's routes after a call of `rpdb_route`, where `ok` says whether a
request would be carried out. -/
def servedRoutes (kernel : Kernel) (ok : Bool) (call : Option Bytes) (routes : Finset KernelRoute) :
    Finset KernelRoute :=
  match call with
  | none => routes
  | some msg => if ok then kernel.serveRoute msg routes else routes

/-- The kernel's rules after a call that may send a request. -/
inductive AnswersRule (kernel : Kernel) : Bool → Option Bytes → Multiset KernelRule → Multiset KernelRule → Prop
  | silent (ok : Bool) (rules : Multiset KernelRule) : AnswersRule kernel ok none rules rules
  | refused (msg : Bytes) (rules : Multiset KernelRule) : AnswersRule kernel false (some msg) rules rules
  | carried {msg : Bytes} {rules rules' : Multiset KernelRule} (h : kernel.ServesRule msg rules rules') :
      AnswersRule kernel true (some msg) rules rules'

end Kernel

namespace Routing

/-- What `insert_src_list_entry` asks for. -/
def insertRequest (o : ByteOrder) (cfg : Config) (ip : Ip) (past : UInt8) (r : Routing) : Option Bytes :=
  if r.kmalloc.next ∧ ip ≠ gNullIp ∧ r.findFirstRttable ≤ maxRouteTables then
    some (Rpdb.rpdbRule o cfg rtmNewrule r.findFirstRttable ip gNullIp past)
  else none

/-- What `delete_src_list_entry` asks for. -/
def deleteRequest (o : ByteOrder) (cfg : Config) (ip : Ip) (past : UInt8) (r : Routing) : Option Bytes :=
  match r.findSrcListEntry ip with
  | none => none
  | some s => if ip ≠ gNullIp then some (Rpdb.rpdbRule o cfg rtmDelrule s.rtTable ip gNullIp past) else none

/-- What `flush_src_list` asks for, one after the other. -/
def flushRequests (o : ByteOrder) (cfg : Config) (past : UInt8) (r : Routing) : List Bytes :=
  (r.srcList.filter fun s ↦ s.ip ≠ gNullIp).map fun s ↦ Rpdb.rpdbRule o cfg rtmDelrule s.rtTable s.ip gNullIp past

end Routing

end Fbaodv.Model
