import Fbaodv.Model.Routing
import Fbaodv.Foundation.LinkedCells

namespace Fbaodv.Model.Routing

open Fbaodv.Foundation DoublyLinked

/-- The test by which `flush_aodv_route_table` comes to `remove_aodv_route`. -/
def flushRemoves (now : ℕ) (e : AodvRoute) : Bool :=
  timeBefore e.lifetime now && !e.selfRoute && e.state == .invalid

/-- The loop of `flush_aodv_route_table` along the links of the entries, which
are kept by their addresses. `none` is a fault, or more turns than allowed. -/
def flushLoop (cfg : Config) (now : ℕ) :
    ℕ → Option ℕ → Links ℕ → Routing → Option (Links ℕ × Routing)
  | _, none, q, r => some (q, r)
  | 0, some _, _, _ => none
  | turns + 1, some p, q, r => do
    let e ← r.entryAt p
    let r := r.flushEntry cfg now e
    if flushRemoves now e then flushLoop cfg now turns (q.next p) (q.remove p) r
    else flushLoop cfg now turns (q.next p) q r

/-- `flush_aodv_route_table` on the linked table, before its timer is set
again. -/
def flushLinked (cfg : Config) (now turns : ℕ) (q : Links ℕ) (r : Routing) :
    Option (Links ℕ × Routing) := do
  let (q, r) ← flushLoop cfg now turns q.head q r
  some (q, if cfg.gRoutingMetric = .wcim then r.updateMyLoad else r)

end Fbaodv.Model.Routing

namespace Fbaodv.Model

open Fbaodv.Foundation DoublyLinked LinkedCells

/-- `aodv_route_table` as it lies in memory. -/
abbrev RouteHeap := Cells AodvRoute

namespace RouteHeap

/-- `init_aodv_route_table`, whatever the memory held before. -/
def initAodvRouteTable (next prev : ℕ → Option ℕ) : RouteHeap :=
  ⟨⟨none, next, prev⟩, fun _ => none⟩

/-- `insert_aodv_route` for the entry at `new`. -/
def insertAodvRoute (turns new : ℕ) (h : RouteHeap) : Option RouteHeap := do
  let e ← h.cell new
  let (prevRoute, tmpRoute) ← h.walk (fun x => x.dstIp < e.dstIp) turns none h.links.head
  let q := h.links
  match q.head, tmpRoute with
  | none, _ => some { h with links := { q with head := some new } }
  | some head, some p =>
    if p = head then
      some { h with links :=
        { head := some new
          next := Function.update q.next new (some head)
          prev := Function.update q.prev head (some new) } }
    else
      let before ← prevRoute
      some { h with links :=
        { head := some head
          next := Function.update (Function.update q.next new (some p)) before (some new)
          prev := Function.update (Function.update q.prev p (some new)) new (some before) } }
  | some head, none =>
    let before ← prevRoute
    some { h with links :=
      { head := some head
        next := Function.update (Function.update q.next new none) before (some new)
        prev := Function.update q.prev new (some before) } }

/-- The entry that `create_aodv_route` fills in at the address `p`. -/
def newEntry (p : ℕ) (srcIp dstIp : Ip) (tos : UInt8) (dstId : UInt32) (lifetime : ℕ) :
    AodvRoute where
  ptr := p
  srcIp := srcIp
  dstIp := dstIp
  tos := tos
  nextHop := 0
  lastHop := srcIp
  numHops := 0
  pathMetric := 0
  dstId := dstId
  lifetime := lifetime
  load := 0
  neighRoute := false
  selfRoute := false
  state := .invalid

/-- `create_aodv_route`, for which `kmalloc` answers with an address or not;
what the memory there holds becomes the `lifetime`. -/
def createAodvRoute (turns : ℕ) (kmalloc : Option ℕ) (srcIp dstIp : Ip) (tos : UInt8)
    (dstId : UInt32) (lifetime : ℕ) (h : RouteHeap) : Option RouteHeap :=
  match kmalloc with
  | none => some h
  | some p => insertAodvRoute turns p (h.alloc p (newEntry p srcIp dstIp tos dstId lifetime))

/-- A pointer that is `NULL` or leads to an entry. -/
def valid (p : Option ℕ) (h : RouteHeap) : Bool := p.all fun p => (h.cell p).isSome

/-- `remove_aodv_route`; `none` is the use of an entry that has been freed. -/
def removeAodvRoute (p : ℕ) (h : RouteHeap) : Option RouteHeap :=
  if h.valid (some p) && h.valid (h.links.prev p) && h.valid (h.links.next p) then
    some { links := h.links.remove p, cell := Function.update h.cell p none }
  else none

/-- The assignments of `expire_aodv_route`. -/
def expired (now : ℕ) (e : AodvRoute) : AodvRoute :=
  { e with lifetime := now + deletePeriod, state := .invalid }

/-- The assignments of `rreq_aodv_route`, the last of them in WCIM mode only. -/
def requested (now : ℕ) (nextHop : Ip) (hops : UInt8) (dstId pathMetric : UInt32)
    (load : Option UInt8) (e : AodvRoute) : AodvRoute :=
  { e with
    pathMetric := pathMetric
    dstId := dstId
    numHops := hops
    nextHop := nextHop
    lifetime := now + deletePeriod
    state := .active
    load := load.getD e.load }

/-- The assignments of `rrep_aodv_route`. -/
def replied (now : ℕ) (e : AodvRoute) : AodvRoute :=
  { e with state := .replied, lifetime := now + deletePeriod }

/-- The two loops that the finders share: to the first entry that is not below
`dstIp`, then along the run of it. -/
def findInRun (turns : ℕ) (dstIp : Ip) (hit : AodvRoute → Bool) (h : RouteHeap) :
    Option (Option ℕ) := do
  let (_, tmpRoute) ← h.walk (fun x => x.dstIp < dstIp) turns none h.links.head
  match tmpRoute with
  | none => some none
  | some p =>
    let e ← h.cell p
    if e.dstIp ≠ dstIp then some none else h.search (fun x => x.dstIp == dstIp) hit turns (some p)

def findAodvRoute (turns : ℕ) (srcIp dstIp : Ip) (tos : UInt8) (h : RouteHeap) :
    Option (Option ℕ) :=
  h.findInRun turns dstIp fun e => e.srcIp == srcIp && e.tos == tos

def findAodvRouteById (turns : ℕ) (dstIp : Ip) (dstId : UInt32) (h : RouteHeap) :
    Option (Option ℕ) :=
  h.findInRun turns dstIp fun e => e.dstId == dstId

end RouteHeap

end Fbaodv.Model
