import Fbaodv.Model.FlowType
import Fbaodv.Model.TimerQueue
import Mathlib.Data.Finset.Basic

namespace Fbaodv.Model

open Fbaodv.Foundation

/-- `aodv_route`. The entry's address `ptr` tells entries of one key apart. -/
structure AodvRoute where
  ptr : ℕ
  srcIp : Ip
  dstIp : Ip
  tos : UInt8
  nextHop : Ip
  lastHop : Ip
  numHops : UInt8
  pathMetric : UInt32
  dstId : UInt32
  lifetime : ℕ
  load : UInt8
  neighRoute : Bool
  selfRoute : Bool
  state : RouteState
  deriving DecidableEq

structure SrcListEntry where
  ip : Ip
  rtTable : ℕ
  numRoutes : ℤ
  deriving DecidableEq

/-- What a request of `rpdb_route` says about a route. -/
structure KernelRoute where
  dst : Ip
  gateway : Ip
  metric : UInt8
  deriving DecidableEq

/-- The route table, the source list and the kernel's table. `installed` is a
history variable: the kernel routes that `rrep_aodv_route` put there. The
outcomes of `kmalloc` and of netlink requests come from two lists, and a fresh
entry finds its `lifetime` in `junk`. An entry in `freed` was freed while it was
linked, and from then on the model supposes that its memory stays as it was. In
runs in which no step is `FreesLinked`, `freed` is empty. -/
structure Routing where
  table : List AodvRoute
  srcList : List SrcListEntry
  kernel : Finset KernelRoute
  installed : Finset KernelRoute
  localRoute : ℕ
  load : UInt8
  loadSeq : UInt16
  heap : ℕ
  freed : List ℕ
  kmalloc : Outcomes
  netlink : Outcomes
  junk : List ℕ

def AodvRoute.kernelRoute (e : AodvRoute) : KernelRoute := ⟨e.dstIp, e.nextHop, e.numHops⟩

/-- The test by which `rreq_aodv_route` drops what it hears about a route that
it has: an older or not a better one. -/
def AodvRoute.rejects (e : AodvRoute) (dstId pathMetric : UInt32) : Bool :=
  e.dstId > dstId || (dstId == e.dstId && pathMetric ≥ e.pathMetric)

namespace Routing

def modifyAt (ptr : ℕ) (f : AodvRoute → AodvRoute) (r : Routing) : Routing :=
  { r with table := r.table.map fun e ↦ if e.ptr = ptr then f e else e }

def entryAt (ptr : ℕ) (r : Routing) : Option AodvRoute := r.table.find? fun e ↦ e.ptr == ptr

def findAodvRoute (srcIp dstIp : Ip) (tos : UInt8) (r : Routing) : Option AodvRoute :=
  OrderedList.findRun (fun e ↦ e.dstIp < dstIp) (fun e ↦ e.dstIp == dstIp)
    (fun e ↦ e.srcIp == srcIp && e.tos == tos) r.table

def findAodvRouteById (dstIp : Ip) (dstId : UInt32) (r : Routing) : Option AodvRoute :=
  OrderedList.findRun (fun e ↦ e.dstIp < dstIp) (fun e ↦ e.dstIp == dstIp)
    (fun e ↦ e.dstId == dstId) r.table

def findSrcListEntry (ip : Ip) (r : Routing) : Option SrcListEntry :=
  r.srcList.find? fun s ↦ s.ip == ip

/-- `rpdb_route` on `RTM_NEWROUTE`, and whether it succeeded. The history
variable keeps what `rrep_aodv_route` asks for. -/
def newRoute (cfg : Config) (byRrep : Bool) (srcIp : Ip) (k : KernelRoute) (r : Routing) :
    Bool × Routing :=
  if k.dst = cfg.dtnHelloIp ∨ srcIp = cfg.dtnHelloIp then (true, r)
  else if r.netlink.next then
    (true, { r with
      kernel := insert k r.kernel
      installed := if byRrep then insert k r.installed else r.installed
      netlink := r.netlink.rest })
  else (false, { r with netlink := r.netlink.rest })

/-- `rpdb_route` on `RTM_DELROUTE`, and whether it succeeded. -/
def delRoute (cfg : Config) (srcIp : Ip) (k : KernelRoute) (r : Routing) : Bool × Routing :=
  if k.dst = cfg.dtnHelloIp ∨ srcIp = cfg.dtnHelloIp then (true, r)
  else if r.netlink.next then
    (true, { r with
      kernel := r.kernel.erase k, installed := r.installed.erase k, netlink := r.netlink.rest })
  else (false, { r with netlink := r.netlink.rest })

/-- `rpdb_rule`; the rules themselves are not modelled. -/
def rpdbRule (r : Routing) : Bool × Routing :=
  (r.netlink.next, { r with netlink := r.netlink.rest })

def findFirstRttable (r : Routing) : ℕ :=
  ((List.range' 1 maxRouteTables).find? fun n ↦ !r.srcList.any fun s ↦ s.rtTable == n).getD
    (maxRouteTables + 1)

def insertSrcListEntry (cfg : Config) (ip : Ip) (r : Routing) : Option SrcListEntry × Routing :=
  if !r.kmalloc.next then (none, { r with kmalloc := r.kmalloc.rest })
  else
    let r := { r with kmalloc := r.kmalloc.rest }
    let numRoutes := if ip = cfg.gMeshIp then 1 else 0
    if ip ≠ gNullIp then
      let nTable := r.findFirstRttable
      if maxRouteTables < nTable then (none, r)
      else
        let (ok, r) := r.rpdbRule
        if ok then
          let s := ⟨ip, nTable, numRoutes⟩
          (some s, { r with srcList := s :: r.srcList })
        else (none, r)
    else
      let s := ⟨ip, defaultRouteTable, numRoutes⟩
      (some s, { r with srcList := s :: r.srcList })

def modifySrc (ip : Ip) (f : ℤ → ℤ) (r : Routing) : Routing :=
  { r with
    srcList := OrderedList.modifyFirst (fun s ↦ s.ip == ip)
      (fun s ↦ { s with numRoutes := f s.numRoutes }) r.srcList }

def deleteSrcListEntry (ip : Ip) (r : Routing) : Routing :=
  match r.findSrcListEntry ip with
  | none => r
  | some _ =>
    let r := { r with srcList := r.srcList.eraseP fun s ↦ s.ip == ip }
    if ip ≠ gNullIp then r.rpdbRule.2 else r

/-- `update_my_load`. -/
def updateMyLoad (r : Routing) : Routing :=
  let newLoad := (r.table.filter fun e ↦ e.state == .active).foldl (fun acc e ↦ acc + e.load) 0
  if r.load ≠ newLoad then
    { r with load := newLoad, loadSeq := if r.loadSeq = 65535 then 1 else r.loadSeq + 1 }
  else r

def expireAodvRoute (now : ℕ) (ptr : ℕ) (r : Routing) : Routing :=
  r.modifyAt ptr fun e ↦ { e with lifetime := now + deletePeriod, state := .invalid }

def removeAodvRoute (ptr : ℕ) (r : Routing) : Routing :=
  { r with table := r.table.filter fun e ↦ e.ptr ≠ ptr }

def insertAodvRoute (new : AodvRoute) (r : Routing) : Routing :=
  { r with table := OrderedList.insertBy (fun e ↦ e.dstIp < new.dstIp) new r.table }

def createAodvRoute (srcIp dstIp : Ip) (tos : UInt8) (dstId : UInt32) (r : Routing) :
    Option AodvRoute × Routing :=
  if !r.kmalloc.next then (none, { r with kmalloc := r.kmalloc.rest })
  else
    let new : AodvRoute :=
      { ptr := r.heap
        srcIp := srcIp
        dstIp := dstIp
        tos := tos
        nextHop := 0
        lastHop := srcIp
        numHops := 0
        pathMetric := 0
        dstId := dstId
        lifetime := r.junk.headD 0
        load := 0
        neighRoute := false
        selfRoute := false
        state := .invalid }
    (some new,
      { r.insertAodvRoute new with
        heap := r.heap + 1, kmalloc := r.kmalloc.rest, junk := r.junk.tail })

/-- The source list entry that `rreq_aodv_route` finds or inserts. -/
def sourceEntry (cfg : Config) (srcIp : Ip) (r : Routing) : Option SrcListEntry × Routing :=
  match r.findSrcListEntry srcIp with
  | none => r.insertSrcListEntry cfg srcIp
  | some s => (some s, r)

/-- The entry that `rreq_aodv_route` goes on to update, with the state it had. -/
def rreqEntry (cfg : Config) (srcIp dstIp : Ip) (tos : UInt8) (dstId pathMetric : UInt32)
    (r : Routing) : Option (AodvRoute × RouteState) × Routing :=
  match r.findAodvRoute srcIp dstIp tos with
  | none =>
    match r.createAodvRoute srcIp dstIp tos dstId with
    | (none, r) => (none, r)
    | (some e, r) =>
      match r.sourceEntry cfg srcIp with
      | (none, r) => (none, r)
      | (some _, r) => (some (e, .invalid), r.modifySrc srcIp (· + 1))
  | some e =>
    if e.rejects dstId pathMetric then (none, r)
    else if e.state ≠ .invalid then
      let (ok, r) := r.delRoute cfg e.srcIp e.kernelRoute
      if ok then (some (e, e.state), r) else (none, r)
    else (some (e, e.state), r)

/-- `rreq_aodv_route`: whether the route was created or replaced. The new next
hop is given by its address and its `send_rate`. -/
def rreqAodvRoute (cfg : Config) (now : ℕ) (srcIp dstIp : Ip) (tos : UInt8) (nextHop : Ip)
    (sendRate : UInt16) (hops : UInt8) (dstId pathMetric : UInt32) (r : Routing) :
    Option (Bool × Routing) :=
  match r.rreqEntry cfg srcIp dstIp tos dstId pathMetric with
  | (none, r) => some (false, r)
  | (some (e, previousState), r) => do
    let r := r.modifyAt e.ptr fun e ↦
      { e with
        pathMetric := pathMetric
        dstId := dstId
        numHops := hops
        nextHop := nextHop
        lifetime := now + deletePeriod
        state := .active }
    if cfg.gRoutingMetric = .wcim then
      let load ← computeLoad sendRate tos
      let r := r.modifyAt e.ptr fun e ↦ { e with load := load }
      some (true, if previousState = .active then r.updateMyLoad else r)
    else some (true, r)

/-- `rrep_aodv_route` without `ipq_send_ip`, which its caller performs when the
route was installed. -/
def rrepAodvRoute (cfg : Config) (now : ℕ) (ptr : ℕ) (r : Routing) :
    Option (Option AodvRoute × Routing) := do
  let e ← r.entryAt ptr
  match r.findSrcListEntry e.srcIp with
  | none => some (none, r)
  | some _ =>
    let (ok, r) := r.newRoute cfg true e.srcIp e.kernelRoute
    if ok then
      some (some e,
        r.modifyAt ptr fun e ↦ { e with state := .replied, lifetime := now + deletePeriod })
    else some (none, r)

def flushEntry (cfg : Config) (now : ℕ) (r : Routing) (e : AodvRoute) : Routing :=
  if timeBefore e.lifetime now && !e.selfRoute then
    if e.state ≠ .invalid then r.expireAodvRoute now e.ptr
    else
      let r :=
        match r.findSrcListEntry e.srcIp with
        | none => r
        | some s =>
          let r := r.modifySrc e.srcIp (· - 1)
          let r := if e.neighRoute then r else (r.delRoute cfg e.srcIp e.kernelRoute).2
          if s.numRoutes - 1 ≤ 0 then
            if s.ip ≠ cfg.gMeshIp then r.deleteSrcListEntry e.srcIp
            else r.modifySrc e.srcIp fun _ ↦ 1
          else r
      r.removeAodvRoute e.ptr
  else r

/-- The part of `flush_aodv_route_table` before its timer is set again. -/
def flushAodvRouteTable (cfg : Config) (now : ℕ) (r : Routing) : Routing :=
  let r := r.table.foldl (flushEntry cfg now) r
  if cfg.gRoutingMetric = .wcim then r.updateMyLoad else r

end Routing

end Fbaodv.Model
