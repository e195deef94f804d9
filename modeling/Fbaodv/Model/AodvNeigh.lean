import Fbaodv.Model.Rerr

namespace Fbaodv.Model.Node

open Fbaodv.Foundation

def delayVectorInit : List UInt32 := List.replicate ettProbesMax defaultEttMetric

/-- The neighbour and its timers are gone; this is where `delete_aodv_neigh` calls
`gen_rerr`. -/
def unlinkNeigh (ip : Ip) (n : Node) : Node :=
  let n := { n with aodvNeighList := n.aodvNeighList.eraseP fun x ↦ x.ip == ip }
  if n.cfg.gRoutingMetric ≠ .hops then
    ((n.removeTimer ip ip noTos .sendEtt).removeTimer ip ip noTos .ettCleanup).updateTimers
  else n

def deleteAodvNeigh (ip : Ip) (n : Node) : Option Node :=
  if n.aodvNeighList.any fun x ↦ x.ip == ip then (n.unlinkNeigh ip).genRerr ip else some n

/-- `route_aodv_neigh`. When the kernel refuses the route, the entry is freed
and stays linked. -/
def routeAodvNeigh (neighIp : Ip) (n : Node) : Option (Bool × Node) := do
  let dstId ← n.localDstId
  match n.routing.createAodvRoute n.cfg.gMeshIp neighIp 0 dstId with
  | (none, r) => some (false, { n with routing := r })
  | (some e, r) =>
    let r := r.modifyAt e.ptr fun e ↦
      { e with numHops := 1, pathMetric := 1, state := .active, neighRoute := true, selfRoute := true }
    match r.findSrcListEntry n.cfg.gMeshIp with
    | none => some (false, { n with routing := r })
    | some _ =>
      let (ok, r) := r.newRoute n.cfg false n.cfg.gMeshIp ⟨neighIp, neighIp, 1⟩
      if ok then some (true, { n with routing := r })
      else some (false, { n with routing := { r with freed := e.ptr :: r.freed } })

/-- The entry that `create_aodv_neigh` fills in. -/
def newAodvNeigh (cfg : Config) (ip : Ip) : AodvNeigh where
  ip := ip
  lifetime := 0
  etx := ⟨0, 0, 0⟩
  ett :=
    { countRcv := 0
      lastCount := 0
      ettWindow := UInt8.ofNat (ettProbesMin + 1)
      sec := 0
      usec := 0
      measDelay := defaultEttMetric
      recvDelays := delayVectorInit
      reset := 0
      interval := ettFastInterval
      fixedRate := 0 }
  loadMetric := ⟨0, 0, List.replicate neighTablesize 0⟩
  recvRate := 0
  sendRate := cfg.gFixedRate
  etxMetric := 0

/-- The delay `1000 + 10 * jitter` before the first probe. -/
def ettJitterDelay (rand : UInt32) (ip : Ip) : ℕ := 1000 + 10 * (rand * ip % 2000).toNat

def ettCleanupDelay : ℕ := ettInterval.toNat * (1 + allowedEttLoss) + 100

def createAodvNeigh (ip : Ip) (n : Node) : Option (Bool × Node) := do
  let (ok, n) := n.alloc
  if !ok then some (false, n)
  else if (n.aodvNeighList.dropWhile fun x ↦ x.ip < ip).head?.any fun x ↦ x.ip == ip then
    some (false, n)
  else do
    let (ok, n) ← n.routeAodvNeigh ip
    if !ok then some (false, n)
    else
      let n := { n with
        aodvNeighList :=
          OrderedList.insertBy (fun x ↦ x.ip < ip) (newAodvNeigh n.cfg ip) n.aodvNeighList }
      if n.cfg.gRoutingMetric ≠ .hops then
        let (rand, n) := n.getRandom
        let n := n.insertTimer .sendEtt (ettJitterDelay rand ip) ip
        some (true, (n.insertTimer .ettCleanup ettCleanupDelay ip).updateTimers)
      else some (true, n)

/-- `create_aodv_neigh_2h`, and whether it returned an entry. -/
def createAodvNeigh2h (ip : Ip) (n : Node) : Bool × Node :=
  let (ok, n) := n.alloc
  if !ok then (false, n)
  else if (n.aodvNeighList2h.dropWhile fun x ↦ x.ip < ip).head?.any fun x ↦ x.ip == ip then
    (false, n)
  else
    let new : AodvNeigh2h := ⟨ip, n.now + neighbor2hTimeout, 0, 0⟩
    let n := { n with
      aodvNeighList2h := OrderedList.insertBy (fun x ↦ x.ip < ip) new n.aodvNeighList2h }
    (true, (n.insertTimer .neighbor2h (neighbor2hTimeout + 100) ip).updateTimers)

def deleteAodvNeigh2h (ip : Ip) (n : Node) : Node :=
  if n.aodvNeighList2h.any fun x ↦ x.ip == ip then
    { n with aodvNeighList2h := n.aodvNeighList2h.eraseP fun x ↦ x.ip == ip }.updateTimers
  else n

end Fbaodv.Model.Node
