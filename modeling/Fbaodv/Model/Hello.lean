import Fbaodv.Model.Rrep

namespace Fbaodv.Model.Node

open Fbaodv.Foundation

/-- Whether `update_neigh_load` takes the pair numbered `loadSeq` over the one
numbered `old`. -/
def newerLoad (old loadSeq : UInt16) : Bool :=
  loadSeq > old || (loadSeq < old && old.toNat - loadSeq.toNat > 64000)

/-- `update_neigh_load` on a neighbour. -/
def updateNeighLoad (load : UInt8) (loadSeq : UInt16) (x : AodvNeigh) : AodvNeigh :=
  if newerLoad x.loadMetric.loadSeq loadSeq then
    { x with loadMetric := { x.loadMetric with load := load, loadSeq := loadSeq } }
  else x

/-- `update_neigh_load` on a 2-hop neighbour. -/
def updateNeighLoad2h (load : UInt8) (loadSeq : UInt16) (x : AodvNeigh2h) : AodvNeigh2h :=
  if newerLoad x.loadSeq loadSeq then { x with load := load, loadSeq := loadSeq } else x

/-- The loop of `update_neightx` from `i` on, with `first_empty`. -/
def neightxLoop (neightx : Ip) : List Ip → ℕ → ℤ → ℤ
  | [], _, firstEmpty => firstEmpty
  | position :: tx, i, firstEmpty =>
    if position = neightx then i
    else neightxLoop neightx tx (i + 1) (if position = 0 ∧ firstEmpty = -1 then i else firstEmpty)

/-- The index that `update_neightx` writes to. -/
def neightxIndex (neightx : Ip) (x : AodvNeigh) : ℤ := neightxLoop neightx x.loadMetric.neighTx 0 (-1)

/-- `update_neightx`. In a full table that does not hold the address the index
stays `-1`, and the word before the table is written: `load_seq` and `load`. -/
def updateNeightx (neightx : Ip) (x : AodvNeigh) : AodvNeigh :=
  let tx := x.loadMetric.neighTx
  match tx.findIdx? fun p ↦ p == neightx with
  | some _ => x
  | none =>
    match tx.findIdx? fun p ↦ p == 0 with
    | some i => { x with loadMetric := { x.loadMetric with neighTx := tx.set i neightx } }
    | none =>
      { x with loadMetric := { x.loadMetric with
          loadSeq := neightx.toUInt16, load := (neightx >>> 16).toUInt8 } }

def computeEtxNeigh (x : AodvNeigh) : AodvNeigh :=
  if x.etx.count = 0 then x
  else
    let recv := if x.etx.count > 10 then 10 else x.etx.count
    let send := if x.etx.sendEtx > 10 then 10 else x.etx.sendEtx
    { x with etx := ⟨0, send, recv⟩, etxMetric := recv * send }

def computeEtx (n : Node) : Node := { n with aodvNeighList := n.aodvNeighList.map computeEtxNeigh }

/-- The delay `HELLO_INTERVAL + jitter`, with a signed remainder as jitter. -/
def helloDelay (rand : UInt32) : ℕ :=
  ((helloInterval : ℤ) + rand.toInt32.toInt.tmod nodeTraversalTime).toNat

def helloOf (ext : List HelloExtension) (n : Node) : Hello where
  neighCount := UInt8.ofNat ext.length
  load := n.routing.load
  loadSeq := n.routing.loadSeq
  ext := ext

def sendHello (ext : List HelloExtension) (n : Node) : Node :=
  let (ok, n) := n.alloc
  if !ok then n
  else
    let n := n.localBroadcast 1 (.hello (n.helloOf ext))
    let (rand, n) := n.getRandom
    let n := (n.insertTimer .hello (helloDelay rand) n.cfg.gMeshIp).updateTimers
    let n := { n with count := n.count + 1 }
    if n.count = 10 then
      let n := { n with count := 0 }
      if n.cfg.gRoutingMetric ≠ .hops then n.computeEtx else n
    else n

/-- The extensions that `gen_hello` collects, last neighbour first, unless
memory runs out. -/
def helloExtensions : List AodvNeigh → List HelloExtension → Node → Option (List HelloExtension) × Node
  | [], ext, n => (some ext, n)
  | x :: l, ext, n =>
    let (ok, n) := n.alloc
    if !ok then (none, n)
    else
      helloExtensions l (⟨x.ip, x.etx.recvEtx, x.loadMetric.load, x.loadMetric.loadSeq⟩ :: ext) n

def genHello (n : Node) : Node :=
  if n.cfg.gRoutingMetric ≠ .hops then
    match helloExtensions n.aodvNeighList [] n with
    | (none, n) => n
    | (some ext, n) => n.sendHello ext
  else n.sendHello []

/-- The ToS under which `recv_hello` looks for the destination of a broken
link. -/
def recoveryTos : UInt8 := 0x02

/-- `is_overlapped_with_route`. -/
def isOverlappedWithRoute (x : BrkLink) (n : Node) : Bool :=
  (OrderedList.findRun (fun e : AodvRoute ↦ e.dstIp < x.lastAvailIp) (fun e ↦ e.dstIp == x.lastAvailIp)
    (fun e ↦ e.srcIp == x.srcIp) n.routing.table).isSome

/-- The scan of the broken links for a new neighbour. -/
def recoverLinks (ip : Ip) : List BrkLink → Node → Option Node
  | [], n => some n
  | x :: l, n =>
    if x.state ≠ .invalid ∧ !n.isOverlappedWithRoute x then
      if x.dstIp = ip then some (n.genRcvp ip)
      else do
        let n ← n.genRreq n.cfg.gMeshIp x.dstIp recoveryTos
        recoverLinks ip l n
    else recoverLinks ip l n

/-- The route redirection for a new neighbour, which stops at the first route
that is not valid. -/
def redirectRoutes : List AodvRoute → Node → Node
  | [], n => n
  | e :: l, n =>
    if e.state = .invalid then n
    else
      let n :=
        if e.srcIp ≠ e.dstIp ∧ e.srcIp ≠ n.cfg.gMeshIp then
          n.genRrdp e.srcIp e.dstIp e.lastHop e.tos
        else n
      let n :=
        if e.srcIp = n.cfg.gMeshIp ∧ n.dtnRegister ∧ e.srcIp ≠ e.dstIp then
          n.send2dtn dtnPort e.srcIp e.dstIp 0 rrdpMessage
        else n
      redirectRoutes l n

/-- The load known of a new neighbour, whose 2-hop entry is given up. -/
def takeNeigh2h (ip : Ip) (n : Node) : UInt8 × UInt16 × Node :=
  match n.findAodvNeigh2h ip with
  | some y => (y.load, y.loadSeq, n.deleteAodvNeigh2h y.ip)
  | none => (0, 0, n)

/-- The part of `recv_hello` for a sender that is not yet a neighbour; `false`
when the neighbour could not be created. -/
def newHelloNeigh (ip : Ip) (n : Node) : Option (Bool × Node) := do
  let (load, loadSeq, n) := n.takeNeigh2h ip
  let (ok, n) ← n.createAodvNeigh ip
  if !ok then some (false, n)
  else
    let n ← recoverLinks ip n.brkList n
    let n := redirectRoutes n.routing.table n
    some (true, n.modifyNeigh ip fun x ↦
      { x with loadMetric := { x.loadMetric with load := load, loadSeq := loadSeq } })

/-- The 2-hop neighbour that an extension names, refreshed or created. -/
def refreshNeigh2h (ip : Ip) (n : Node) : Node :=
  match n.findAodvNeigh2h ip with
  | none => (n.createAodvNeigh2h ip).2
  | some _ =>
    let n := n.removeTimer ip ip noTos .neighbor2h
    let n := (n.insertTimer .neighbor2h (neighbor2hTimeout + 100) ip).updateTimers
    n.modifyNeigh2h ip fun y ↦ { y with lifetime := n.now + neighbor2hTimeout }

/-- What an extension about another node does in WCIM mode. The load is taken
from the header of the HELLO. -/
def recvHelloExtension (orig : Ip) (m : Hello) (ext : HelloExtension) (n : Node) : Node :=
  let n :=
    match n.findAodvNeigh ext.ip with
    | some _ => n.modifyNeigh ext.ip (updateNeighLoad m.load m.loadSeq)
    | none =>
      (n.refreshNeigh2h ext.ip).modifyNeigh2h ext.ip (updateNeighLoad2h m.load m.loadSeq)
  n.modifyNeigh orig (updateNeightx ext.ip)

def recvHelloExtensions (orig : Ip) (m : Hello) : List HelloExtension → Node → Node
  | [], n => n
  | ext :: l, n =>
    if ext.ip = n.cfg.gMeshIp then
      let n := n.modifyNeigh orig fun x ↦ { x with etx := { x.etx with sendEtx := ext.count } }
      if n.cfg.gRoutingMetric = .ett then n else recvHelloExtensions orig m l n
    else
      recvHelloExtensions orig m l
        (if n.cfg.gRoutingMetric = .wcim then n.recvHelloExtension orig m ext else n)

/-- `recv_hello` once the sender is a neighbour. -/
def helloFromNeigh (ip : Ip) (m : Hello) (n : Node) : Node :=
  let n := n.updateNeighLifetime ip
  if n.cfg.gRoutingMetric = .hops then n
  else
    let n := n.modifyNeigh ip fun x ↦ { x with etx := { x.etx with count := x.etx.count + 1 } }
    let n :=
      if n.cfg.gRoutingMetric = .wcim then n.modifyNeigh ip (updateNeighLoad m.load m.loadSeq) else n
    recvHelloExtensions ip m m.ext n

def recvHello (t : Task) (m : Hello) (n : Node) : Option Node :=
  if n.cfg.aodvBlacklistIp.contains t.srcIp then some n
  else
    match n.findAodvNeigh t.srcIp with
    | some _ => some (n.helloFromNeigh t.srcIp m)
    | none => do
      let (ok, n) ← n.newHelloNeigh t.srcIp
      some (if ok then n.helloFromNeigh t.srcIp m else n)

end Fbaodv.Model.Node
