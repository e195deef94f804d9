import Fbaodv.Model.Hello

namespace Fbaodv.Model.Node

open Fbaodv.Foundation

def updateEtt (f : EttParams → EttParams) (x : AodvNeigh) : AodvNeigh := { x with ett := f x.ett }

/-- The entry after the assignments of `reset_ett`. -/
def resetEttNeigh (x : AodvNeigh) : AodvNeigh :=
  { x with
    ett :=
      { x.ett with
        lastCount := 0
        countRcv := 0
        sec := 0
        usec := 0
        reset := 0
        measDelay := defaultEttMetric
        ettWindow := UInt8.ofNat (ettProbesMin + 1)
        interval := ettFastInterval
        fixedRate := 0
        recvDelays := delayVectorInit }
    sendRate := 0 }

def resetEtt (ip : Ip) (n : Node) : Option Node :=
  let n := n.removeTimer ip ip noTos .sendEtt
  let n := n.modifyNeigh ip resetEttNeigh
  let (rand, n) := n.getRandom
  let n := n.insertTimer .sendEtt (ettJitterDelay rand ip) ip
  let n := (n.insertTimer .ettCleanup ettCleanupDelay ip).updateTimers
  n.genRerr ip

/-- `compute_rate`, which divides by the low 16 bits of the estimation. -/
def computeRate (estimation : UInt32) : Option UInt16 :=
  if estimation.toUInt16 = 0 then none
  else
    let bps := UInt16.ofNat (probePacketSize / estimation.toUInt16.toNat)
    some <|
      if bps < 38 then 60
      else if bps < 53 then 90
      else if bps < 78 then 120
      else if bps < 105 then 180
      else if bps < 150 then 240
      else if bps < 210 then 360
      else if bps < 255 then 480
      else 540

/-- `find_delay_range` on the delays after the given one. -/
def findDelayRange (delay : UInt32) (later : List UInt32) : ℕ :=
  (later.takeWhile fun d ↦ d - delay ≤ ettRange).length

/-- The position and the size of the first largest range that `compute_delay`
finds. -/
def largestRange : List UInt32 → ℕ → ℕ × ℕ → ℕ × ℕ
  | [], _, best => best
  | d :: l, i, best =>
    let count := findDelayRange d l
    largestRange l (i + 1) (if count > best.2 then (i, count) else best)

/-- `compute_delay`: the estimation, and whether the delays were reset. -/
def computeDelay (ett : EttParams) : UInt32 × EttParams :=
  let window := ett.recvDelays.take ett.ettWindow.toNat
  let (maxPos, maxCount) := largestRange window 0 (0, 0)
  if maxCount < 2 then (0, ett)
  else
    let sum := ((ett.recvDelays.drop maxPos).take (maxCount + 1)).foldl (fun acc d ↦ d + acc) 0
    (sum / UInt32.ofNat (maxCount + 1), { ett with recvDelays := delayVectorInit })

/-- `delay_vector_add`: the new delay goes before the first larger of the first
`count_rcv + 1` delays, which it shifts. -/
def delayVectorAdd (delay : UInt32) (ett : EttParams) : EttParams :=
  let l := ett.recvDelays.take (ett.countRcv.toNat + 1)
  if l.any fun d ↦ delay < d then
    let shifted := (l.takeWhile fun d ↦ !(delay < d)) ++ delay :: l.dropWhile fun d ↦ !(delay < d)
    { ett with
      recvDelays := shifted.take l.length ++ ett.recvDelays.drop (ett.countRcv.toNat + 1) }
  else ett

def sendEttInfo (ip : Ip) (myRate : UInt16) (fixed : UInt8) (n : Node) : Node :=
  let (ok, n) := n.alloc
  if !ok then n
  else
    match n.findAodvNeigh ip with
    | none => n
    | some x => n.sendMessage ip netDiameter (.ettInfo ⟨fixed, myRate, x.ett.measDelay⟩)

/-- When the largest window gave no estimation: a second round, and after that
a reset. -/
def retryEstimation (ip : Ip) (ett : EttParams) (n : Node) : Option Node :=
  if ett.reset ≠ 0 then n.resetEtt ip
  else
    some (n.modifyNeigh ip (updateEtt fun e ↦
      { e with
        recvDelays := delayVectorInit
        countRcv := 0
        ettWindow := UInt8.ofNat ettProbesMin
        reset := 1 }))

/-- The use that `compute_estimation` makes of the delay that a full window
gave. -/
def useEstimation (ip : Ip) (ett : EttParams) (recvDelay : UInt32) (n : Node) : Option Node :=
  if recvDelay = 0 ∧ ett.ettWindow = UInt8.ofNat ettProbesMax then do
    let n ← n.retryEstimation ip ett
    let x ← n.findAodvNeigh ip
    some (n.sendEttInfo ip x.sendRate 0)
  else if recvDelay = 0 then
    some (n.modifyNeigh ip (updateEtt fun e ↦
      { e with
        ettWindow :=
          if e.ettWindow + 2 > UInt8.ofNat ettProbesMax then UInt8.ofNat ettProbesMax
          else e.ettWindow + 2 }))
  else if recvDelay = defaultEttMetric then n.resetEtt ip
  else do
    let n := n.modifyNeigh ip (updateEtt fun e ↦
      { e with
        recvDelays := delayVectorInit
        countRcv := 0
        ettWindow := UInt8.ofNat ettProbesMin
        reset := 0 })
    let rate ← computeRate recvDelay
    let n := n.modifyNeigh ip fun x ↦ { x with sendRate := rate }
    some (n.sendEttInfo ip rate 0)

/-- `compute_estimation` for the neighbour `ip`. -/
def computeEstimation (ip : Ip) (n : Node) : Option Node := do
  let x ← n.findAodvNeigh ip
  let ett := { x.ett with countRcv := x.ett.countRcv + 1 }
  let n := n.modifyNeigh ip (updateEtt fun _ ↦ ett)
  if ett.countRcv ≠ ett.ettWindow then some n
  else
    let (recvDelay, ett) := computeDelay ett
    (n.modifyNeigh ip (updateEtt fun _ ↦ ett)).useEstimation ip ett recvDelay

/-- `send_ett_probe`: a small and a large probe, both with TTL 1. -/
def sendEttProbe (ip : Ip) (s : SProbe) (l : LProbe) (n : Node) : Node :=
  if (n.findAodvNeigh ip).isNone then n
  else { n with sent := n.sent ++ [.unicast ip 1 (.sprobe s), .unicast ip 1 (.lprobe l)] }

/-- `count_send`, from 1 to 99 and back to 0. -/
def nextCountSend (n : Node) : UInt8 := if n.countSend + 1 = 100 then 0 else n.countSend + 1

/-- What a neighbour is sent: the fixed rate, or a pair of probes when there is
memory for two messages. -/
def sendRateProbe (x : AodvNeigh) (n : Node) : Bool × Node :=
  if n.cfg.gFixedRate ≠ 0 then (true, n.sendEttInfo x.ip n.cfg.gFixedRate 1)
  else
    let (ok₁, n) := n.alloc
    if !ok₁ then (false, n)
    else
      let (ok₂, n) := n.alloc
      if !ok₂ then (false, n)
      else
        (true, n.sendEttProbe x.ip ⟨n.countSend, x.ip, n.cfg.gMeshIp, 0, 0⟩
          ⟨n.countSend, x.sendRate, x.ip, n.cfg.gMeshIp, 0, 0, x.ett.measDelay⟩)

def sendProbe (ip : Ip) (n : Node) : Node :=
  match n.findAodvNeigh ip with
  | none => n
  | some x =>
    let n := { n with countSend := n.nextCountSend }
    let (ok, n) := n.sendRateProbe x
    if ok then (n.insertTimer .sendEtt x.ett.interval.toNat ip).updateTimers else n

def recvSprobe (t : Task) (m : SProbe) (n : Node) : Node :=
  match n.findAodvNeigh t.srcIp with
  | none => n
  | some _ =>
    n.modifyNeigh t.srcIp (updateEtt fun e ↦
      { e with lastCount := m.nProbe, sec := m.sec.toUInt64, usec := m.usec.toUInt64 })

/-- The time between the two probes of a pair. When a second has passed, the
code takes the seconds of the first probe for its microseconds. -/
def probeDelay (e : EttParams) (m : LProbe) : UInt32 :=
  let resSec := m.sec - e.sec.toUInt32
  if resSec = 0 then m.usec - e.usec.toUInt32
  else if resSec = 1 then 1000000 + m.usec - e.sec.toUInt32
  else defaultEttMetric

/-- Reload `TASK_ETT_CLEANUP` for a neighbour. -/
def reloadEttCleanup (ip : Ip) (n : Node) : Node :=
  ((n.removeTimer ip ip noTos .ettCleanup).insertTimer .ettCleanup ettCleanupDelay ip).updateTimers

/-- The choice between the fast and the slow probe interval. -/
def setEttInterval (x : AodvNeigh) : AodvNeigh :=
  updateEtt (fun e ↦
    { e with interval := if x.recvRate = 0 ∨ x.sendRate = 0 then ettFastInterval else ettInterval }) x

def recvLprobe (t : Task) (m : LProbe) (n : Node) : Option Node :=
  match n.findAodvNeigh t.srcIp with
  | none => some n
  | some x =>
    let n := n.updateNeighLifetime t.srcIp
    if m.nProbe ≠ x.ett.lastCount then some n
    else
      let n := n.reloadEttCleanup t.srcIp
      let n := n.modifyNeigh t.srcIp fun x ↦
        { x with ett := { x.ett with measDelay := probeDelay x.ett m }, recvRate := m.myRate }
      let n :=
        if n.cfg.gFixedRate = 0 then
          (n.modifyNeigh t.srcIp (updateEtt (delayVectorAdd m.lastMeasDelay))).computeEstimation t.srcIp
        else some n
      n.map fun n ↦ n.modifyNeigh t.srcIp setEttInterval

def recvEttInfo (t : Task) (m : EttInfo) (n : Node) : Option Node :=
  match n.findAodvNeigh t.srcIp with
  | none => some n
  | some _ =>
    let n := n.updateNeighLifetime t.srcIp
    let n := n.modifyNeigh t.srcIp fun x ↦ { x with recvRate := m.myRate }
    let n :=
      if m.fixedRate = 1 then
        let n := n.modifyNeigh t.srcIp (updateEtt fun e ↦ { e with fixedRate := 1 })
        let n := n.reloadEttCleanup t.srcIp
        let n := n.modifyNeigh t.srcIp (updateEtt (delayVectorAdd m.lastMeasDelay))
        if n.cfg.gFixedRate = 0 then n.computeEstimation t.srcIp else some n
      else some n
    n.map fun n ↦ n.modifyNeigh t.srcIp setEttInterval

end Fbaodv.Model.Node
