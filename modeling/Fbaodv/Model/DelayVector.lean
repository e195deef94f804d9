import Fbaodv.Model.ProbeEtt

namespace Fbaodv.Model.DelayVector

/-- `recv_delays[i]`, where the index is one of the array. -/
def readAt (v : List UInt32) (i : ℕ) : Option UInt32 := if i < ettProbesMax then v[i]? else none

def writeAt (v : List UInt32) (i : ℕ) (d : UInt32) : Option (List UInt32) :=
  if i < ettProbesMax then some (v.set i d) else none

/-- `a - b`, where that does not wrap. -/
def minus (a b : UInt32) : Option UInt32 := if a < b then none else some (a - b)

/-- `a + b`, where that does not wrap. -/
def plus (a b : UInt32) : Option UInt32 :=
  if a.toNat + b.toNat < UInt32.size then some (a + b) else none

/-- The loop of `find_delay_range` from `j` on. -/
def rangeLoop (v : List UInt32) (delay : UInt32) : ℕ → ℕ → ℕ → Option ℕ
  | 0, _, count => some count
  | turns + 1, j, count => do
    let d ← readAt v j
    let difference ← minus d delay
    if difference ≤ ettRange then rangeLoop v delay turns (j + 1) (count + 1) else some count

def findDelayRange (v : List UInt32) (delay : UInt32) (pos numProbes : ℕ) : Option ℕ :=
  rangeLoop v delay (numProbes - (pos + 1)) (pos + 1) 0

/-- The first loop of `compute_delay` from `i` on, with `max_pos` and
`max_count`. -/
def searchLoop (v : List UInt32) (window : ℕ) : ℕ → ℕ → ℕ × ℕ → Option (ℕ × ℕ)
  | 0, _, best => some best
  | turns + 1, i, best => do
    let d ← readAt v i
    let count ← findDelayRange v d i window
    searchLoop v window turns (i + 1) (if count > best.2 then (i, count) else best)

/-- The second loop of `compute_delay` from `j` on. -/
def sumLoop (v : List UInt32) : ℕ → ℕ → UInt32 → Option UInt32
  | 0, _, finDelay => some finDelay
  | turns + 1, j, finDelay => do
    let d ← readAt v j
    let finDelay ← plus d finDelay
    sumLoop v turns (j + 1) finDelay

def computeDelay (ett : EttParams) : Option (UInt32 × EttParams) := do
  let window := ett.ettWindow.toNat
  let (maxPos, maxCount) ← searchLoop ett.recvDelays window window 0 (0, 0)
  if maxCount < 2 then some (0, ett)
  else do
    let finDelay ← sumLoop ett.recvDelays (maxCount + 1) maxPos 0
    some (finDelay / UInt32.ofNat (maxCount + 1), { ett with recvDelays := Node.delayVectorInit })

/-- The inner loop of `delay_vector_add`, which moves the delays from `i` up to
`j` one place on. -/
def shiftLoop : ℕ → ℕ → List UInt32 → Option (List UInt32)
  | 0, _, v => some v
  | turns + 1, j, v => do
    let d ← readAt v (j - 1)
    let v ← writeAt v j d
    shiftLoop turns (j - 1) v

/-- The outer loop of `delay_vector_add` from `i` on. -/
def addLoop (delay : UInt32) (count : ℕ) : ℕ → ℕ → List UInt32 → Option (List UInt32)
  | 0, _, v => some v
  | turns + 1, i, v => do
    let d ← readAt v i
    if delay < d then do
      let v ← shiftLoop (count - i) count v
      writeAt v i delay
    else addLoop delay count turns (i + 1) v

def delayVectorAdd (delay : UInt32) (ett : EttParams) : Option EttParams := do
  let v ← addLoop delay ett.countRcv.toNat (ett.countRcv.toNat + 1) 0 ett.recvDelays
  some { ett with recvDelays := v }

end Fbaodv.Model.DelayVector
