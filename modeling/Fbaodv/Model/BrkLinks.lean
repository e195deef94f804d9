import Fbaodv.Foundation.DoublyLinked
import Fbaodv.Model.Rcvp

namespace Fbaodv.Model

open Fbaodv.Foundation DoublyLinked

/-- `brk_list` as it lies in memory. The entries are kept by their addresses;
at an address without an entry nothing is allocated. -/
structure BrkHeap where
  links : Links ℕ
  entry : ℕ → Option BrkLink

namespace BrkHeap

/-- A pointer that is `NULL` or leads to an entry. -/
def valid (p : Option ℕ) (h : BrkHeap) : Bool := p.all fun p ↦ (h.entry p).isSome

/-- `remove_brk_link`; `none` is the use of an entry that has been freed. -/
def removeBrkLink (p : ℕ) (h : BrkHeap) : Option BrkHeap :=
  if h.valid (some p) && h.valid (h.links.prev p) && h.valid (h.links.next p) then
    some { links := h.links.remove p, entry := Function.update h.entry p none }
  else none

/-- The loop over the entries below `dstIp` that the finders and
`insert_brk_link` share, with `prev_link` and `tmp_link`. Here and below `none`
is a fault, or more turns than allowed. -/
def skipBelow (dstIp : Ip) : ℕ → Option ℕ → Option ℕ → BrkHeap → Option (Option ℕ × Option ℕ)
  | _, prev, none, _ => some (prev, none)
  | 0, _, some _, _ => none
  | turns + 1, prev, some p, h => do
    let x ← h.entry p
    if x.dstIp < dstIp then skipBelow dstIp turns (some p) (h.links.next p) h else some (prev, some p)

def findFirstBrkLinkWithDst (turns : ℕ) (dstIp : Ip) (h : BrkHeap) : Option (Option ℕ) := do
  let (_, tmp) ← skipBelow dstIp turns none h.links.head h
  match tmp with
  | none => some none
  | some p =>
    let x ← h.entry p
    some (if x.dstIp ≠ dstIp then none else some p)

/-- The second loop of `find_brk_link`. -/
def findInRun (srcIp dstIp : Ip) : ℕ → Option ℕ → BrkHeap → Option (Option ℕ)
  | _, none, _ => some none
  | 0, some _, _ => none
  | turns + 1, some p, h => do
    let x ← h.entry p
    if x.dstIp ≠ dstIp then some none
    else if x.srcIp = srcIp then some (some p)
    else findInRun srcIp dstIp turns (h.links.next p) h

def findBrkLink (turns : ℕ) (srcIp dstIp : Ip) (h : BrkHeap) : Option (Option ℕ) := do
  -- the walk to the first entry of the run is that of find_first_brk_link_with_dst
  let first ← h.findFirstBrkLinkWithDst turns dstIp
  findInRun srcIp dstIp turns first h

def insertBrkLink (turns new : ℕ) (h : BrkHeap) : Option BrkHeap := do
  let x ← h.entry new
  let (prev, tmp) ← skipBelow x.dstIp turns none h.links.head h
  let q := h.links
  match q.head, tmp with
  | none, _ => some { h with links := { q with head := some new } }
  | some head, some p =>
    if p = head then
      some { h with links :=
        { head := some new
          next := Function.update q.next new (some head)
          prev := Function.update q.prev head (some new) } }
    else
      let before ← prev
      some { h with links :=
        { head := some head
          next := Function.update (Function.update q.next new (some p)) before (some new)
          prev := Function.update (Function.update q.prev p (some new)) new (some before) } }
  | some head, none =>
    let before ← prev
    some { h with links :=
      { head := some head
        next := Function.update (Function.update q.next new none) before (some new)
        prev := Function.update q.prev new (some before) } }

/-- `create_brk_link`, for which `kmalloc` has the address `p` at hand. -/
def createBrkLink (turns p : ℕ) (srcIp dstIp lastHop lastAvail : Ip) (h : BrkHeap) (n : Node) :
    Option (BrkHeap × Node) :=
  let (ok, n) := n.alloc
  if !ok then some (h, n)
  else do
    let x : BrkLink :=
      { dstIp := dstIp
        srcIp := srcIp
        lastHop := lastHop
        state := .active
        lastAvailIp := lastAvail
        lifetime := n.now + brkLinkTimeout }
    let q : Links ℕ :=
      { h.links with
        next := Function.update h.links.next p none
        prev := Function.update h.links.prev p none }
    let h ← insertBrkLink turns p { links := q, entry := Function.update h.entry p (some x) }
    some (h, n)

/-- The loop of `gen_rcvp`. It reads the next link before it frees the entry. -/
def genRcvpLoop (dstIp : Ip) : ℕ → Option ℕ → BrkHeap → Node → Option (BrkHeap × Node)
  | _, none, h, n => some (h, n)
  | 0, some _, _, _ => none
  | turns + 1, some p, h, n => do
    let x ← h.entry p
    if x.dstIp ≠ dstIp then some (h, n)
    else if x.srcIp ≠ n.cfg.gMeshIp then
      let (ok, n) := n.alloc
      if !ok then some (h, n)
      else
        let m : Rcvp := ⟨0, dstIp, x.srcIp, x.lastAvailIp⟩
        let n :=
          if n.dtnRegister then n.send2dtn dtnPort x.srcIp dstIp x.lastAvailIp Node.rcvpMessage else n
        let n := n.sendMessage x.lastHop netDiameter (.rcvp m)
        let h' ← h.removeBrkLink p
        genRcvpLoop dstIp turns (h.links.next p) h' n
    else
      let n :=
        if n.dtnRegister then n.send2dtn dtnPort x.srcIp dstIp x.lastAvailIp Node.rcvpMessage else n
      let h' ← h.removeBrkLink p
      genRcvpLoop dstIp turns (h.links.next p) h' n

def genRcvp (turns : ℕ) (dstIp : Ip) (h : BrkHeap) (n : Node) : Option (BrkHeap × Node) := do
  let first ← h.findFirstBrkLinkWithDst turns dstIp
  genRcvpLoop dstIp turns first h n

def recvRcvp (turns : ℕ) (m : Rcvp) (h : BrkHeap) (n : Node) : Option (BrkHeap × Node) := do
  let n :=
    if n.dtnRegister then n.send2dtn dtnPort m.srcIp m.dstIp m.lastAvailIp Node.rcvpMessage else n
  let found ← h.findBrkLink turns m.srcIp m.dstIp
  match found with
  | none => some (h, n)
  | some p =>
    if m.srcIp = n.cfg.gMeshIp then
      let h ← h.removeBrkLink p
      some (h, n)
    else
      let (ok, n) := n.alloc
      if !ok then some (h, n)
      else
        let x ← h.entry p
        let n := n.sendMessage x.lastHop netDiameter (.rcvp ⟨m.numHops + 1, m.dstIp, m.srcIp, x.lastAvailIp⟩)
        let h ← h.removeBrkLink p
        some (h, n)

end BrkHeap

end Fbaodv.Model
