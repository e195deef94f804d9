import Fbaodv.Model.Node

namespace Fbaodv.Model.Node

open Fbaodv.Foundation

def findFirstBrkLinkWithDst (dstIp : Ip) (n : Node) : Option BrkLink :=
  OrderedList.findRun (fun x ↦ x.dstIp < dstIp) (fun x ↦ x.dstIp == dstIp) (fun _ ↦ true) n.brkList

def findBrkLink (srcIp dstIp : Ip) (n : Node) : Option BrkLink :=
  OrderedList.findRun (fun x ↦ x.dstIp < dstIp) (fun x ↦ x.dstIp == dstIp)
    (fun x ↦ x.srcIp == srcIp) n.brkList

def isBrkLink (srcIp dstIp : Ip) (x : BrkLink) : Bool := x.dstIp == dstIp && x.srcIp == srcIp

def insertBrkLink (new : BrkLink) (n : Node) : Node :=
  { n with brkList := OrderedList.insertBy (fun x ↦ x.dstIp < new.dstIp) new n.brkList }

/-- `create_brk_link`; without memory nothing is recorded. -/
def createBrkLink (srcIp dstIp lastHop lastAvail : Ip) (n : Node) : Node :=
  let (ok, n) := n.alloc
  if !ok then n
  else
    n.insertBrkLink
      { dstIp := dstIp
        srcIp := srcIp
        lastHop := lastHop
        state := .active
        lastAvailIp := lastAvail
        lifetime := n.now + brkLinkTimeout }

def removeBrkLink (srcIp dstIp : Ip) (n : Node) : Node :=
  { n with brkList := n.brkList.eraseP (isBrkLink srcIp dstIp) }

def expireBrkLink (now : ℕ) (x : BrkLink) : BrkLink :=
  { x with lifetime := now + deletePeriod, state := .invalid }

/-- The loop of `flush_brk_list`. After it has expired a link it goes on to
remove the next one, and it skips the link after any that it removed; `none` is
the dereference of `NULL` when the list ends there. -/
def flushBrkLinks (now : ℕ) : List BrkLink → Option (List BrkLink)
  | [] => some []
  | x :: l =>
    if !timeBefore x.lifetime now then do
      let l ← flushBrkLinks now l
      some (x :: l)
    else if x.state ≠ .invalid then
      match l with
      | _ :: z :: l => do
        let l ← flushBrkLinks now l
        some (expireBrkLink now x :: z :: l)
      | _ => none
    else
      match l with
      | z :: l => do
        let l ← flushBrkLinks now l
        some (z :: l)
      | [] => none

def flushBrkList (n : Node) : Option Node := do
  let l ← flushBrkLinks n.now n.brkList
  some { n with brkList := l }

/-- The bookkeeping of a broken link that `gen_rerr` and `recv_rerr` share. -/
def recordBrkLink (srcIp dstIp lastHop lastAvail : Ip) (n : Node) : Option Node :=
  match n.findBrkLink srcIp dstIp with
  | some _ =>
    flushBrkList { n with
      brkList := OrderedList.modifyFirst (isBrkLink srcIp dstIp)
        (fun x ↦ { x with lifetime := n.now + brkLinkTimeout }) n.brkList }
  | none => flushBrkList (n.createBrkLink srcIp dstIp lastHop lastAvail)

end Fbaodv.Model.Node
