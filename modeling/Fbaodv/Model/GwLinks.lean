import Fbaodv.Model.StRreq
import Mathlib.Logic.Function.Basic

namespace Fbaodv.Model

/-- `gw_list` as it lies in memory, with `g_default_gw`. The entries are kept by
their addresses; at an address without an entry nothing is allocated. -/
structure GwHeap where
  next : ℕ → Option ℕ
  entry : ℕ → Option GwEntry
  gwList : Option ℕ
  gDefaultGw : Ip

namespace GwHeap

/-- The loop of `delete_gw_list_entry` with `prev_entry` and `tmp_entry`. Here
and below `none` is a fault, or more turns than allowed. -/
def deleteGwLoop (gwIp : Ip) : ℕ → Option ℕ → Option ℕ → GwHeap → Option GwHeap
  | _, _, none, h => some h
  | 0, _, some _, _ => none
  | turns + 1, prev, some p, h => do
    let x ← h.entry p
    if x.ip = gwIp then
      let h' :=
        match prev with
        | some q => { h with next := Function.update h.next q (h.next p) }
        | none => { h with gwList := h.next p }
      some { h' with entry := Function.update h'.entry p none }
    else deleteGwLoop gwIp turns (some p) (h.next p) h

def deleteGwListEntry (turns : ℕ) (gwIp : Ip) (h : GwHeap) : Option GwHeap :=
  deleteGwLoop gwIp turns none h.gwList h

/-- The loop of `update_gw_lifetimes`, with the best gateway so far and its
metric. The next link is read when the entry may have been freed. -/
def gwLifetimesLoop (now limit : ℕ) : ℕ → Option ℕ → Ip × UInt32 → GwHeap → Option (Ip × GwHeap)
  | _, none, best, h => some (best.1, h)
  | 0, some _, _, _ => none
  | turns + 1, some p, best, h => do
    let x ← h.entry p
    if timeAfter now x.lifetime then
      let h ← h.deleteGwListEntry limit x.ip
      let _ ← h.entry p
      gwLifetimesLoop now limit turns (h.next p) best h
    else
      gwLifetimesLoop now limit turns (h.next p) (if x.metric < best.2 then (x.ip, x.metric) else best) h

def updateGwLifetimes (now limit : ℕ) (h : GwHeap) : Option GwHeap := do
  let (bestGw, h) ← gwLifetimesLoop now limit limit h.gwList (gNullIp, defaultEttMetric) h
  some { h with gDefaultGw := bestGw }

end GwHeap

end Fbaodv.Model
