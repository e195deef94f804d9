import Fbaodv.Model.Types

namespace Fbaodv.Model

structure FlowType where
  tos : UInt8
  avgSize : UInt16
  avgRate : UInt16
  deriving DecidableEq

/-- The table that `init_flow_type_table` builds, last insertion first. -/
def flowTypeTable : List FlowType :=
  [⟨0x1c, 1472, 500⟩, ⟨0x18, 1472, 250⟩, ⟨0x14, 972, 300⟩, ⟨0x0c, 172, 100⟩,
    ⟨0x10, 1472, 250⟩, ⟨0x08, 1472, 500⟩, ⟨0x04, 1472, 750⟩, ⟨0x02, 1472, 1000⟩]

def findFlowType (tos : UInt8) : Option FlowType :=
  flowTypeTable.find? fun f ↦ f.tos == tos

def computeCoef (size rate : UInt16) : UInt8 :=
  if size = 0 ∨ rate = 0 then 0
  else
    let nominalDelay := size.toUInt32 * 8000 / rate.toUInt32
    let coef := (size.toUInt32 * 8000 + 470 * 1000) / rate.toUInt32 + 122 * 100
    (nominalDelay * 100 / coef).toUInt8

/-- `compute_load`. A flow of unknown ToS has coefficient 0, and the code
divides by it. -/
def computeLoad (rateLink : UInt16) (tos : UInt8) : Option UInt8 :=
  if rateLink = 0 then some undefinedLoad
  else
    let (rate, size) :=
      match findFlowType tos with
      | none => (0, 0)
      | some flow => (flow.avgRate, flow.avgSize)
    let divisor := rateLink.toNat * (computeCoef size rateLink).toNat
    if divisor = 0 then none else some (UInt8.ofNat (rate.toNat * 100 / divisor))

end Fbaodv.Model
