import Fbaodv.Model.MessageBytes
import Fbaodv.Proofs.Dispatch

namespace Fbaodv.Proofs.MessageRoundTrip

open Fbaodv.Model Fbaodv.Foundation
open Fbaodv.Proofs.HelloRoundTrip Fbaodv.Proofs.Dispatch

/-- A number of four bytes that is written in the order `o` and read in `o'`. -/
def recode32 (o o' : ByteOrder) (v : UInt32) : UInt32 := UInt32.ofNat (o'.get (o.put 4 v.toNat))

def recode16 (o o' : ByteOrder) (v : UInt16) : UInt16 := UInt16.ofNat (o'.get (o.put 2 v.toNat))

/-- The message that a node of the order `o'` reads in the bytes of one of the
order `o`: what goes through `htonl` and `htons` stays, the rest is recoded. -/
def recode (o o' : ByteOrder) : Message → Message
  | .rreq m => .rreq { m with
      gateway := recode32 o o' m.gateway
      dstIp := recode32 o o' m.dstIp
      srcIp := recode32 o o' m.srcIp }
  | .rrep m => .rrep { m with
      dstIp := recode32 o o' m.dstIp
      srcIp := recode32 o o' m.srcIp
      gateway := recode32 o o' m.gateway
      x := recode32 o o' m.x
      y := recode32 o o' m.y }
  | .rerr m => .rerr { m with
      dstIp := recode32 o o' m.dstIp
      lastAvailIp := recode32 o o' m.lastAvailIp
      srcIp := recode32 o o' m.srcIp }
  | .hello m => .hello { m with
      loadSeq := recode16 o o' m.loadSeq
      ext := m.ext.map fun x ↦
        { x with ip := recode32 o o' x.ip, loadSeq := recode16 o o' x.loadSeq } }
  | .rcvp m => .rcvp { m with
      dstIp := recode32 o o' m.dstIp
      srcIp := recode32 o o' m.srcIp
      lastAvailIp := recode32 o o' m.lastAvailIp }
  | .rrdp m => .rrdp { m with dstIp := recode32 o o' m.dstIp, srcIp := recode32 o o' m.srcIp }
  | .strreq m => .strreq { m with gwIp := recode32 o o' m.gwIp }
  | .sprobe m => .sprobe { m with dstIp := recode32 o o' m.dstIp, srcIp := recode32 o o' m.srcIp }
  | .lprobe m => .lprobe { m with dstIp := recode32 o o' m.dstIp, srcIp := recode32 o o' m.srcIp }
  | .ettInfo m => .ettInfo m

variable {o o' : ByteOrder} {t p : PacketTask} {buf : Bytes} {ss : List Store}

section Recode

@[simp] theorem recode32_self (v : UInt32) : recode32 o o v = v := uint32_of_put v

@[simp] theorem recode16_self (v : UInt16) : recode16 o o v = v := uint16_of_put v

@[simp] theorem recode_self (m : Message) : recode o o m = m := by
  cases m with
  | hello m => simp [recode]
  | _ => simp [recode]

/-- Bytes that are passed on as they are. -/
theorem recode32_get {l : Bytes} (h : l.length = 4) :
    recode32 o o' (UInt32.ofNat (o.get l)) = UInt32.ofNat (o'.get l) := by
  have hlt : o.get l < 2 ^ 32 := by
    have hget := o.get_lt l
    rw [h] at hget
    exact hget
  have hput := o.put_get l
  rw [h] at hput
  rw [recode32, UInt32.toNat_ofNat', Nat.mod_eq_of_lt hlt, hput]

theorem uint32_recode (v : UInt32) : UInt32.ofNat (o'.get (o.put 4 v.toNat)) = recode32 o o' v := rfl

end Recode

section Stores

@[simp] theorem storeU8_stop (offset : ℕ) (v : UInt8) : (storeU8 offset v).stop = offset + 1 := rfl

@[simp] theorem storeU16_stop (offset : ℕ) (v : UInt16) : (storeU16 o offset v).stop = offset + 2 := by
  simp [storeU16, Store.stop]

@[simp] theorem storeU32_stop (offset : ℕ) (v : UInt32) : (storeU32 o offset v).stop = offset + 4 := by
  simp [storeU32, Store.stop]

@[simp] theorem storeU8_offset (offset : ℕ) (v : UInt8) : (storeU8 offset v).offset = offset := rfl

@[simp] theorem storeU16_offset (offset : ℕ) (v : UInt16) : (storeU16 o offset v).offset = offset := rfl

@[simp] theorem storeU32_offset (offset : ℕ) (v : UInt32) : (storeU32 o offset v).offset = offset := rfl

/-- The data of a task in which the fields `ss` have been stored. -/
structure Holds (t : PacketTask) (size : ℕ) (buf : Bytes) (ss : List Store) : Prop where
  length : buf.length = size
  data : t.data = storeAll buf ss
  dataLen : t.dataLen = size
  layout : Layout size ss

theorem Holds.stored {size : ℕ} (h : Holds t size buf ss) :
    ∀ s ∈ ss, field t.data s.offset s.value.length = s.value := by
  intro s hs
  have hlayout : Layout buf.length ss := by
    rw [h.length]
    exact h.layout
  rw [h.data]
  exact field_storeAll hlayout hs

theorem Holds.kept {size offset k : ℕ} (h : Holds t size buf ss)
    (hk : ∀ s ∈ ss, offset + k ≤ s.offset ∨ s.stop ≤ offset) :
    field t.data offset k = field buf offset k := by
  have hinside : ∀ s ∈ ss, s.stop ≤ buf.length := by
    rw [h.length]
    exact h.layout.inside
  rw [h.data]
  exact field_storeAll_of_apart hinside hk

theorem layout_rreq (m : Rreq) : Layout sizeofRreq (m.stores o) := by
  constructor
  · simp [Rreq.stores, sizeofRreq]
  · simp [Rreq.stores, Store.Apart]

theorem readRreq_stores {m : Rreq} (h : Holds t sizeofRreq buf (m.stores o)) :
    t.readRreq o' = some { m with
      gateway := recode32 o o' m.gateway
      dstIp := recode32 o o' m.dstIp
      srcIp := recode32 o o' m.srcIp } := by
  have hlen := h.dataLen
  have hfields := h.stored
  simp only [Rreq.stores, List.forall_mem_cons, storeU8, storeU32, ByteOrder.put_length,
    List.length_singleton] at hfields
  rw [sizeofRreq] at hlen
  simp (disch := omega) only [PacketTask.readRreq, u8_eq, u32_eq, hfields, uint32_of_put, uint32_recode,
    Option.bind_eq_bind, Option.bind_some, byteAt, List.getD_cons_zero]

theorem layout_rerr (m : Rerr) : Layout sizeofRerr (m.stores o) := by
  constructor
  · simp [Rerr.stores, sizeofRerr]
  · simp [Rerr.stores, Store.Apart]

theorem readRerr_stores {m : Rerr} (h : Holds t sizeofRerr buf (m.stores o)) :
    t.readRerr o' = some { m with
      dstIp := recode32 o o' m.dstIp
      lastAvailIp := recode32 o o' m.lastAvailIp
      srcIp := recode32 o o' m.srcIp } := by
  have hlen := h.dataLen
  have hfields := h.stored
  simp only [Rerr.stores, List.forall_mem_cons, storeU8, storeU32, ByteOrder.put_length,
    List.length_singleton] at hfields
  rw [sizeofRerr] at hlen
  simp (disch := omega) only [PacketTask.readRerr, u8_eq, u32_eq, hfields, uint32_of_put, uint32_recode,
    Option.bind_eq_bind, Option.bind_some, byteAt, List.getD_cons_zero]

theorem layout_rcvp (m : Rcvp) : Layout sizeofRcvp (m.stores o) := by
  constructor
  · simp [Rcvp.stores, sizeofRcvp]
  · simp [Rcvp.stores, Store.Apart]

theorem readRcvp_stores {m : Rcvp} (h : Holds t sizeofRcvp buf (m.stores o)) :
    t.readRcvp o' = some { m with
      dstIp := recode32 o o' m.dstIp
      srcIp := recode32 o o' m.srcIp
      lastAvailIp := recode32 o o' m.lastAvailIp } := by
  have hlen := h.dataLen
  have hfields := h.stored
  simp only [Rcvp.stores, List.forall_mem_cons, storeU8, storeU32, ByteOrder.put_length,
    List.length_singleton] at hfields
  rw [sizeofRcvp] at hlen
  simp (disch := omega) only [PacketTask.readRcvp, u8_eq, u32_eq, hfields, uint32_recode,
    Option.bind_eq_bind, Option.bind_some, byteAt, List.getD_cons_zero]

theorem layout_rrdp (m : Rrdp) : Layout sizeofRrdp (m.stores o) := by
  constructor
  · simp [Rrdp.stores, sizeofRrdp]
  · simp [Rrdp.stores, Store.Apart]

theorem readRrdp_stores {m : Rrdp} (h : Holds t sizeofRrdp buf (m.stores o)) :
    t.readRrdp o' = some { m with
      dstIp := recode32 o o' m.dstIp, srcIp := recode32 o o' m.srcIp } := by
  have hlen := h.dataLen
  have hfields := h.stored
  simp only [Rrdp.stores, List.forall_mem_cons, storeU8, storeU32, ByteOrder.put_length,
    List.length_singleton] at hfields
  rw [sizeofRrdp] at hlen
  simp (disch := omega) only [PacketTask.readRrdp, u8_eq, u32_eq, hfields, uint32_recode,
    Option.bind_eq_bind, Option.bind_some, byteAt, List.getD_cons_zero]

theorem layout_rreqSt (m : RreqSt) : Layout sizeofRreqSt (m.stores o) := by
  constructor
  · simp [RreqSt.stores, sizeofRreqSt]
  · simp [RreqSt.stores, Store.Apart]

theorem readRreqSt_stores {m : RreqSt} (h : Holds t sizeofRreqSt buf (m.stores o)) :
    t.readRreqSt o' = some { m with gwIp := recode32 o o' m.gwIp } := by
  have hlen := h.dataLen
  have hfields := h.stored
  simp only [RreqSt.stores, List.forall_mem_cons, storeU8, storeU32, ByteOrder.put_length,
    List.length_singleton] at hfields
  rw [sizeofRreqSt] at hlen
  simp (disch := omega) only [PacketTask.readRreqSt, u8_eq, u32_eq, hfields, uint32_of_put, uint32_recode,
    Option.bind_eq_bind, Option.bind_some, byteAt, List.getD_cons_zero]

theorem layout_ettInfo (m : EttInfo) : Layout sizeofEttInfo m.stores := by
  constructor
  · simp [EttInfo.stores, sizeofEttInfo]
  · simp [EttInfo.stores, Store.Apart]

theorem readEttInfo_stores {m : EttInfo} (h : Holds t sizeofEttInfo buf m.stores) :
    t.readEttInfo = some m := by
  have hlen := h.dataLen
  have hfields := h.stored
  simp only [EttInfo.stores, List.forall_mem_cons, storeU8, storeU16, storeU32, ByteOrder.put_length,
    List.length_singleton] at hfields
  rw [sizeofEttInfo] at hlen
  simp (disch := omega) only [PacketTask.readEttInfo, u8_eq, u16_eq, u32_eq, hfields, uint16_of_put, uint32_of_put,
    Option.bind_eq_bind, Option.bind_some, byteAt, List.getD_cons_zero]

theorem layout_rrep (m : Rrep) : Layout sizeofRrep (m.stores o) := by
  constructor
  · simp [Rrep.stores, sizeofRrep]
  · simp [Rrep.stores, Store.Apart]

theorem readRrep_stores {m : Rrep} (h : Holds t sizeofRrep buf (m.stores o))
    (hgateway : m.gateway = UInt32.ofNat (o.get (field buf 16 4))) :
    t.readRrep o' = some { m with
      dstIp := recode32 o o' m.dstIp
      srcIp := recode32 o o' m.srcIp
      gateway := recode32 o o' m.gateway
      x := recode32 o o' m.x
      y := recode32 o o' m.y } := by
  have hlen := h.dataLen
  have hfields := h.stored
  have hkept : UInt32.ofNat (o'.get (field t.data 16 4)) = recode32 o o' m.gateway := by
    have hfour : (field buf 16 4).length = 4 := by
      rw [field, List.length_take, List.length_drop, h.length]
      rfl
    rw [h.kept (by simp [Rrep.stores]), hgateway, recode32_get hfour]
  simp only [Rrep.stores, List.forall_mem_cons, storeU8, storeU32, ByteOrder.put_length,
    List.length_singleton] at hfields
  rw [sizeofRrep] at hlen
  simp (disch := omega) only [PacketTask.readRrep, u8_eq, u32_eq, hfields, hkept, uint32_of_put,
    uint32_recode, Option.bind_eq_bind, Option.bind_some, byteAt, List.getD_cons_zero]

end Stores

section Passed

theorem layout_passRreq (m : Rreq) : Layout sizeofRreq m.passStores := by
  constructor
  · simp [Rreq.passStores, sizeofRreq]
  · simp [Rreq.passStores, Store.Apart]

theorem readRreq_passed {m m' : Rreq} (h : Holds t sizeofRreq p.data m'.passStores)
    (hp : p.dataLen = sizeofRreq) (hm : p.readRreq o = some m)
    (hm' : m' = { m with numHops := m'.numHops, pathMetric := m'.pathMetric, dttl := m'.dttl }) :
    t.readRreq o' = some { m' with
      gateway := recode32 o o' m'.gateway
      dstIp := recode32 o o' m'.dstIp
      srcIp := recode32 o o' m'.srcIp } := by
  have hlen := h.dataLen
  have hfields := h.stored
  have hsize : p.data.length = sizeofRreq := h.length
  have htos : field t.data 2 1 = field p.data 2 1 := h.kept (by simp [Rreq.passStores])
  have hgateway : field t.data 4 4 = field p.data 4 4 := h.kept (by simp [Rreq.passStores])
  have hdst : field t.data 8 4 = field p.data 8 4 := h.kept (by simp [Rreq.passStores])
  have hsrc : field t.data 12 4 = field p.data 12 4 := h.kept (by simp [Rreq.passStores])
  have hdstId : m'.dstId = m.dstId := by rw [hm']
  simp only [Rreq.passStores, List.forall_mem_cons, storeU8, storeU32, ByteOrder.put_length,
    List.length_singleton, hdstId] at hfields
  rw [sizeofRreq] at hlen hp hsize
  simp (disch := omega) only [PacketTask.readRreq, u8_eq, u32_eq, Option.bind_eq_bind,
    Option.bind_some, Option.some.injEq] at hm
  subst hm
  rw [hm']
  simp (disch := first | omega | (apply field_length; omega)) only [PacketTask.readRreq, u8_eq, u32_eq, hfields,
    htos, hgateway, hdst, hsrc, uint32_of_put, recode32_get, Option.bind_eq_bind,
    Option.bind_some, byteAt, List.getD_cons_zero]

theorem layout_passRrep (m : Rrep) : Layout sizeofRrep m.passStores := by
  constructor
  · simp [Rrep.passStores, sizeofRrep]
  · simp [Rrep.passStores, Store.Apart]

theorem readRrep_passed {m m' : Rrep} (h : Holds t sizeofRrep p.data m'.passStores)
    (hp : p.dataLen = sizeofRrep) (hm : p.readRrep o = some m)
    (hm' : m' = { m with numHops := m'.numHops, dttl := m'.dttl }) :
    t.readRrep o' = some { m' with
      dstIp := recode32 o o' m'.dstIp
      srcIp := recode32 o o' m'.srcIp
      gateway := recode32 o o' m'.gateway
      x := recode32 o o' m'.x
      y := recode32 o o' m'.y } := by
  have hlen := h.dataLen
  have hfields := h.stored
  have hsize : p.data.length = sizeofRrep := h.length
  have htos : field t.data 2 1 = field p.data 2 1 := h.kept (by simp [Rrep.passStores])
  have hdst : field t.data 4 4 = field p.data 4 4 := h.kept (by simp [Rrep.passStores])
  have hsrc : field t.data 8 4 = field p.data 8 4 := h.kept (by simp [Rrep.passStores])
  have hgateway : field t.data 16 4 = field p.data 16 4 := h.kept (by simp [Rrep.passStores])
  have hx : field t.data 32 4 = field p.data 32 4 := h.kept (by simp [Rrep.passStores])
  have hy : field t.data 36 4 = field p.data 36 4 := h.kept (by simp [Rrep.passStores])
  have hdstId : m'.dstId = m.dstId := by rw [hm']
  have hsrcId : m'.srcId = m.srcId := by rw [hm']
  have hpathMetric : m'.pathMetric = m.pathMetric := by rw [hm']
  simp only [Rrep.passStores, List.forall_mem_cons, storeU8, storeU32, ByteOrder.put_length,
    List.length_singleton, hdstId, hsrcId, hpathMetric] at hfields
  rw [sizeofRrep] at hlen hp hsize
  simp (disch := omega) only [PacketTask.readRrep, u8_eq, u32_eq, Option.bind_eq_bind,
    Option.bind_some, Option.some.injEq] at hm
  subst hm
  rw [hm']
  simp (disch := first | omega | (apply field_length; omega)) only [PacketTask.readRrep, u8_eq, u32_eq, hfields,
    htos, hdst, hsrc, hgateway, hx, hy, uint32_of_put, recode32_get, Option.bind_eq_bind,
    Option.bind_some, byteAt, List.getD_cons_zero]

theorem layout_passRrdp (m : Rrdp) : Layout sizeofRrdp m.passStores := by
  constructor
  · simp [Rrdp.passStores, sizeofRrdp]
  · simp [Rrdp.passStores, Store.Apart]

theorem readRrdp_passed {m m' : Rrdp} (h : Holds t sizeofRrdp p.data m'.passStores)
    (hp : p.dataLen = sizeofRrdp) (hm : p.readRrdp o = some m)
    (hm' : m' = { m with numHops := m'.numHops }) :
    t.readRrdp o' = some { m' with
      dstIp := recode32 o o' m'.dstIp, srcIp := recode32 o o' m'.srcIp } := by
  have hlen := h.dataLen
  have hfields := h.stored
  have hsize : p.data.length = sizeofRrdp := h.length
  have hdst : field t.data 4 4 = field p.data 4 4 := h.kept (by simp [Rrdp.passStores])
  have hsrc : field t.data 8 4 = field p.data 8 4 := h.kept (by simp [Rrdp.passStores])
  have htos : field t.data 12 1 = field p.data 12 1 := h.kept (by simp [Rrdp.passStores])
  simp only [Rrdp.passStores, List.forall_mem_cons, storeU8,
    List.length_singleton] at hfields
  rw [sizeofRrdp] at hlen hp hsize
  simp (disch := omega) only [PacketTask.readRrdp, u8_eq, u32_eq, Option.bind_eq_bind,
    Option.bind_some, Option.some.injEq] at hm
  subst hm
  rw [hm']
  simp (disch := first | omega | (apply field_length; omega)) only [PacketTask.readRrdp, u8_eq, u32_eq, hfields,
    hdst, hsrc, htos, recode32_get, Option.bind_eq_bind,
    Option.bind_some, byteAt, List.getD_cons_zero]

theorem layout_passRreqSt (m : RreqSt) : Layout sizeofRreqSt m.passStores := by
  constructor
  · simp [RreqSt.passStores, sizeofRreqSt]
  · simp [RreqSt.passStores, Store.Apart]

theorem readRreqSt_passed {m m' : RreqSt} (h : Holds t sizeofRreqSt p.data m'.passStores)
    (hp : p.dataLen = sizeofRreqSt) (hm : p.readRreqSt o = some m)
    (hm' : m' = { m with numHops := m'.numHops, pathMetric := m'.pathMetric }) :
    t.readRreqSt o' = some { m' with gwIp := recode32 o o' m'.gwIp } := by
  have hlen := h.dataLen
  have hfields := h.stored
  have hsize : p.data.length = sizeofRreqSt := h.length
  have hgw : field t.data 4 4 = field p.data 4 4 := h.kept (by simp [RreqSt.passStores])
  have hdstId : m'.dstId = m.dstId := by rw [hm']
  simp only [RreqSt.passStores, List.forall_mem_cons, storeU8, storeU32, ByteOrder.put_length,
    List.length_singleton, hdstId] at hfields
  rw [sizeofRreqSt] at hlen hp hsize
  simp (disch := omega) only [PacketTask.readRreqSt, u8_eq, u32_eq, Option.bind_eq_bind,
    Option.bind_some, Option.some.injEq] at hm
  subst hm
  rw [hm']
  simp (disch := first | omega | (apply field_length; omega)) only [PacketTask.readRreqSt, u8_eq, u32_eq, hfields,
    hgw, uint32_of_put, recode32_get, Option.bind_eq_bind,
    Option.bind_some, byteAt, List.getD_cons_zero]

theorem layout_passRerr (firstDtn : Bool) (m : Rerr) : Layout sizeofRerr (m.passStores o firstDtn) := by
  cases firstDtn with
  | false =>
    constructor
    · simp [Rerr.passStores, sizeofRerr]
    · simp [Rerr.passStores, Store.Apart]
  | true =>
    constructor
    · simp [Rerr.passStores, sizeofRerr]
    · simp [Rerr.passStores, Store.Apart]

theorem readRerr_passed {m m' : Rerr} {firstDtn : Bool}
    (h : Holds t sizeofRerr p.data (m'.passStores o firstDtn)) (hp : p.dataLen = sizeofRerr)
    (hm : p.readRerr o = some m) (hm' : firstDtn = false → m'.lastAvailIp = m.lastAvailIp) :
    t.readRerr o' = some { m' with
      dstIp := recode32 o o' m'.dstIp
      lastAvailIp := recode32 o o' m'.lastAvailIp
      srcIp := recode32 o o' m'.srcIp } := by
  have hlen := h.dataLen
  have hfields := h.stored
  have hlast : UInt32.ofNat (o'.get (field t.data 12 4)) = recode32 o o' m'.lastAvailIp := by
    cases firstDtn with
    | false =>
      have hkept : field t.data 12 4 = field p.data 12 4 := h.kept (by simp [Rerr.passStores])
      have hsize : p.data.length = sizeofRerr := h.length
      rw [sizeofRerr] at hp hsize
      simp (disch := omega) only [PacketTask.readRerr, u8_eq, u32_eq, Option.bind_eq_bind,
        Option.bind_some, Option.some.injEq] at hm
      rw [hm' rfl, hkept, ← hm, recode32_get (field_length (by omega))]
    | true =>
      have hmem : storeU32 o 12 m'.lastAvailIp ∈ m'.passStores o true := by simp [Rerr.passStores]
      have hfield := hfields _ hmem
      simp only [storeU32, ByteOrder.put_length] at hfield
      rw [hfield, uint32_recode]
  simp only [Rerr.passStores, List.forall_mem_append, List.forall_mem_cons, storeU8, storeU32,
    ByteOrder.put_length, List.length_singleton] at hfields
  rw [sizeofRerr] at hlen
  simp (disch := omega) only [PacketTask.readRerr, u8_eq, u32_eq, hfields, hlast, uint32_of_put,
    uint32_recode, Option.bind_eq_bind, Option.bind_some, byteAt, List.getD_cons_zero]

end Passed

section Probes

/-- Where `valid_aodv_packet` writes the arrival time. -/
def stamps (o : ByteOrder) (offset : ℕ) (sec usec : UInt32) : List Store :=
  [storeU32 o offset sec, storeU32 o (offset + 4) usec]

theorem putField_stamps {sec usec : UInt32} {offset : ℕ} {l : Bytes} (h : offset + 8 ≤ l.length) :
    putField l offset (o.put 4 sec.toNat ++ o.put 4 usec.toNat) =
      storeAll l (stamps o offset sec usec) := by
  have htake : (l.take offset).length = offset := by
    rw [List.length_take]
    omega
  have hfirst : (storeU32 o offset sec).write l =
      (l.take offset ++ o.put 4 sec.toNat) ++ l.drop (offset + 4) := by
    rw [Store.write, storeU32_stop, List.append_assoc]
    rfl
  have hlen : (l.take offset ++ o.put 4 sec.toNat).length = offset + 4 := by
    rw [List.length_append, htake, ByteOrder.put_length]
  have hrest : (storeU32 o (offset + 4) usec).write ((l.take offset ++ o.put 4 sec.toNat) ++
      l.drop (offset + 4)) = (l.take offset ++ o.put 4 sec.toNat) ++
        (o.put 4 usec.toNat ++ l.drop (offset + 8)) := by
    rw [Store.write, storeU32_stop, storeU32_offset, ← hlen, List.take_left, hlen, List.drop_append,
      hlen, List.drop_eq_nil_of_le (by omega), List.nil_append, List.drop_drop]
    congr 3
    omega
  rw [stamps, storeAll, storeAll, storeAll, hfirst, hrest, putField, List.length_append,
    ByteOrder.put_length, ByteOrder.put_length, List.append_assoc, List.append_assoc]

theorem layout_sprobe (m : SProbe) (sec usec : UInt32) :
    Layout sizeofSProbe (m.stores o ++ stamps o' 16 sec usec) := by
  constructor
  · simp [SProbe.stores, stamps, sizeofSProbe]
  · simp [SProbe.stores, stamps, Store.Apart]

theorem readSProbe_stamped {m : SProbe} {sec usec : UInt32}
    (h : Holds t sizeofSProbe buf (m.stores o ++ stamps o' 16 sec usec)) :
    t.readSProbe o' = some { m with
      dstIp := recode32 o o' m.dstIp, srcIp := recode32 o o' m.srcIp, sec := sec, usec := usec } := by
  have hlen := h.dataLen
  have hfields := h.stored
  simp only [SProbe.stores, stamps, List.forall_mem_append, List.forall_mem_cons, storeU8, storeU16,
    storeU32, ByteOrder.put_length, List.length_singleton] at hfields
  rw [sizeofSProbe] at hlen
  simp (disch := omega) only [PacketTask.readSProbe, u8_eq, u32_eq, hfields, uint32_of_put, uint32_recode,
    Option.bind_eq_bind, Option.bind_some, byteAt, List.getD_cons_zero]

theorem layout_lprobe (m : LProbe) (sec usec : UInt32) :
    Layout sizeofLProbe (m.stores o ++ stamps o' 12 sec usec) := by
  constructor
  · simp [LProbe.stores, stamps, sizeofLProbe]
  · simp [LProbe.stores, stamps, Store.Apart]

theorem readLProbe_stamped {m : LProbe} {sec usec : UInt32}
    (h : Holds t sizeofLProbe buf (m.stores o ++ stamps o' 12 sec usec)) :
    t.readLProbe o' = some { m with
      dstIp := recode32 o o' m.dstIp, srcIp := recode32 o o' m.srcIp, sec := sec, usec := usec } := by
  have hlen := h.dataLen
  have hfields := h.stored
  simp only [LProbe.stores, stamps, List.forall_mem_append, List.forall_mem_cons, storeU8, storeU16,
    storeU32, ByteOrder.put_length, List.length_singleton] at hfields
  rw [sizeofLProbe] at hlen
  simp (disch := omega) only [PacketTask.readLProbe, u8_eq, u16_eq, u32_eq, hfields, uint16_of_put, uint32_of_put,
    uint32_recode,
    Option.bind_eq_bind, Option.bind_some, byteAt, List.getD_cons_zero]

end Probes

section Sent

variable {sec usec : UInt32} {b : Bytes}

/-- A task whose data `valid_aodv_packet` accepted. -/
structure Received (p : PacketTask) : Prop where
  valid : validLength p.type p.data = some p.dataLen
  length : p.data.length = p.dataLen
  type : byteAt p.data 0 = p.type

/-- `valid_aodv_packet` accepts the data `b`, and the task with it reads as `m`. -/
structure ReadAs (o : ByteOrder) (sec usec : UInt32) (b : Bytes) (m : Message) : Prop where
  valid : validLength (byteAt b 0) b = some b.length
  message : ∀ t : PacketTask, t.type = byteAt b 0 → t.data = stampProbe o sec usec (byteAt b 0) b →
    t.dataLen = b.length → t.message o = some m

theorem byteAt_of_field {l : Bytes} {offset : ℕ} {v : UInt8} (h : field l offset 1 = [v]) :
    byteAt l offset = v := by
  rw [← byteAt_field, h]
  rfl

/-- A message without a stamp, all of whose fields are stored where the reader
`read` of its type finds them. -/
theorem readAs_of_holds {α : Type} {m : α} {size : ℕ} {code : UInt8} (wrap : α → Message)
    (read : PacketTask → Option α) (hbuf : buf.length = size) (hlayout : Layout size ss)
    (hcode : byteAt (storeAll buf ss) 0 = code)
    (hvalid : ∀ l, validLength code l = some size) (hstamp : ∀ l, stampProbe o sec usec code l = l)
    (hmessage : ∀ t : PacketTask, t.type = code → t.message o = (read t).map wrap)
    (hread : ∀ t : PacketTask, Holds t size buf ss → read t = some m) :
    ReadAs o sec usec (storeAll buf ss) (wrap m) := by
  have hlen : (storeAll buf ss).length = size := by
    rw [storeAll_length, hbuf]
    rw [hbuf]
    exact hlayout.inside
  constructor
  · rw [hcode, hvalid, hlen]
  · intro t htype hdata hdataLen
    rw [hcode] at htype
    rw [hcode, hstamp] at hdata
    rw [hlen] at hdataLen
    rw [hmessage t htype, hread t ⟨hbuf, hdata, hdataLen, hlayout⟩, Option.map_some]

theorem code_stored {size : ℕ} {code : UInt8} (hbuf : buf.length = size) (hlayout : Layout size ss)
    (hmem : storeU8 0 code ∈ ss) : byteAt (storeAll buf ss) 0 = code := by
  subst hbuf
  exact byteAt_of_field (field_storeAll hlayout hmem)

theorem code_kept {size : ℕ} (hbuf : buf.length = size) (hlayout : Layout size ss)
    (hkept : ∀ s ∈ ss, 1 ≤ s.offset) : byteAt (storeAll buf ss) 0 = byteAt buf 0 := by
  subst hbuf
  have hfield : field (storeAll buf ss) 0 1 = field buf 0 1 :=
    field_storeAll_of_apart hlayout.inside fun s hs ↦ .inl (hkept s hs)
  rw [← byteAt_field (storeAll buf ss), hfield, byteAt_field]

theorem extension_recode (x : HelloExtension) (rest : Bytes) :
    HelloExtension.ofBytes o' (x.bytes o ++ rest) =
      { x with ip := recode32 o o' x.ip, loadSeq := recode16 o o' x.loadSeq } := by
  have hip : field (x.bytes o ++ rest) 0 4 = o.put 4 x.ip.toNat := by
    simp [field, HelloExtension.bytes]
  have hseq : field (x.bytes o ++ rest) 6 2 = o.put 2 x.loadSeq.toNat := by
    have hdrop : (o.put 4 x.ip.toNat).drop 6 = [] := List.drop_eq_nil_of_le (by simp)
    simp [field, HelloExtension.bytes, List.drop_append, hdrop]
  have hcount : byteAt (x.bytes o ++ rest) 4 = x.count := by
    simp [byteAt, HelloExtension.bytes]
  have hload : byteAt (x.bytes o ++ rest) 5 = x.load := by
    simp [byteAt, HelloExtension.bytes, List.getElem?_append]
  rw [HelloExtension.ofBytes, hip, hseq, hcount, hload]
  rfl

theorem hello_recode {m : Hello} {a reserved2 : UInt8} (h : m.neighCount.toNat = m.ext.length) :
    .hello (Hello.ofBytes o' (m.bytes o a reserved2)) = recode o o' (.hello m) := by
  have hseq : field (m.bytes o a reserved2) 6 2 = o.put 2 m.loadSeq.toNat := by
    simp [field, Hello.bytes]
  have hdrop : (m.bytes o a reserved2).drop sizeofHello =
      m.ext.flatMap (HelloExtension.bytes o) ++ [] := by
    simp [Hello.bytes, sizeofHello]
  have hcount : byteAt (m.bytes o a reserved2) 2 = m.neighCount := rfl
  have hread : ∀ (x : HelloExtension) (rest : Bytes), HelloExtension.ofBytes o' (x.bytes o ++ rest) =
      { x with ip := recode32 o o' x.ip, loadSeq := recode16 o o' x.loadSeq } := extension_recode
  have hext := readRecords_flatMap_map (extension_bytes_length (o := o)) hread m.ext []
  rw [Hello.ofBytes, hseq, hdrop, hcount, h, hext]
  rfl

theorem sentData_of_size {m : Hello} {a reserved2 : UInt8}
    (h : sizeofHello + sizeofHelloExtension * m.ext.length < 2 ^ 31) :
    m.sentData o a reserved2 = m.bytes o a reserved2 := by
  have hsize : helloSize m.ext.length = sizeofHello + sizeofHelloExtension * m.ext.length := by
    rw [helloSize, Nat.mod_eq_of_lt (by omega)]
  rw [Hello.sentData, hsize, ← hello_bytes_length o a reserved2, List.take_length]

theorem readAs_hello {m : Hello} {a reserved2 : UInt8}
    (hsize : sizeofHello + sizeofHelloExtension * m.ext.length < 2 ^ 31)
    (h : validAodvPacket (.hello m) = true) :
    ReadAs o' sec usec (m.sentData o a reserved2) (recode o o' (.hello m)) := by
  have hcount : m.ext.length = m.neighCount.toNat := beq_iff_eq.mp h
  have hvalid : validLength 129 (m.bytes o a reserved2 ++ []) = some (m.bytes o a reserved2).length :=
    (validLength_hello m []).mpr h
  rw [List.append_nil] at hvalid
  rw [sentData_of_size hsize]
  constructor
  · exact hvalid
  · intro t htype hdata hdataLen
    have htask : TaskType.ofCode t.type = .recvHello := by
      rw [htype]
      rfl
    have hbytes : t.data = m.bytes o a reserved2 := hdata
    rw [PacketTask.message, htask, hbytes, ← hello_recode hcount.symm]

theorem readAs_sprobe (m : SProbe) (hbuf : buf.length = sizeofSProbe) :
    ReadAs o' sec usec (storeAll buf (m.stores o)) ((recode o o' (.sprobe m)).stamp sec usec) := by
  have hlayout : Layout sizeofSProbe (m.stores o ++ stamps o' 16 sec usec) := layout_sprobe m sec usec
  have hinside : ∀ s ∈ m.stores o, s.stop ≤ buf.length := by
    intro s hs
    rw [hbuf]
    exact hlayout.inside s (List.mem_append_left _ hs)
  have hlen : (storeAll buf (m.stores o)).length = sizeofSProbe := (storeAll_length hinside).trans hbuf
  have hcode : byteAt (storeAll buf (m.stores o)) 0 = 110 :=
    code_stored hbuf ⟨fun s hs ↦ hbuf ▸ hinside s hs, (List.pairwise_append.mp hlayout.apart).1⟩
      (by simp [SProbe.stores])
  constructor
  · rw [hcode, hlen]
    rfl
  · intro t htype hdata hdataLen
    rw [hcode] at htype
    rw [hlen] at hdataLen
    have hstamped : t.data = storeAll buf (m.stores o ++ stamps o' 16 sec usec) := by
      rw [hdata, hcode, storeAll_append, ← putField_stamps (by rw [hlen, sizeofSProbe]; omega)]
      rfl
    have htask : TaskType.ofCode t.type = .recvSEtt := by
      rw [htype]
      rfl
    rw [PacketTask.message, htask]
    exact congrArg (Option.map Message.sprobe) (readSProbe_stamped ⟨hbuf, hstamped, hdataLen, hlayout⟩)

theorem readAs_lprobe (m : LProbe) (hbuf : buf.length = sizeofLProbe) :
    ReadAs o' sec usec (storeAll buf (m.stores o)) ((recode o o' (.lprobe m)).stamp sec usec) := by
  have hlayout : Layout sizeofLProbe (m.stores o ++ stamps o' 12 sec usec) := layout_lprobe m sec usec
  have hinside : ∀ s ∈ m.stores o, s.stop ≤ buf.length := by
    intro s hs
    rw [hbuf]
    exact hlayout.inside s (List.mem_append_left _ hs)
  have hlen : (storeAll buf (m.stores o)).length = sizeofLProbe := (storeAll_length hinside).trans hbuf
  have hcode : byteAt (storeAll buf (m.stores o)) 0 = 111 :=
    code_stored hbuf ⟨fun s hs ↦ hbuf ▸ hinside s hs, (List.pairwise_append.mp hlayout.apart).1⟩
      (by simp [LProbe.stores])
  constructor
  · rw [hcode, hlen]
    rfl
  · intro t htype hdata hdataLen
    rw [hcode] at htype
    rw [hlen] at hdataLen
    have hstamped : t.data = storeAll buf (m.stores o ++ stamps o' 12 sec usec) := by
      rw [hdata, hcode, storeAll_append, ← putField_stamps (by rw [hlen, sizeofLProbe]; omega)]
      rfl
    have htask : TaskType.ofCode t.type = .recvLEtt := by
      rw [htype]
      rfl
    rw [PacketTask.message, htask]
    exact congrArg (Option.map Message.lprobe) (readLProbe_stamped ⟨hbuf, hstamped, hdataLen, hlayout⟩)

/-- Whatever bytes a node hands to its socket for a message, and whatever its
buffers held, `valid_aodv_packet` accepts them where it accepts the message, and
a node of any byte order reads them as the message in its own, with the time of
arrival. -/
theorem readAs_of_sentAs {t : Option PacketTask} {m : Message} (h : SentAs o t m b)
    (ht : ∀ p, t = some p → Received p) (hm : validAodvPacket m = true) :
    ReadAs o' sec usec b ((recode o o' m).stamp sec usec) := by
  cases h with
  | hello a reserved2 hsize => exact readAs_hello hsize hm
  | @rreq m buf hbuf =>
    have hlayout := layout_rreq (o := o) m
    have hcode : byteAt (storeAll buf (m.stores o)) 0 = 116 := code_stored hbuf hlayout (by simp [Rreq.stores])
    exact readAs_of_holds .rreq (fun t ↦ t.readRreq o') hbuf hlayout hcode (fun _ ↦ rfl) (fun _ ↦ rfl)
      (fun t h ↦ by rw [PacketTask.message, h]; rfl) fun _ h ↦ readRreq_stores h
  | @passRreq m m' p hp htype hread hm' =>
    have hvalid := (ht p hp).valid
    rw [htype] at hvalid
    have hdataLen : p.dataLen = sizeofRreq := (Option.some.inj hvalid).symm
    have hlen : p.data.length = sizeofRreq := (ht p hp).length.trans hdataLen
    have hlayout := layout_passRreq m'
    have hcode : byteAt (storeAll p.data m'.passStores) 0 = 116 := by
      rw [code_kept hlen hlayout (by simp [Rreq.passStores]), (ht p hp).type, htype]
    exact readAs_of_holds .rreq (fun t ↦ t.readRreq o') hlen hlayout hcode (fun _ ↦ rfl) (fun _ ↦ rfl)
      (fun t h ↦ by rw [PacketTask.message, h]; rfl) fun _ h ↦ readRreq_passed h hdataLen hread hm'
  | @rrep m buf hbuf hgateway =>
    have hlayout := layout_rrep (o := o) m
    have hcode : byteAt (storeAll buf (m.stores o)) 0 = 130 := code_stored hbuf hlayout (by simp [Rrep.stores])
    exact readAs_of_holds .rrep (fun t ↦ t.readRrep o') hbuf hlayout hcode (fun _ ↦ rfl) (fun _ ↦ rfl)
      (fun t h ↦ by rw [PacketTask.message, h]; rfl) fun _ h ↦ readRrep_stores h hgateway
  | @passRrep m m' p hp htype hread hm' =>
    have hvalid := (ht p hp).valid
    rw [htype] at hvalid
    have hdataLen : p.dataLen = sizeofRrep := (Option.some.inj hvalid).symm
    have hlen : p.data.length = sizeofRrep := (ht p hp).length.trans hdataLen
    have hlayout := layout_passRrep m'
    have hcode : byteAt (storeAll p.data m'.passStores) 0 = 130 := by
      rw [code_kept hlen hlayout (by simp [Rrep.passStores]), (ht p hp).type, htype]
    exact readAs_of_holds .rrep (fun t ↦ t.readRrep o') hlen hlayout hcode (fun _ ↦ rfl) (fun _ ↦ rfl)
      (fun t h ↦ by rw [PacketTask.message, h]; rfl) fun _ h ↦ readRrep_passed h hdataLen hread hm'
  | @rerr m buf hbuf =>
    have hlayout := layout_rerr (o := o) m
    have hcode : byteAt (storeAll buf (m.stores o)) 0 = 126 := code_stored hbuf hlayout (by simp [Rerr.stores])
    exact readAs_of_holds .rerr (fun t ↦ t.readRerr o') hbuf hlayout hcode (fun _ ↦ rfl) (fun _ ↦ rfl)
      (fun t h ↦ by rw [PacketTask.message, h]; rfl) fun _ h ↦ readRerr_stores h
  | @passRerr m m' p firstDtn hp htype hread hm' =>
    have hvalid := (ht p hp).valid
    rw [htype] at hvalid
    have hdataLen : p.dataLen = sizeofRerr := (Option.some.inj hvalid).symm
    have hlen : p.data.length = sizeofRerr := (ht p hp).length.trans hdataLen
    have hlayout := layout_passRerr (o := o) firstDtn m'
    have hcode : byteAt (storeAll p.data (m'.passStores o firstDtn)) 0 = 126 :=
      code_stored hlen hlayout (by simp [Rerr.passStores])
    exact readAs_of_holds .rerr (fun t ↦ t.readRerr o') hlen hlayout hcode (fun _ ↦ rfl) (fun _ ↦ rfl)
      (fun t h ↦ by rw [PacketTask.message, h]; rfl) fun _ h ↦ readRerr_passed h hdataLen hread hm'
  | @rcvp m buf hbuf =>
    have hlayout := layout_rcvp (o := o) m
    have hcode : byteAt (storeAll buf (m.stores o)) 0 = 122 := code_stored hbuf hlayout (by simp [Rcvp.stores])
    exact readAs_of_holds .rcvp (fun t ↦ t.readRcvp o') hbuf hlayout hcode (fun _ ↦ rfl) (fun _ ↦ rfl)
      (fun t h ↦ by rw [PacketTask.message, h]; rfl) fun _ h ↦ readRcvp_stores h
  | @rrdp m buf hbuf =>
    have hlayout := layout_rrdp (o := o) m
    have hcode : byteAt (storeAll buf (m.stores o)) 0 = 123 := code_stored hbuf hlayout (by simp [Rrdp.stores])
    exact readAs_of_holds .rrdp (fun t ↦ t.readRrdp o') hbuf hlayout hcode (fun _ ↦ rfl) (fun _ ↦ rfl)
      (fun t h ↦ by rw [PacketTask.message, h]; rfl) fun _ h ↦ readRrdp_stores h
  | @passRrdp m m' p hp htype hread hm' =>
    have hvalid := (ht p hp).valid
    rw [htype] at hvalid
    have hdataLen : p.dataLen = sizeofRrdp := (Option.some.inj hvalid).symm
    have hlen : p.data.length = sizeofRrdp := (ht p hp).length.trans hdataLen
    have hlayout := layout_passRrdp m'
    have hcode : byteAt (storeAll p.data m'.passStores) 0 = 123 := by
      rw [code_kept hlen hlayout (by simp [Rrdp.passStores]), (ht p hp).type, htype]
    exact readAs_of_holds .rrdp (fun t ↦ t.readRrdp o') hlen hlayout hcode (fun _ ↦ rfl) (fun _ ↦ rfl)
      (fun t h ↦ by rw [PacketTask.message, h]; rfl) fun _ h ↦ readRrdp_passed h hdataLen hread hm'
  | @strreq m buf hbuf =>
    have hlayout := layout_rreqSt (o := o) m
    have hcode : byteAt (storeAll buf (m.stores o)) 0 = 128 := code_stored hbuf hlayout (by simp [RreqSt.stores])
    exact readAs_of_holds .strreq (fun t ↦ t.readRreqSt o') hbuf hlayout hcode (fun _ ↦ rfl) (fun _ ↦ rfl)
      (fun t h ↦ by rw [PacketTask.message, h]; rfl) fun _ h ↦ readRreqSt_stores h
  | @passStrreq m m' p hp htype hread hm' =>
    have hvalid := (ht p hp).valid
    rw [htype] at hvalid
    have hdataLen : p.dataLen = sizeofRreqSt := (Option.some.inj hvalid).symm
    have hlen : p.data.length = sizeofRreqSt := (ht p hp).length.trans hdataLen
    have hlayout := layout_passRreqSt m'
    have hcode : byteAt (storeAll p.data m'.passStores) 0 = 128 := by
      rw [code_kept hlen hlayout (by simp [RreqSt.passStores]), (ht p hp).type, htype]
    exact readAs_of_holds .strreq (fun t ↦ t.readRreqSt o') hlen hlayout hcode (fun _ ↦ rfl) (fun _ ↦ rfl)
      (fun t h ↦ by rw [PacketTask.message, h]; rfl) fun _ h ↦ readRreqSt_passed h hdataLen hread hm'
  | @ettInfo m buf hbuf =>
    have hlayout := layout_ettInfo m
    have hcode : byteAt (storeAll buf m.stores) 0 = 124 := code_stored hbuf hlayout (by simp [EttInfo.stores])
    exact readAs_of_holds .ettInfo (fun t ↦ t.readEttInfo) hbuf hlayout hcode (fun _ ↦ rfl) (fun _ ↦ rfl)
      (fun t h ↦ by rw [PacketTask.message, h]; rfl) fun _ h ↦ readEttInfo_stores h
  | @sprobe m buf hbuf => exact readAs_sprobe m hbuf
  | @lprobe m buf hbuf => exact readAs_lprobe m hbuf

/-- The bytes of a message that `valid_aodv_packet` does not accept are not
accepted. -/
theorem rejected_of_sentAs {t : Option PacketTask} {m : Message} (h : SentAs o t m b)
    (hm : validAodvPacket m = false) : validLength (byteAt b 0) b ≠ some b.length := by
  cases h with
  | hello a reserved2 hsize =>
    rename_i m
    intro hvalid
    rw [sentData_of_size hsize] at hvalid
    have hvalid' : validLength 129 (m.bytes o a reserved2 ++ []) =
        some (m.bytes o a reserved2).length := by
      rw [List.append_nil]
      exact hvalid
    rw [(validLength_hello m []).mp hvalid'] at hm
    cases hm
  | _ => cases hm

end Sent

section Arrival

variable {sec usec : UInt32} {b : Bytes} {s : SkBuff}

theorem packetIn_accepted {header : Bytes} (hheader : header.length = SkBuff.startPoint)
    (hdata : s.data = header ++ b) (hvalid : validLength (byteAt b 0) b = some b.length) :
    s.packetIn o sec usec =
      (.accept, some (byteAt b 0, stampProbe o sec usec (byteAt b 0) b)) := by
  have hdrop : s.data.drop SkBuff.startPoint = b := by rw [hdata, ← hheader, List.drop_left]
  have hrest : s.data.length - SkBuff.startPoint = b.length := by rw [← hdrop, List.length_drop]
  rw [SkBuff.packetIn, hdrop, hrest, if_pos hvalid]

theorem byteAt_putField {l : Bytes} {offset : ℕ} (v : Bytes) (hoffset : 0 < offset)
    (hl : 0 < l.length) : byteAt (putField l offset v) 0 = byteAt l 0 := by
  cases l with
  | nil => cases hl
  | cons c l =>
    cases offset with
    | zero => cases hoffset
    | succ offset => rfl

theorem byteAt_stampProbe {code : UInt8} {l : Bytes} (h : validLength code l = some l.length) :
    byteAt (stampProbe o sec usec code l) 0 = byteAt l 0 := by
  rw [stampProbe]
  split
  · next hcode =>
    simp only [validLength, hcode, sizeofSProbe, Option.some.injEq] at h
    exact byteAt_putField _ (by omega) (by omega)
  · next hcode =>
    simp only [validLength, hcode, sizeofLProbe, Option.some.injEq] at h
    exact byteAt_putField _ (by omega) (by omega)
  · rfl

variable (sec usec) in
/-- What `insert_task` makes of an accepted packet. -/
theorem received_insertTask {header : Bytes} (now : ℕ) (hheader : header.length = SkBuff.startPoint)
    (hdata : s.data = header ++ b) (hvalid : validLength (byteAt b 0) b = some b.length) :
    Received (s.insertTask o now (byteAt b 0) (stampProbe o sec usec (byteAt b 0) b)) ∧
      (s.insertTask o now (byteAt b 0)
        (stampProbe o sec usec (byteAt b 0) b)).data =
        stampProbe o sec usec (byteAt b 0) b ∧
      (s.insertTask o now (byteAt b 0)
        (stampProbe o sec usec (byteAt b 0) b)).dataLen = b.length := by
  have hrest : s.data.length - SkBuff.startPoint = b.length := by
    rw [hdata, List.length_append, hheader, Nat.add_sub_cancel_left]
  have hmod : b.length % 2 ^ 32 = b.length := Nat.mod_eq_of_lt (validLength_lt hvalid)
  have hlen : (stampProbe o sec usec (byteAt b 0) b).length = b.length := stampProbe_length hvalid
  have hdataLen : (s.insertTask o now (byteAt b 0)
      (stampProbe o sec usec (byteAt b 0) b)).dataLen = b.length := by
    simp only [SkBuff.insertTask, hrest, hmod]
  have hbytes : (s.insertTask o now (byteAt b 0)
      (stampProbe o sec usec (byteAt b 0) b)).data =
      stampProbe o sec usec (byteAt b 0) b := by
    simp only [SkBuff.insertTask, hrest, hmod]
    rw [← hlen, List.take_length]
  refine ⟨⟨?_, ?_, ?_⟩, hbytes, hdataLen⟩
  · rw [hbytes, hdataLen]
    exact (validLength_stampProbe _ _).trans hvalid
  · rw [hbytes, hdataLen, hlen]
  · rw [hbytes]
    exact byteAt_stampProbe hvalid

/-- The round trip of every message, between nodes of any byte orders: the bytes
that a node hands to its socket, whatever its buffers held, are accepted where
they come in behind an IP header without options, and the thread handles there
what the sender meant, as the receiver writes numbers that go through no `htonl`. -/
theorem message_round_trip {t₀ : Option PacketTask} {m : Message} (h : SentAs o t₀ m b)
    (ht₀ : ∀ p, t₀ = some p → Received p) (hm : validAodvPacket m = true) (hs : Carries o' 5 b s)
    (now : ℕ) (sec usec : UInt32) :
    (s.inputHandler o' sec usec).1 = .accept ∧ ∃ t, s.packetTask o' now sec usec = some t ∧
      Received t ∧ ∀ n : Node, t.handle o' n =
        some (n.handle { t.task with data := some ((recode o o' m).stamp sec usec) }) := by
  have hread : ReadAs o' sec usec b ((recode o o' m).stamp sec usec) := readAs_of_sentAs h ht₀ hm
  obtain ⟨ip, udp, hip, hudp, hdata⟩ := hs.layout
  have hheader : (ip ++ udp).length = SkBuff.startPoint := by
    rw [List.length_append, hip, hudp]
    rfl
  rw [← List.append_assoc] at hdata
  have hin : s.packetIn o' sec usec = (.accept, some (byteAt b 0, stampProbe o' sec usec (byteAt b 0) b)) :=
    packetIn_accepted hheader hdata hread.valid
  obtain ⟨hreceived, hbytes, hlen⟩ := received_insertTask sec usec now hheader hdata hread.valid
  refine ⟨?_, _, ?_, hreceived, ?_⟩
  · rw [hs.inputHandler_eq, hin]
  · rw [SkBuff.packetTask, hin]
    rfl
  · intro n
    obtain ⟨m', hm'⟩ := reads_of_valid (o := o') hreceived.valid
    have hmessage := hread.message _ rfl hbytes hlen
    have heq := Option.some.inj (hm'.message.symm.trans hmessage)
    rw [hm'.handle, heq]

/-- The bytes of an RREQ of 192.168.1.1, in the order of a little endian node. -/
def rreqBytes : Bytes :=
  storeAll (List.replicate sizeofRreq 0)
    (Rreq.stores .little ⟨0, 0, 0, 0x0201a8c0, 0x0101a8c0, 7, 0, 64⟩)

def rreqBuff : SkBuff where
  data :=
    [0x45, 0, 0, 56, 0, 0, 0, 0, 64, 17, 0, 0, 192, 168, 1, 1, 255, 255, 255, 255] ++
      [0x13, 0x8a, 0x13, 0x8a, 0, 36, 0, 0] ++ rreqBytes
  ethPIp := true
  ifaAddress := 0xc0a80102

/-- An RREQ from a little endian node at a big endian one: its addresses are
turned round. -/
theorem message_round_trip_rreq : ∃ t, rreqBuff.packetTask .big 0 0 0 = some t ∧ ∀ n : Node,
    t.handle .big n = some (n.handle { t.task with
      data := some (.rreq ⟨0, 0, 0, 0xc0a80102, 0xc0a80101, 7, 0, 64⟩) }) := by
  have hcarries : Carries .big 5 rreqBytes rreqBuff :=
    ⟨by decide, by decide, by decide +kernel, rfl, by decide +kernel, rreqBuff.data.take 20,
      (rreqBuff.data.drop 20).take 8, by decide +kernel, by decide +kernel, by decide +kernel⟩
  have hsent : SentAs .little none (.rreq ⟨0, 0, 0, 0x0201a8c0, 0x0101a8c0, 7, 0, 64⟩) rreqBytes :=
    .rreq (List.length_replicate ..)
  obtain ⟨-, t, ht, -, hhandle⟩ := message_round_trip hsent (fun _ h ↦ (by cases h)) rfl hcarries 0 0 0
  exact ⟨t, ht, hhandle⟩

end Arrival

end Fbaodv.Proofs.MessageRoundTrip
