import Fbaodv.Model.Wire
import Fbaodv.Proofs.PacketDiscovery

namespace Fbaodv.Proofs.HelloRoundTrip

open Fbaodv.Model Fbaodv.Model.Node Fbaodv.Foundation
open Fbaodv.Proofs.PacketDiscovery (station)

variable {o : ByteOrder} {a reserved2 : UInt8} {sec usec : UInt32} {m : Hello} {s : SkBuff}
  {payload : Bytes} {ihl : ℕ}

@[simp] theorem extension_bytes_length (x : HelloExtension) :
    (x.bytes o).length = sizeofHelloExtension := by
  simp [HelloExtension.bytes, sizeofHelloExtension]

theorem uint32_of_put (v : UInt32) : UInt32.ofNat (o.get (o.put 4 v.toNat)) = v := by
  have hv : v.toNat < 256 ^ 4 := v.toNat_lt
  rw [ByteOrder.get_put o hv, UInt32.ofNat_toNat]

theorem uint16_of_put (v : UInt16) : UInt16.ofNat (o.get (o.put 2 v.toNat)) = v := by
  have hv : v.toNat < 256 ^ 2 := v.toNat_lt
  rw [ByteOrder.get_put o hv, UInt16.ofNat_toNat]

theorem extension_ofBytes_bytes (x : HelloExtension) (rest : Bytes) :
    HelloExtension.ofBytes o (x.bytes o ++ rest) = x := by
  have hip : field (x.bytes o ++ rest) 0 4 = o.put 4 x.ip.toNat := by
    simp [field, HelloExtension.bytes]
  have hseq : field (x.bytes o ++ rest) 6 2 = o.put 2 x.loadSeq.toNat := by
    have hip6 : (o.put 4 x.ip.toNat).drop 6 = [] := List.drop_eq_nil_of_le (by simp)
    simp [field, HelloExtension.bytes, List.drop_append, hip6]
  have hcount : byteAt (x.bytes o ++ rest) 4 = x.count := by
    simp [byteAt, HelloExtension.bytes]
  have hload : byteAt (x.bytes o ++ rest) 5 = x.load := by
    simp [byteAt, HelloExtension.bytes, List.getElem?_append]
  rw [HelloExtension.ofBytes, hip, hseq, hcount, hload, uint32_of_put, uint16_of_put]

theorem hello_bytes_length (o : ByteOrder) (a reserved2 : UInt8) (m : Hello) :
    (m.bytes o a reserved2).length = sizeofHello + sizeofHelloExtension * m.ext.length := by
  have hext : (m.ext.flatMap (HelloExtension.bytes o)).length =
      sizeofHelloExtension * m.ext.length := flatMap_length extension_bytes_length m.ext
  simp only [Hello.bytes, List.length_cons, List.length_append, ByteOrder.put_length, hext,
    sizeofHello]
  omega

theorem byteAt_count (m : Hello) (rest : Bytes) :
    byteAt (m.bytes o a reserved2 ++ rest) 2 = m.neighCount := rfl

theorem hello_ofBytes_bytes (h : m.neighCount.toNat = m.ext.length) (rest : Bytes) :
    Hello.ofBytes o (m.bytes o a reserved2 ++ rest) = m := by
  have hseq : field (m.bytes o a reserved2 ++ rest) 6 2 = o.put 2 m.loadSeq.toNat := by
    simp [field, Hello.bytes]
  have hdrop : (m.bytes o a reserved2 ++ rest).drop sizeofHello =
      m.ext.flatMap (HelloExtension.bytes o) ++ rest := by
    simp [Hello.bytes, sizeofHello]
  have hext : readRecords (HelloExtension.ofBytes o) sizeofHelloExtension m.ext.length
      (m.ext.flatMap (HelloExtension.bytes o) ++ rest) = m.ext :=
    readRecords_flatMap extension_bytes_length extension_ofBytes_bytes m.ext rest
  rw [Hello.ofBytes, hseq, hdrop, byteAt_count, h, hext, uint16_of_put]
  rfl

/-- On bytes, `valid_aodv_packet` accepts the HELLOs that it accepts on
messages. -/
theorem validLength_hello (m : Hello) (rest : Bytes) :
    validLength 129 (m.bytes o a reserved2 ++ rest) = some (m.bytes o a reserved2).length ↔
      validAodvPacket (.hello m) = true := by
  have hvalid : validLength 129 (m.bytes o a reserved2 ++ rest) =
      some (sizeofHello + sizeofHelloExtension * m.neighCount.toNat) := rfl
  rw [hvalid, hello_bytes_length, Option.some.injEq, validAodvPacket, beq_iff_eq]
  simp only [sizeofHello, sizeofHelloExtension]
  omega

/-- A UDP/IPv4 packet for the AODV port from another node, whatever its other
header fields and its options are. -/
structure Carries (o : ByteOrder) (ihl : ℕ) (payload : Bytes) (s : SkBuff) : Prop where
  legal : 5 ≤ ihl
  protocol : s.ethPIp = true ∧ s.ipproto = 17
  sender : s.ifaAddress ≠ s.saddr o
  offset : s.udpOffset = 4 * ihl
  port : field s.data (s.udpOffset + 2) 2 = aodvPortBytes
  layout : ∃ ip udp : Bytes, ip.length = 4 * ihl ∧ udp.length = 8 ∧ s.data = ip ++ (udp ++ payload)

theorem Carries.length (h : Carries o ihl payload s) :
    s.data.length = 4 * ihl + 8 + payload.length := by
  obtain ⟨ip, udp, hip, hudp, hdata⟩ := h.layout
  rw [hdata, List.length_append, List.length_append, hip, hudp, Nat.add_assoc]

theorem Carries.inputHandler_eq (h : Carries o ihl payload s) :
    s.inputHandler o sec usec = s.packetIn o sec usec := by
  unfold SkBuff.inputHandler
  rw [if_pos ⟨h.protocol.2, h.protocol.1, h.port, h.sender⟩]

/-- Without options the payload is found where it is. -/
theorem Carries.drop_startPoint (h : Carries o 5 payload s) :
    s.data.drop SkBuff.startPoint = payload := by
  obtain ⟨ip, udp, hip, hudp, hdata⟩ := h.layout
  have hlen : (ip ++ udp).length = SkBuff.startPoint := by
    rw [List.length_append, hip, hudp]
    rfl
  rw [hdata, ← List.append_assoc, ← hlen, List.drop_left]

theorem helloSize_of_le {k : ℕ} (h : k ≤ 255) :
    helloSize k = sizeofHello + sizeofHelloExtension * k := by
  unfold helloSize sizeofHello sizeofHelloExtension
  omega

theorem sentData_eq (h : m.ext.length ≤ 255) :
    m.sentData o a reserved2 = m.bytes o a reserved2 := by
  unfold Hello.sentData
  rw [helloSize_of_le h, ← hello_bytes_length o a reserved2,
    List.take_length]


theorem helloExtensions_frame (l : List AodvNeigh) (ext : List HelloExtension) (n : Node) :
    (helloExtensions l ext n).2.sent = n.sent ∧ (helloExtensions l ext n).2.routing = n.routing := by
  induction l generalizing ext n with
  | nil => exact ⟨rfl, rfl⟩
  | cons x l ih =>
    unfold helloExtensions
    dsimp only
    split
    · exact ⟨rfl, rfl⟩
    · exact ih _ _

theorem helloExtensions_eq {l : List AodvNeigh} {ext ext' : List HelloExtension} {n : Node}
    (h : (helloExtensions l ext n).1 = some ext') :
    ext' = l.reverse.map AodvNeigh.extension ++ ext := by
  induction l generalizing ext n with
  | nil => exact (Option.some.inj h).symm
  | cons x l ih =>
    unfold helloExtensions at h
    dsimp only at h
    split at h
    · cases h
    · rw [ih h, List.reverse_cons, List.map_append, List.append_assoc]
      rfl

theorem sendHello_sent (ext : List HelloExtension) (n : Node) :
    (n.sendHello ext).sent = n.sent ∨
      (n.sendHello ext).sent = n.sent ++ [.broadcast 1 (.hello (n.helloOf ext))] := by
  unfold sendHello
  dsimp only
  split
  · exact .inl rfl
  right
  split
  · split <;> rfl
  · rfl

theorem genHello_sent {n : Node} (hmetric : n.cfg.gRoutingMetric ≠ .hops)
    (h : n.genHello.sent = n.sent ++ [.broadcast 1 (.hello m)]) :
    m = n.helloOf (n.aodvNeighList.reverse.map AodvNeigh.extension) := by
  have hne : n.sent ++ [Sent.broadcast 1 (.hello m)] ≠ n.sent := by simp
  unfold genHello at h
  rw [if_pos hmetric] at h
  obtain ⟨hsent, hrouting⟩ := helloExtensions_frame n.aodvNeighList [] n
  rcases he : helloExtensions n.aodvNeighList [] n with ⟨_ | ext, n'⟩
  · rw [he] at h hsent
    exact absurd (h.symm.trans hsent) hne
  · rw [he] at h hsent hrouting
    have hext : ext = n.aodvNeighList.reverse.map AodvNeigh.extension := by
      rw [helloExtensions_eq (congrArg Prod.fst he), List.append_nil]
    have hof : n'.helloOf ext = n.helloOf ext := by
      have hr : n'.routing = n.routing := hrouting
      simp only [helloOf, hr]
    rcases sendHello_sent ext n' with hs | hs
    · exact absurd ((h.symm.trans hs).trans hsent) hne
    · have hmsg := (h.symm.trans hs)
      rw [show n'.sent = n.sent from hsent, hof, hext] at hmsg
      simpa using hmsg

/-- What one turn of the loop of `recv_hello` does with an extension. -/
def recvHelloTurn (orig : Ip) (m : Hello) (n : Node) (ext : HelloExtension) : Node :=
  if ext.ip = n.cfg.gMeshIp then
    n.modifyNeigh orig fun x ↦ { x with etx := { x.etx with sendEtx := ext.count } }
  else if n.cfg.gRoutingMetric = .wcim then n.recvHelloExtension orig m ext else n

/-- The extensions that the loop of `recv_hello` sees, of those it ranges over:
in ETT mode it returns at the one about the node itself. -/
def seenExtensions (cfg : Config) (l : List HelloExtension) : List HelloExtension :=
  if cfg.gRoutingMetric = .ett then
    l.takeWhile (·.ip ≠ cfg.gMeshIp) ++ (l.dropWhile (·.ip ≠ cfg.gMeshIp)).take 1
  else l

theorem refreshNeigh2h_cfg (ip : Ip) (n : Node) : (n.refreshNeigh2h ip).cfg = n.cfg := by
  unfold refreshNeigh2h createAodvNeigh2h
  split
  · dsimp only
    split
    · rfl
    split <;> rfl
  · rfl

theorem recvHelloTurn_cfg (orig : Ip) (m : Hello) (n : Node) (ext : HelloExtension) :
    (recvHelloTurn orig m n ext).cfg = n.cfg := by
  unfold recvHelloTurn
  split
  · rfl
  split
  · unfold recvHelloExtension
    dsimp only
    split
    · rfl
    · exact refreshNeigh2h_cfg ext.ip n
  · rfl

theorem seenExtensions_cons (cfg : Config) (x : HelloExtension) (l : List HelloExtension) :
    seenExtensions cfg (x :: l) =
      x :: if x.ip = cfg.gMeshIp ∧ cfg.gRoutingMetric = .ett then [] else seenExtensions cfg l := by
  unfold seenExtensions
  by_cases hett : cfg.gRoutingMetric = .ett
  · by_cases hx : x.ip = cfg.gMeshIp
    · simp [hett, hx]
    · simp [hett, hx]
  · simp [hett]

/-- The loop of `recv_hello` is a fold over the extensions that it sees. -/
theorem recvHelloExtensions_eq (orig : Ip) (m : Hello) (l : List HelloExtension) (n : Node) :
    n.recvHelloExtensions orig m l = (seenExtensions n.cfg l).foldl (recvHelloTurn orig m) n := by
  induction l generalizing n with
  | nil =>
    unfold recvHelloExtensions seenExtensions
    split <;> rfl
  | cons x l ih =>
    have hcfg : seenExtensions (recvHelloTurn orig m n x).cfg l = seenExtensions n.cfg l := by
      rw [recvHelloTurn_cfg]
    rw [seenExtensions_cons, List.foldl_cons]
    unfold recvHelloExtensions
    dsimp only
    by_cases hown : x.ip = n.cfg.gMeshIp
    · have hturn : recvHelloTurn orig m n x =
          n.modifyNeigh orig fun y ↦ { y with etx := { y.etx with sendEtx := x.count } } :=
        if_pos hown
      rw [if_pos hown, ← hturn]
      -- The model asks the node after the turn for its metric, the source its own.
      by_cases hett : n.cfg.gRoutingMetric = .ett
      · rw [if_pos (by rwa [recvHelloTurn_cfg]), if_pos ⟨hown, hett⟩, List.foldl_nil]
      · rw [if_neg (by rwa [recvHelloTurn_cfg]), if_neg (fun h ↦ hett h.2), ih, hcfg]
    · have hturn : recvHelloTurn orig m n x =
          if n.cfg.gRoutingMetric = .wcim then n.recvHelloExtension orig m x else n := if_neg hown
      rw [if_neg hown, ← hturn, if_neg (fun h ↦ hown h.1), ih, hcfg]

/-- The data of a HELLO task is all that follows the fixed offset. -/
theorem inputHandler_hello {d : Bytes}
    (h : s.inputHandler o sec usec = (.accept, some (129, d))) :
    d = s.data.drop SkBuff.startPoint ∧
      sizeofHello + sizeofHelloExtension * (byteAt d 2).toNat = s.data.length - SkBuff.startPoint := by
  unfold SkBuff.inputHandler at h
  split at h
  · unfold SkBuff.packetIn at h
    dsimp only at h
    split at h
    · next hlen =>
      simp only [Prod.mk.injEq, Option.some.injEq, true_and] at h
      obtain ⟨htype, hd⟩ := h
      rw [htype] at hlen hd
      have hd : s.data.drop SkBuff.startPoint = d := hd
      rw [hd] at hlen
      exact ⟨hd.symm, Option.some.inj hlen⟩
    · simp at h
  · simp at h

theorem accepted_of_short (sec usec : UInt32) (h : Carries o 5 (m.sentData o a reserved2) s)
    (hcount : m.neighCount = UInt8.ofNat m.ext.length) (hshort : m.ext.length ≤ 255) :
    s.inputHandler o sec usec = (.accept, some (129, m.bytes o a reserved2)) ∧
      Hello.ofBytes o (m.bytes o a reserved2) = m := by
  have hnat : m.neighCount.toNat = m.ext.length := by
    rw [hcount, UInt8.toNat_ofNat']
    omega
  have hdata : s.data.drop SkBuff.startPoint = m.bytes o a reserved2 := by
    rw [h.drop_startPoint, sentData_eq hshort]
  have hrest : s.data.length - SkBuff.startPoint = (m.bytes o a reserved2).length := by
    rw [← hdata, List.length_drop]
  have hvalid : validLength 129 (m.bytes o a reserved2) = some (m.bytes o a reserved2).length := by
    have haccept : validLength 129 (m.bytes o a reserved2 ++ []) =
        some (m.bytes o a reserved2).length := by
      rw [validLength_hello, validAodvPacket, hnat, beq_self_eq_true]
    rwa [List.append_nil] at haccept
  have hread : Hello.ofBytes o (m.bytes o a reserved2 ++ []) = m := hello_ofBytes_bytes hnat []
  refine ⟨?_, by simpa using hread⟩
  rw [h.inputHandler_eq]
  unfold SkBuff.packetIn
  dsimp only
  rw [hdata, hrest]
  exact if_pos hvalid

/-- A HELLO arrives as it was built exactly when the packet has no IP options
and the count of its neighbours fits into a byte. -/
theorem arrives_iff (h : Carries o ihl (m.sentData o a reserved2) s)
    (hcount : m.neighCount = UInt8.ofNat m.ext.length) :
    (∃ d, s.inputHandler o sec usec = (.accept, some (129, d)) ∧
      (Hello.ofBytes o d).ext = m.ext) ↔ ihl = 5 ∧ m.ext.length ≤ 255 := by
  constructor
  · rintro ⟨d, hd, hext⟩
    obtain ⟨-, hlen⟩ := inputHandler_hello hd
    have hread : m.ext.length = (byteAt d 2).toNat := by
      rw [← hext]
      exact readRecords_length _ _
    have hbyte : (byteAt d 2).toNat < 256 := (byteAt d 2).toNat_lt
    have hshort : m.ext.length ≤ 255 := by omega
    have hpayload := hello_bytes_length o a reserved2 m
    rw [h.length, sentData_eq hshort, hpayload, ← hread] at hlen
    have hlegal := h.legal
    refine ⟨?_, hshort⟩
    unfold SkBuff.startPoint at hlen
    omega
  · rintro ⟨rfl, hshort⟩
    obtain ⟨haccept, hread⟩ := accepted_of_short sec usec h hcount hshort
    exact ⟨_, haccept, by rw [hread]⟩

theorem hello_round_trip {n : Node} (hmetric : n.cfg.gRoutingMetric ≠ .hops)
    (hsent : n.genHello.sent = n.sent ++ [.broadcast 1 (.hello m)])
    (hshort : n.aodvNeighList.length ≤ 255) (hs : Carries o 5 (m.sentData o a reserved2) s) :
    ∃ d, s.inputHandler o sec usec = (.accept, some (129, d)) ∧
      Hello.ofBytes o d = n.helloOf (n.aodvNeighList.reverse.map AodvNeigh.extension) ∧
      ∀ (r : Node) (orig : Ip),
        r.recvHelloExtensions orig (Hello.ofBytes o d) (Hello.ofBytes o d).ext =
          (seenExtensions r.cfg (n.aodvNeighList.reverse.map AodvNeigh.extension)).foldl
            (recvHelloTurn orig (Hello.ofBytes o d)) r := by
  have hm := genHello_sent hmetric hsent
  have hlength : m.ext.length = n.aodvNeighList.length := by simp [hm, helloOf]
  have hcount : m.neighCount = UInt8.ofNat m.ext.length := by rw [hm]; rfl
  obtain ⟨haccept, hread⟩ :=
    accepted_of_short sec usec hs hcount (hlength.trans_le hshort)
  refine ⟨_, haccept, hread.trans hm, fun r orig ↦ ?_⟩
  have hext : m.ext = n.aodvNeighList.reverse.map AodvNeigh.extension := by rw [hm]; rfl
  rw [hread, recvHelloExtensions_eq, hext]

/-- The station under a metric and with some neighbours. -/
def neighStation (metric : Metric) (ips : List Ip) : Node :=
  { station with
    cfg := { station.cfg with gRoutingMetric := metric }
    aodvNeighList := ips.map (newAodvNeigh station.cfg) }

/-- The HELLO of such a station. -/
def stationHello (ips : List Ip) : Hello :=
  station.helloOf ((ips.map (newAodvNeigh station.cfg)).reverse.map AodvNeigh.extension)

/-- A payload in a broadcast of 192.168.1.1, with options that do nothing. -/
def broadcastSkb (ihl : ℕ) (payload : Bytes) : SkBuff where
  data :=
    [0x40 + UInt8.ofNat ihl, 0, 0, 0, 0, 0, 0, 0, 1, 17, 0, 0, 192, 168, 1, 1, 255, 255, 255, 255] ++
      List.replicate (4 * (ihl - 5)) 1 ++
      ([0x13, 0x8a, 0x13, 0x8a, 0, 0, 0, 0] ++ payload)
  ethPIp := true
  ifaAddress := 0x0201a8c0

theorem carries_broadcastSkb (h : ihl = 5 ∨ ihl = 6) (payload : Bytes) :
    Carries .little ihl payload (broadcastSkb ihl payload) := by
  have hsaddr : (broadcastSkb ihl payload).saddr .little = 0x0101a8c0 := by
    have hfield : field (broadcastSkb ihl payload).data 12 4 = [192, 168, 1, 1] := rfl
    rw [SkBuff.saddr, hfield]
    decide
  have hoffset : (broadcastSkb ihl payload).udpOffset = 4 * ihl := by
    have hfirst : byteAt (broadcastSkb ihl payload).data 0 = 0x40 + UInt8.ofNat ihl := rfl
    rw [SkBuff.udpOffset, hfirst]
    rcases h with rfl | rfl <;> decide
  have hport : field (broadcastSkb ihl payload).data (4 * ihl + 2) 2 = [0x13, 0x8a] := by
    rcases h with rfl | rfl <;> rfl
  have hihl : ((broadcastSkb ihl payload).data.take (4 * ihl)).length = 4 * ihl := by
    rcases h with rfl | rfl <;> rfl
  refine ⟨by omega, ⟨rfl, rfl⟩, ?_, hoffset, ?_, _, [0x13, 0x8a, 0x13, 0x8a, 0, 0, 0, 0], hihl, rfl, ?_⟩
  · rw [hsaddr]
    simp [broadcastSkb]
  · rw [hoffset, hport]
    decide
  · rcases h with rfl | rfl <;> rfl

theorem hello_round_trip_station :
    ∃ d, (broadcastSkb 5 ((stationHello [0x0201a8c0, 0x0301a8c0]).sentData .little 0 0)).inputHandler
        .little 0 0 = (.accept, some (129, d)) ∧
      (Hello.ofBytes .little d).ext.map (·.ip) = [0x0301a8c0, 0x0201a8c0] := by
  have hround := fun sec usec ↦ @hello_round_trip .little 0 0 sec usec
    (stationHello [0x0201a8c0, 0x0301a8c0]) _ (neighStation .wcim [0x0201a8c0, 0x0301a8c0]) (by decide)
    (by decide +kernel) (by decide) (carries_broadcastSkb (.inl rfl) _)
  obtain ⟨d, haccept, hread, -⟩ := hround 0 0
  exact ⟨d, haccept, by rw [hread]; rfl⟩

/-- In ETT mode `recv_hello` does not look past the extension about its own
node, a packet with options is not read where its payload is, and the count of
256 neighbours is sent as zero. -/
theorem hello_round_trip_breaks :
    (∃ d, (broadcastSkb 5 ((stationHello [0x0201a8c0, 0x0301a8c0]).sentData .little 0 0)).inputHandler
        .little 0 0 = (.accept, some (129, d)) ∧
      seenExtensions { (neighStation .ett []).cfg with gMeshIp := 0x0301a8c0 }
        (Hello.ofBytes .little d).ext ≠ (Hello.ofBytes .little d).ext) ∧
    ((broadcastSkb 6 ((stationHello [0x0201a8c0]).sentData .little 0 0)).inputHandler
      .little 0 0 = (.drop, none)) ∧
    ((broadcastSkb 5 ((stationHello ((List.range 256).map UInt32.ofNat)).sentData .little 0 0)).inputHandler
      .little 0 0 = (.drop, none)) := by
  refine ⟨⟨_, rfl, by decide +kernel⟩, by decide +kernel, by decide +kernel⟩

end Fbaodv.Proofs.HelloRoundTrip
