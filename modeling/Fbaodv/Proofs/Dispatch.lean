import Fbaodv.Model.Dispatch
import Fbaodv.Proofs.HelloRoundTrip

namespace Fbaodv.Proofs.Dispatch

open Fbaodv.Model Fbaodv.Model.Node Fbaodv.Foundation

variable {o : ByteOrder} {now : ℕ} {sec usec : UInt32} {s : SkBuff} {t : PacketTask}
  {header payload : Bytes} {n : Node}

section Reads

theorem read_eq {offset k : ℕ} (h : offset + k ≤ t.dataLen) :
    t.read offset k = some (field t.data offset k) := if_pos h

theorem u8_eq {offset : ℕ} (h : offset + 1 ≤ t.dataLen) :
    t.u8 offset = some (byteAt (field t.data offset 1) 0) := by
  rw [PacketTask.u8, read_eq h, Option.map_some]

theorem u16_eq {offset : ℕ} (h : offset + 2 ≤ t.dataLen) :
    t.u16 o offset = some (UInt16.ofNat (o.get (field t.data offset 2))) := by
  rw [PacketTask.u16, read_eq h, Option.map_some]

theorem u32_eq {offset : ℕ} (h : offset + 4 ≤ t.dataLen) :
    t.u32 o offset = some (UInt32.ofNat (o.get (field t.data offset 4))) := by
  rw [PacketTask.u32, read_eq h, Option.map_some]

theorem byteAt_field (l : Bytes) (offset : ℕ) : byteAt (field l offset 1) 0 = byteAt l offset := by
  simp [byteAt, field, List.getElem?_drop]

theorem byteAt_drop (l : Bytes) (offset p : ℕ) : byteAt (l.drop offset) p = byteAt l (offset + p) := by
  simp [byteAt, List.getElem?_drop]

theorem readRreq_isSome (h : t.dataLen = sizeofRreq) : ∃ m, t.readRreq o = some m := by
  rw [sizeofRreq] at h
  simp (disch := omega) only [PacketTask.readRreq, u8_eq, u32_eq, Option.bind_eq_bind,
    Option.bind_some, Option.some.injEq, exists_eq']

theorem readRrep_isSome (h : t.dataLen = sizeofRrep) : ∃ m, t.readRrep o = some m := by
  rw [sizeofRrep] at h
  simp (disch := omega) only [PacketTask.readRrep, u8_eq, u32_eq, Option.bind_eq_bind,
    Option.bind_some, Option.some.injEq, exists_eq']

theorem readRerr_isSome (h : t.dataLen = sizeofRerr) : ∃ m, t.readRerr o = some m := by
  rw [sizeofRerr] at h
  simp (disch := omega) only [PacketTask.readRerr, u8_eq, u32_eq, Option.bind_eq_bind,
    Option.bind_some, Option.some.injEq, exists_eq']

theorem readRcvp_isSome (h : t.dataLen = sizeofRcvp) : ∃ m, t.readRcvp o = some m := by
  rw [sizeofRcvp] at h
  simp (disch := omega) only [PacketTask.readRcvp, u8_eq, u32_eq, Option.bind_eq_bind,
    Option.bind_some, Option.some.injEq, exists_eq']

theorem readRrdp_isSome (h : t.dataLen = sizeofRrdp) : ∃ m, t.readRrdp o = some m := by
  rw [sizeofRrdp] at h
  simp (disch := omega) only [PacketTask.readRrdp, u8_eq, u32_eq, Option.bind_eq_bind,
    Option.bind_some, Option.some.injEq, exists_eq']

theorem readRreqSt_isSome (h : t.dataLen = sizeofRreqSt) : ∃ m, t.readRreqSt o = some m := by
  rw [sizeofRreqSt] at h
  simp (disch := omega) only [PacketTask.readRreqSt, u8_eq, u32_eq, Option.bind_eq_bind,
    Option.bind_some, Option.some.injEq, exists_eq']

theorem readSProbe_isSome (h : t.dataLen = sizeofSProbe) : ∃ m, t.readSProbe o = some m := by
  rw [sizeofSProbe] at h
  simp (disch := omega) only [PacketTask.readSProbe, u8_eq, u32_eq, Option.bind_eq_bind,
    Option.bind_some, Option.some.injEq, exists_eq']

theorem readLProbe_isSome (h : t.dataLen = sizeofLProbe) : ∃ m, t.readLProbe o = some m := by
  rw [sizeofLProbe] at h
  simp (disch := omega) only [PacketTask.readLProbe, u8_eq, u16_eq, u32_eq, Option.bind_eq_bind,
    Option.bind_some, Option.some.injEq, exists_eq']

theorem readEttInfo_isSome (h : t.dataLen = sizeofEttInfo) : ∃ m, t.readEttInfo = some m := by
  rw [sizeofEttInfo] at h
  simp (disch := omega) only [PacketTask.readEttInfo, u8_eq, u16_eq, u32_eq, Option.bind_eq_bind,
    Option.bind_some, Option.some.injEq, exists_eq']

theorem readHello_eq (h : sizeofHello ≤ t.dataLen) :
    t.readHello o = some { Hello.ofBytes o t.data with ext := [] } := by
  rw [sizeofHello] at h
  simp (disch := omega) only [PacketTask.readHello, u8_eq, u16_eq, Option.bind_eq_bind,
    Option.bind_some, byteAt_field, Hello.ofBytes]

theorem readExtension_eq {offset : ℕ} (h : offset + sizeofHelloExtension ≤ t.dataLen) :
    t.readExtension o offset = some (HelloExtension.ofBytes o (t.data.drop offset)) := by
  rw [sizeofHelloExtension] at h
  simp (disch := omega) only [PacketTask.readExtension, u8_eq, u16_eq, u32_eq,
    Option.bind_eq_bind, Option.bind_some, byteAt_field, HelloExtension.ofBytes, field_drop,
    byteAt_drop, Nat.add_zero]

end Reads

section Walk

/-- The walk stays inside the data while so many extensions still fit, and it
ranges over the extensions that are read one after the other. -/
theorem walkExtensions_eq (orig : Ip) (m : Hello) (ext : List HelloExtension) {left offset : ℕ}
    (h : offset + sizeofHelloExtension * left ≤ t.dataLen) (n : Node) :
    t.walkExtensions o orig { m with ext := [] } left offset n =
      some (n.recvHelloExtensions orig { m with ext := ext }
        (readRecords (HelloExtension.ofBytes o) sizeofHelloExtension left
          (t.data.drop offset))) := by
  induction left generalizing offset n with
  | zero => rfl
  | succ left ih =>
    have hfirst : offset + sizeofHelloExtension ≤ t.dataLen := by
      rw [Nat.mul_succ] at h
      omega
    have hrest : offset + sizeofHelloExtension + sizeofHelloExtension * left ≤ t.dataLen := by
      rw [Nat.mul_succ] at h
      omega
    rw [PacketTask.walkExtensions, readExtension_eq hfirst, readRecords, recvHelloExtensions,
      List.drop_drop, Option.bind_eq_bind, Option.bind_some]
    by_cases hown : (HelloExtension.ofBytes o (t.data.drop offset)).ip = n.cfg.gMeshIp
    · rw [if_pos hown, if_pos hown]
      dsimp only
      split
      · rfl
      · exact ih hrest _
    · rw [if_neg hown, if_neg hown]
      exact ih hrest _

theorem helloFromNeigh_eq (ip : Ip)
    (h : sizeofHello + sizeofHelloExtension * (byteAt t.data 2).toNat ≤ t.dataLen) (n : Node) :
    t.helloFromNeigh o ip n = some (n.helloFromNeigh ip (Hello.ofBytes o t.data)) := by
  have hheader : sizeofHello ≤ t.dataLen := le_of_add_le_left h
  rw [PacketTask.helloFromNeigh, Node.helloFromNeigh]
  dsimp only
  split
  · rfl
  · rw [readHello_eq hheader, Option.bind_eq_bind, Option.bind_some]
    exact walkExtensions_eq ip (Hello.ofBytes o t.data) _ h _

theorem recvHello_eq
    (h : sizeofHello + sizeofHelloExtension * (byteAt t.data 2).toNat ≤ t.dataLen) (n : Node) :
    t.recvHello o n = some (n.recvHello t.task (Hello.ofBytes o t.data)) := by
  have hsrc : t.task.srcIp = t.srcIp := rfl
  rw [PacketTask.recvHello, Node.recvHello, hsrc]
  split
  · rfl
  · cases hfind : n.findAodvNeigh t.srcIp with
    | some x => simp only [helloFromNeigh_eq t.srcIp h, Option.map_some]
    | none =>
      rcases hnew : n.newHelloNeigh t.srcIp with _ | ⟨ok, n'⟩
      · rfl
      · cases ok with
        | false => rfl
        | true =>
          simp only [if_pos, helloFromNeigh_eq t.srcIp h, Option.map_some]
          rfl

end Walk

section Accepted

theorem receive_eq {α : Type} {message : Option α} {sentOn : ℕ} {handler : α → Option Node} {m : α}
    (hm : message = some m) (hsent : sentOn ≤ t.dataLen) :
    t.receive message sentOn handler = some (handler m) := by
  have hread : t.read 0 sentOn = some (field t.data 0 sentOn) := read_eq (by omega)
  rw [PacketTask.receive, hm, hread]
  rfl

theorem stampProbe_length {type : UInt8} {l : Bytes} (h : validLength type l = some l.length) :
    (stampProbe o sec usec type l).length = l.length := by
  have hput : ∀ k : ℕ, k + 8 ≤ l.length →
      (putField l k (o.put 4 sec.toNat ++ o.put 4 usec.toNat)).length = l.length := by
    intro k hk
    simp only [putField, List.length_append, List.length_take, List.length_drop,
      ByteOrder.put_length]
    omega
  rw [stampProbe]
  split
  · next hcode =>
    have hlen : sizeofSProbe = l.length := by
      simp only [validLength, hcode] at h
      exact Option.some.inj h
    apply hput
    rw [← hlen, sizeofSProbe]
    omega
  · next hcode =>
    have hlen : sizeofLProbe = l.length := by
      simp only [validLength, hcode] at h
      exact Option.some.inj h
    apply hput
    rw [← hlen, sizeofLProbe]
    omega
  · rfl

theorem validLength_lt {type : UInt8} {l : Bytes} {k : ℕ} (h : validLength type l = some k) :
    k < 2 ^ 32 := by
  have hcount : (byteAt l 2).toNat < 256 := (byteAt l 2).toNat_lt
  rw [validLength] at h
  split at h
  all_goals
    cases h
    try simp only [sizeofRreqSt, sizeofRreq, sizeofRrep, sizeofRerr, sizeofRcvp, sizeofRrdp,
      sizeofSProbe, sizeofLProbe, sizeofEttInfo, sizeofHello, sizeofHelloExtension]
    try omega

theorem packetTask_spec (hdata : s.data = header ++ payload)
    (hheader : header.length = SkBuff.startPoint) (ht : s.packetTask o now sec usec = some t) :
    validLength t.type payload = some payload.length ∧ t.dataLen = payload.length ∧
      t.data = stampProbe o sec usec t.type payload := by
  have hpayload : s.data.drop SkBuff.startPoint = payload := by
    rw [hdata, ← hheader, List.drop_left]
  have hrest : s.data.length - SkBuff.startPoint = payload.length := by
    rw [← hpayload, List.length_drop]
  rw [SkBuff.packetTask, SkBuff.packetIn] at ht
  dsimp only at ht
  rw [hpayload, hrest] at ht
  split at ht
  · next hvalid =>
    have hlt := validLength_lt hvalid
    have hmod : payload.length % 2 ^ 32 = payload.length := Nat.mod_eq_of_lt hlt
    obtain rfl := Option.some.inj ht
    refine ⟨hvalid, ?_, ?_⟩
    · simp only [SkBuff.insertTask, hrest, hmod]
    · simp only [SkBuff.insertTask, hrest, hmod]
      rw [← stampProbe_length hvalid, List.take_length]
  · cases ht

theorem validLength_stampProbe (type : UInt8) (l : Bytes) :
    validLength type (stampProbe o sec usec type l) = validLength type l := by
  rw [stampProbe]
  split
  · next hcode => simp only [validLength, hcode]
  · next hcode => simp only [validLength, hcode]
  · rfl

/-- The data is handled as a message of the type of its task, without a read
past its length. -/
def Handled (o : ByteOrder) (t : PacketTask) : Prop :=
  ∃ m : Message, m.taskType = TaskType.ofCode t.type ∧
    ∀ n : Node, t.handle o n = some (n.handle { t.task with data := some m })

/-- The data reads as the message `m`, which is what the thread handles. -/
structure Reads (o : ByteOrder) (t : PacketTask) (m : Message) : Prop where
  message : t.message o = some m
  type : m.taskType = TaskType.ofCode t.type
  handle : ∀ n : Node, t.handle o n = some (n.handle { t.task with data := some m })

theorem reads_of_receive {α : Type} {message : Option α} {sentOn : ℕ}
    {handler : Node → α → Option Node} (wrap : α → Message) (hm : ∃ m, message = some m)
    (hsent : sentOn ≤ t.dataLen) (htype : ∀ m, (wrap m).taskType = TaskType.ofCode t.type)
    (hmessage : t.message o = message.map wrap)
    (hhandle : ∀ n, t.handle o n = t.receive message sentOn (handler n))
    (hswitch : ∀ n m, n.handle { t.task with data := some (wrap m) } = handler n m) :
    ∃ m, Reads o t m := by
  obtain ⟨m, hm⟩ := hm
  refine ⟨wrap m, ?_, htype m, ?_⟩
  · rw [hmessage, hm, Option.map_some]
  · intro n
    rw [hhandle, hswitch]
    exact receive_eq hm hsent

theorem reads_of_valid (hvalid : validLength t.type t.data = some t.dataLen) : ∃ m, Reads o t m := by
  have htask : t.task.type = TaskType.ofCode t.type := rfl
  rw [validLength] at hvalid
  split at hvalid
  · next hcode =>
    have htype : TaskType.ofCode t.type = .recvStrreq := by simp only [TaskType.ofCode, hcode]
    have hlen := (Option.some.inj hvalid).symm
    apply reads_of_receive .strreq (readRreqSt_isSome hlen) hlen.ge (fun _ => htype.symm)
    · rw [PacketTask.message, htype]
    · intro n
      rw [PacketTask.handle, htype]
    · intro n m
      rw [Node.handle, htask, htype]
      rfl
  · next hcode =>
    have htype : TaskType.ofCode t.type = .recvRrep := by simp only [TaskType.ofCode, hcode]
    have hlen := (Option.some.inj hvalid).symm
    apply reads_of_receive .rrep (readRrep_isSome hlen) hlen.ge (fun _ => htype.symm)
    · rw [PacketTask.message, htype]
    · intro n
      rw [PacketTask.handle, htype]
    · intro n m
      rw [Node.handle, htask, htype]
      rfl
  · next hcode =>
    have htype : TaskType.ofCode t.type = .recvRerr := by simp only [TaskType.ofCode, hcode]
    have hlen := (Option.some.inj hvalid).symm
    apply reads_of_receive .rerr (readRerr_isSome hlen) hlen.ge (fun _ => htype.symm)
    · rw [PacketTask.message, htype]
    · intro n
      rw [PacketTask.handle, htype]
    · intro n m
      rw [Node.handle, htask, htype]
      rfl
  · next hcode =>
    have htype : TaskType.ofCode t.type = .recvHello := by simp only [TaskType.ofCode, hcode]
    have hfits := (Option.some.inj hvalid).le
    refine ⟨.hello (Hello.ofBytes o t.data), ?_, htype.symm, ?_⟩
    · rw [PacketTask.message, htype]
    intro n
    have hswitch : n.handle { t.task with data := some (.hello (Hello.ofBytes o t.data)) } =
        n.recvHello t.task (Hello.ofBytes o t.data) := by
      rw [Node.handle, htask, htype]
      rfl
    rw [hswitch, PacketTask.handle, htype]
    exact recvHello_eq hfits n
  · next hcode =>
    have htype : TaskType.ofCode t.type = .recvRcvp := by simp only [TaskType.ofCode, hcode]
    have hlen := (Option.some.inj hvalid).symm
    apply reads_of_receive .rcvp (readRcvp_isSome hlen) (Nat.zero_le _) (fun _ => htype.symm)
    · rw [PacketTask.message, htype]
    · intro n
      rw [PacketTask.handle, htype]
    · intro n m
      rw [Node.handle, htask, htype]
  · next hcode =>
    have htype : TaskType.ofCode t.type = .recvRrdp := by simp only [TaskType.ofCode, hcode]
    have hlen := (Option.some.inj hvalid).symm
    apply reads_of_receive .rrdp (readRrdp_isSome hlen) hlen.ge (fun _ => htype.symm)
    · rw [PacketTask.message, htype]
    · intro n
      rw [PacketTask.handle, htype]
    · intro n m
      rw [Node.handle, htask, htype]
      rfl
  · next hcode =>
    have htype : TaskType.ofCode t.type = .recvSEtt := by simp only [TaskType.ofCode, hcode]
    have hlen := (Option.some.inj hvalid).symm
    apply reads_of_receive .sprobe (readSProbe_isSome hlen) (Nat.zero_le _) (fun _ => htype.symm)
    · rw [PacketTask.message, htype]
    · intro n
      rw [PacketTask.handle, htype]
    · intro n m
      rw [Node.handle, htask, htype]
      rfl
  · next hcode =>
    have htype : TaskType.ofCode t.type = .recvLEtt := by simp only [TaskType.ofCode, hcode]
    have hlen := (Option.some.inj hvalid).symm
    apply reads_of_receive .lprobe (readLProbe_isSome hlen) (Nat.zero_le _) (fun _ => htype.symm)
    · rw [PacketTask.message, htype]
    · intro n
      rw [PacketTask.handle, htype]
    · intro n m
      rw [Node.handle, htask, htype]
      rfl
  · next hcode =>
    have htype : TaskType.ofCode t.type = .recvRreq := by simp only [TaskType.ofCode, hcode]
    have hlen := (Option.some.inj hvalid).symm
    apply reads_of_receive .rreq (readRreq_isSome hlen) hlen.ge (fun _ => htype.symm)
    · rw [PacketTask.message, htype]
    · intro n
      rw [PacketTask.handle, htype]
    · intro n m
      rw [Node.handle, htask, htype]
      rfl
  · next hcode =>
    have htype : TaskType.ofCode t.type = .ettInfo := by simp only [TaskType.ofCode, hcode]
    have hlen := (Option.some.inj hvalid).symm
    apply reads_of_receive .ettInfo (readEttInfo_isSome hlen) (Nat.zero_le _) (fun _ => htype.symm)
    · rw [PacketTask.message, htype]
    · intro n
      rw [PacketTask.handle, htype]
    · intro n m
      rw [Node.handle, htask, htype]
      rfl
  · cases hvalid

theorem handled_of_valid (hvalid : validLength t.type t.data = some t.dataLen) : Handled o t := by
  obtain ⟨m, hm⟩ := reads_of_valid (o := o) hvalid
  exact ⟨m, hm.type, hm.handle⟩

end Accepted

theorem receives_taskType (m : Message) : m.taskType.receives = true := by
  cases m <;> rfl

/-- The thread can be given every packet without IP options that
`valid_aodv_packet` accepts. -/
theorem dispatch_safe (hdata : s.data = header ++ payload)
    (hheader : header.length = SkBuff.startPoint) (ht : s.packetTask o now sec usec = some t) :
    (TaskType.ofCode t.type).receives = true ∧ t.dataLen = payload.length ∧
      t.data.length = t.dataLen ∧
      ∃ m : Message, m.taskType = TaskType.ofCode t.type ∧
        ∀ n : Node, t.handle o n = some (n.handle { t.task with data := some m }) := by
  obtain ⟨hvalid, hlen, hbytes⟩ := packetTask_spec hdata hheader ht
  have hlength : t.data.length = t.dataLen := by rw [hbytes, stampProbe_length hvalid, hlen]
  have hstamped : validLength t.type t.data = some t.dataLen := by
    rw [hbytes, validLength_stampProbe, hvalid, hlen]
  obtain ⟨m, htype, hhandle⟩ := handled_of_valid (o := o) hstamped
  refine ⟨?_, hlen, hlength, m, htype, hhandle⟩
  rw [← htype]
  exact receives_taskType m

/-- A HELLO with one extension. -/
def helloPayload : Bytes := [129, 0, 1, 0, 0, 5, 0, 1, 192, 168, 0, 2, 3, 4, 0, 1]

def helloBuff : SkBuff := ⟨List.replicate SkBuff.startPoint 0 ++ helloPayload, true, 0⟩

theorem dispatch_safe_hello :
    ∃ t, helloBuff.packetTask .big 0 0 0 = some t ∧
      (TaskType.ofCode t.type).receives = true ∧ t.dataLen = 16 ∧ t.data.length = t.dataLen ∧
      ∃ m : Message, m.taskType = TaskType.ofCode t.type ∧
        ∀ n : Node, t.handle .big n = some (n.handle { t.task with data := some m }) := by
  have hdata : helloBuff.data = List.replicate SkBuff.startPoint 0 ++ helloPayload := rfl
  refine ⟨_, rfl, ?_⟩
  exact dispatch_safe hdata rfl rfl

end Fbaodv.Proofs.Dispatch
