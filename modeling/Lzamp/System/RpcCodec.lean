import Lzamp.Agent.Calls
import Lzamp.Mailmsg.Traffic
import Lzamp.R1Amp.World
import Lzamp.System.StatusCodes

namespace Lzamp.System
open Mailmsg Cpu3 R1Amp Lib

/-- A 32-bit field of a record; both processors are little-endian. -/
def recordWord (record : List U8) (offset : ℕ) : U32 :=
  BitVec.ofNat 32 (leNat ((record.drop offset).take 4))

/-- `copy_from_user` of a `struct mailmsg_user_frame`. -/
def userFrameOfBytes (record : List U8) : UserFrame where
  priority := recordWord record 0
  type := recordWord record 4
  sequence := recordWord record 8
  length := recordWord record 12
  payload := fun i => record.getD (16 + i.val) 0

/-- `copy_to_user` of a `struct mailmsg_user_frame`. -/
def userFrameBytesOf (frame : UserFrame) : List U8 :=
  leBytes 4 frame.priority.toNat ++ leBytes 4 frame.type.toNat ++ leBytes 4 frame.sequence.toNat ++
    leBytes 4 frame.length.toNat ++ List.ofFn frame.payload

/-- The payload array that holds `l`. -/
abbrev payloadOf (l : List U8) : Fin 28 → U8 := fun i => l.getD i.val 0

theorem payloadU32_payloadOf (l : List U8) {offset : ℕ} (h : offset + 4 ≤ 28) :
    payloadU32 (payloadOf l) offset = BitVec.ofNat 32 (leNat [l.getD offset 0, l.getD (offset + 1) 0,
      l.getD (offset + 2) 0, l.getD (offset + 3) 0]) := by
  have h0 : offset + 0 < 28 := by omega
  have h1 : offset + 1 < 28 := by omega
  have h2 : offset + 2 < 28 := by omega
  have h3 : offset + 3 < 28 := by omega
  apply BitVec.eq_of_toNat_eq
  simp only [payloadU32, dif_pos h0, dif_pos h1, dif_pos h2, dif_pos h3]
  rw [toNat_or_shifts, BitVec.toNat_ofNat]
  refine (Nat.mod_eq_of_lt ?_).symm
  exact lt_of_lt_of_le (leNat_lt _) (by norm_num)

theorem ofFn_payloadOf {l : List U8} (h : l.length = 28) : List.ofFn (payloadOf l) = l := by
  apply List.ext_getElem
  · rw [List.length_ofFn, h]
  · intro i hi hi'
    rw [List.getElem_ofFn, payloadOf, List.getD_eq_getElem?_getD, List.getElem?_eq_getElem hi']
    rfl

theorem ofNat_leNat_leBytes (v : U32) : BitVec.ofNat 32 (leNat (leBytes 4 v.toNat)) = v := by
  rw [leNat_leBytes]
  apply BitVec.eq_of_toNat_eq
  rw [BitVec.toNat_ofNat]
  have := v.isLt
  omega

abbrev requestBytes (op arg0 arg1 arg2 : U32) (data : List U8) : List U8 :=
  Agent.requestBytes op.toNat arg0.toNat arg1.toNat arg2.toNat data

abbrev requestRecord (op arg0 arg1 arg2 : U32) (data : List U8) : List U8 :=
  Agent.requestRecord op.toNat arg0.toNat arg1.toNat arg2.toNat data

section Request

variable (op arg0 arg1 arg2 : U32) {data : List U8}

theorem length_requestBytes (h : data.length ≤ 8) :
    (requestBytes op arg0 arg1 arg2 data).length = 28 :=
  Agent.length_requestBytes _ _ _ _ h

theorem decodeRequest_requestBytes (h : data.length ≤ 8) :
    decodeRequest (payloadOf (requestBytes op arg0 arg1 arg2 data)) =
      ⟨op, arg0, arg1, arg2, BitVec.ofNat 32 data.length, data⟩ := by
  have hlen : (BitVec.ofNat 32 data.length).toNat = data.length := by
    rw [BitVec.toNat_ofNat]
    omega
  have hword (offset : ℕ) (hoffset : offset + 4 ≤ 28) :=
    payloadU32_payloadOf (requestBytes op arg0 arg1 arg2 data) hoffset
  have hop : payloadU32 (payloadOf (requestBytes op arg0 arg1 arg2 data)) 0 = op :=
    (hword 0 (by decide)).trans (ofNat_leNat_leBytes op)
  have h0 : payloadU32 (payloadOf (requestBytes op arg0 arg1 arg2 data)) 4 = arg0 :=
    (hword 4 (by decide)).trans (ofNat_leNat_leBytes arg0)
  have h1 : payloadU32 (payloadOf (requestBytes op arg0 arg1 arg2 data)) 8 = arg1 :=
    (hword 8 (by decide)).trans (ofNat_leNat_leBytes arg1)
  have h2 : payloadU32 (payloadOf (requestBytes op arg0 arg1 arg2 data)) 12 = arg2 :=
    (hword 12 (by decide)).trans (ofNat_leNat_leBytes arg2)
  have hl : payloadU32 (payloadOf (requestBytes op arg0 arg1 arg2 data)) 16 =
      BitVec.ofNat 32 data.length := by
    refine (hword 16 (by decide)).trans ?_
    have hbytes : leBytes 4 data.length = leBytes 4 (BitVec.ofNat 32 data.length).toNat := by
      rw [hlen]
    exact (congrArg (fun l => BitVec.ofNat 32 (leNat l)) hbytes).trans (ofNat_leNat_leBytes _)
  have hdata : ((List.ofFn (payloadOf (requestBytes op arg0 arg1 arg2 data))).drop 20).take
      data.length = data := by
    rw [ofFn_payloadOf (length_requestBytes op arg0 arg1 arg2 h)]
    exact List.take_left
  unfold decodeRequest
  simp only [hop, h0, h1, h2, hl, hlen, hdata]

theorem userFrameOfBytes_requestRecord (h : data.length ≤ 8) :
    (userFrameOfBytes (requestRecord op arg0 arg1 arg2 data)).priority = 1 ∧
      (userFrameOfBytes (requestRecord op arg0 arg1 arg2 data)).type = msgPeripheralRequest ∧
      (userFrameOfBytes (requestRecord op arg0 arg1 arg2 data)).length = 28 ∧
      copyPayload (some (List.ofFn
        (userFrameOfBytes (requestRecord op arg0 arg1 arg2 data)).payload)) 28 =
          payloadOf (requestBytes op arg0 arg1 arg2 data) := by
  refine ⟨rfl, rfl, rfl, funext fun i => ?_⟩
  have hi : i.val < (requestBytes op arg0 arg1 arg2 data).length := by
    rw [length_requestBytes op arg0 arg1 arg2 h]
    exact i.isLt
  have hi32 : i.val < 32 := by omega
  have hcopy : (List.ofFn (userFrameOfBytes (requestRecord op arg0 arg1 arg2 data)).payload).getD
      i.val 0 = (requestRecord op arg0 arg1 arg2 data).getD (16 + i.val) 0 := by
    rw [List.getD_eq_getElem?_getD, List.getElem?_ofFn, dif_pos hi32]
    rfl
  have hdrop : (requestRecord op arg0 arg1 arg2 data).getD (16 + i.val) 0 =
      (requestBytes op arg0 arg1 arg2 data ++ List.replicate 4 0).getD i.val 0 := by
    rw [List.getD_eq_getElem?_getD, List.getD_eq_getElem?_getD, ← List.getElem?_drop]
    rfl
  have hlt : i.val < (28 : U32).toNat := i.isLt
  rw [copyPayload, if_pos hlt, Option.getD_some, hcopy, hdrop, payloadOf,
    List.getD_eq_getElem?_getD, List.getD_eq_getElem?_getD, List.getElem?_append_left hi]

end Request

/-- A side of the session of a generation. -/
structure InSession (role : EndpointRole) (generation : U32) (e : Endpoint) (sh : Shared) :
    Prop where
  role_eq : e.role = some role
  valid : endpointSessionValid e sh = endpointOk
  generation_eq : e.generation = generation

section Device

variable {generation : U32} {d : Driver} {file : UserFile}

theorem gate_of_active (h : d.life.mailmsgState = .active) : mailmsgDataGateLocked d = 0 := by
  rw [mailmsgDataGateLocked, h]

/-- The frame a record becomes in the ring. -/
def frameOfUser (e : Endpoint) (user : UserFrame) : Message :=
  (composeFrame e.generation user.type (endpointNextSequence e).1 user.length
    (some (List.ofFn user.payload))).seal

theorem mailmsgUserWrite_ok (hactive : d.life.mailmsgState = .active)
    (hlinux : InSession .linux generation d.endpoint d.shared)
    (hrange : (d.shared.linuxToCpu3 file.channel).InRange)
    (hroom : next (d.shared.linuxToCpu3 file.channel).producer ≠
      (d.shared.linuxToCpu3 file.channel).consumer)
    {user : UserFrame} (hprio : user.priority = channelWord file.channel)
    (hlen : user.length ≤ 28#32) :
    (mailmsgUserWrite userFrameBytes (some user) file d).1 = userFrameBytes ∧
      ((mailmsgUserWrite userFrameBytes (some user) file d).2.shared.linuxToCpu3
        file.channel).contents =
          (d.shared.linuxToCpu3 file.channel).contents ++ [frameOfUser d.endpoint user] := by
  have hok := endpointSend_ok mailmsgNotifyLocked d.mbox hlinux.role_eq hlinux.valid hroom user.type
    (List.ofFn user.payload) hlen SendResult.zero
  have hcontents := contents_endpointSend mailmsgNotifyLocked d.mbox d.endpoint d.shared
    file.channel user.type (some (List.ofFn user.payload)) user.length SendResult.zero
    (.inr hlinux.role_eq) hrange hok
  have hargs : ¬ (user.priority ≠ channelWord file.channel ∨ 28#32 < user.length) := by
    rintro (h | h)
    · exact h hprio
    · exact absurd hlen (by simpa using h)
  have hgate : ¬ mailmsgDataGateLocked d ≠ 0 := not_not.mpr (gate_of_active hactive)
  unfold mailmsgUserWrite
  dsimp only
  rw [if_neg (not_not.mpr rfl), if_neg hargs, if_neg hgate]
  refine ⟨?_, hcontents⟩
  dsimp only
  rw [hok]
  rfl

theorem mailmsgUserReadTry_frame (hactive : d.life.mailmsgState = .active)
    (hlinux : InSession .linux generation d.endpoint d.shared)
    (hrange : (d.shared.cpu3ToLinux file.channel).InRange) {sender : Endpoint}
    (hgen : sender.generation = generation) {type length : U32} (hlen : length ≤ 28#32)
    {payload : Option (List U8)} {rest : List Message}
    (hhead : (d.shared.cpu3ToLinux file.channel).contents = (composeFrame sender.generation type
      (endpointNextSequence sender).1 length payload).seal :: rest) (nonblock : Bool) :
    (mailmsgUserReadTry nonblock false file d).1 = .frame (userFrame file.channel
      (composeFrame sender.generation type (endpointNextSequence sender).1 length payload).seal) := by
  obtain ⟨hret, hmessage⟩ := endpointReceive_sent hlinux.role_eq hlinux.valid
    (hgen.trans hlinux.generation_eq.symm) hrange hlen hhead Message.zero
  have hgate : ¬ mailmsgDataGateLocked d ≠ 0 := not_not.mpr (gate_of_active hactive)
  unfold mailmsgUserReadTry
  dsimp only
  rw [if_neg hgate, hret, hmessage, userReadDispatch, if_pos rfl]
  rfl

end Device

/-- The agent's record is accepted by the device, and whenever its frame is at the head of the ring
the service receives it and answers the request that was packed. -/
def RequestArrives (generation : U32) (d : Driver) (file : UserFile) (op arg0 arg1 arg2 : U32)
    (data : List U8) : Prop :=
  ∃ record frame,
    Agent.packPeripheralFrame op.toNat arg0.toNat arg1.toNat arg2.toNat data = .ok record ∧
    (mailmsgUserWrite record.length (some (userFrameOfBytes record)) file d).1 = userFrameBytes ∧
    ((mailmsgUserWrite record.length (some (userFrameOfBytes record)) file d).2.shared.linuxToCpu3
      prioControl).contents = (d.shared.linuxToCpu3 prioControl).contents ++ [frame] ∧
    ∀ (e : Endpoint) (sh : Shared), InSession .cpu3 generation e sh →
      (sh.linuxToCpu3 prioControl).InRange →
      ∀ rest, (sh.linuxToCpu3 prioControl).contents = frame :: rest → ∀ buffer,
        (endpointReceive e sh prioControl buffer).ret = ringOk ∧
        decodeRequest (endpointReceive e sh prioControl buffer).message.payload =
          ⟨op, arg0, arg1, arg2, BitVec.ofNat 32 data.length, data⟩ ∧
        ∀ service : PeripheralService,
          service.execute (endpointReceive e sh prioControl buffer).message =
            service.reply ⟨op, arg0, arg1, arg2, BitVec.ofNat 32 data.length, data⟩ >>= fun r =>
              pure (some (resultRecord frame.sequence op r.1), r.2)

theorem request_arrives {generation : U32} {d : Driver} {file : UserFile}
    (hactive : d.life.mailmsgState = .active)
    (hlinux : InSession .linux generation d.endpoint d.shared) (hchannel : file.channel = prioControl)
    (hrange : (d.shared.linuxToCpu3 prioControl).InRange)
    (hroom : next (d.shared.linuxToCpu3 prioControl).producer ≠
      (d.shared.linuxToCpu3 prioControl).consumer)
    (op arg0 arg1 arg2 : U32) {data : List U8} (hdata : data.length ≤ 8) :
    RequestArrives generation d file op arg0 arg1 arg2 data := by
  obtain ⟨hprio, htype, hlength, hpayload⟩ :=
    userFrameOfBytes_requestRecord op arg0 arg1 arg2 hdata
  have hlen : (userFrameOfBytes (requestRecord op arg0 arg1 arg2 data)).length ≤ 28#32 := by
    rw [hlength]
    decide
  have hword : (userFrameOfBytes (requestRecord op arg0 arg1 arg2 data)).priority =
      channelWord file.channel := by
    rw [hprio, hchannel]
    rfl
  have hwrite := mailmsgUserWrite_ok hactive hlinux (hchannel ▸ hrange) (hchannel ▸ hroom) hword hlen
  rw [hchannel] at hwrite
  refine ⟨requestRecord op arg0 arg1 arg2 data, frameOfUser d.endpoint
    (userFrameOfBytes (requestRecord op arg0 arg1 arg2 data)),
    Agent.packPeripheralFrame_eq op.isLt arg0.isLt arg1.isLt arg2.isLt hdata, ?_⟩
  rw [Agent.length_requestRecord _ _ _ _ hdata]
  refine ⟨hwrite.1, hwrite.2, fun e sh hcpu hr rest hhead buffer => ?_⟩
  obtain ⟨hret, hmessage⟩ := endpointReceive_sent hcpu.role_eq hcpu.valid
    (hlinux.generation_eq.trans hcpu.generation_eq.symm) hr hlen hhead buffer
  have hdecode : decodeRequest (frameOfUser d.endpoint (userFrameOfBytes
      (requestRecord op arg0 arg1 arg2 data))).payload =
        ⟨op, arg0, arg1, arg2, BitVec.ofNat 32 data.length, data⟩ := by
    rw [← decodeRequest_requestBytes op arg0 arg1 arg2 hdata, ← hpayload, ← hlength]
    rfl
  have hform : ¬ (msgPeripheralRequest ≠ msgPeripheralRequest ∨ (28 : U32) ≠ 28) := by decide
  rw [hmessage]
  refine ⟨hret, hdecode, fun service => ?_⟩
  change PeripheralService.execute service (frameOfUser d.endpoint _) = _
  rw [PeripheralService.execute, hdecode]
  exact if_neg hform

theorem reply_fits (service : PeripheralService) (payload : Fin 28 → U8) (reads : Stream' U32) :
    (-22 ≤ ((service.reply (decodeRequest payload)).run reads).value.1.status ∧
      ((service.reply (decodeRequest payload)).run reads).value.1.status ≤ 0) ∧
      ((service.reply (decodeRequest payload)).run reads).value.1.data.length ≤ 8 := by
  by_cases hlen : (decodeRequest payload).length ≤ 8
  · have ha := dispatch_answers service (length_decodeRequest_data hlen) hlen reads
    rw [reply_of_short hlen]
    exact ⟨⟨ha.low, ha.high⟩, ha.fits⟩
  · rw [reply_of_long hlen]
    have hrange : -22 ≤ serviceInvalid ∧ serviceInvalid ≤ 0 := by decide
    exact ⟨hrange, Nat.zero_le _⟩

theorem length_resultRecord {reply : PeriphReply} (h : reply.data.length ≤ 8) (sequence op : U32) :
    (resultRecord sequence op reply).length = 28 := by
  simp [resultRecord, storePayloadU32]
  omega

theorem ofFn_payload_userFrame {bytes : List U8} (h : bytes.length = 28) {m : Message}
    (hlength : m.length = 28) (hpayload : m.payload = payloadOf bytes) (p : Priority) :
    List.ofFn (userFrame p m).payload = bytes ++ List.replicate 4 0 := by
  apply List.ext_getElem?
  intro i
  rw [List.getElem?_ofFn]
  have hpast : m.length.toNat = 28 := by
    rw [hlength]
    rfl
  by_cases hi : i < 28
  · have hi32 : i < 32 := by omega
    rw [dif_pos hi32, List.getElem?_append_left (by omega), List.getElem?_eq_getElem (by omega)]
    simp only [userFrame, dif_pos hi, hpast, if_pos hi, hpayload, payloadOf]
    rw [List.getD_eq_getElem?_getD, List.getElem?_eq_getElem (by omega)]
    rfl
  · rw [List.getElem?_append_right (by omega), List.getElem?_replicate]
    by_cases hi32 : i < 32
    · rw [dif_pos hi32, if_pos (by omega)]
      simp only [userFrame, dif_neg hi]
    · rw [dif_neg hi32, if_neg (by omega)]

theorem unpackFrame_userFrame {bytes : List U8} (h : bytes.length = 28) {m : Message}
    (hlength : m.length = 28) (hpayload : m.payload = payloadOf bytes) :
    (userFrameBytesOf (userFrame prioControl m)).length = 48 ∧
      Agent.unpackFrame (userFrameBytesOf (userFrame prioControl m)) =
        .ok ⟨1, m.type.toNat, m.sequence.toNat, 28, bytes⟩ := by
  have hbytes : userFrameBytesOf (userFrame prioControl m) =
      leBytes 4 1 ++ leBytes 4 m.type.toNat ++ leBytes 4 m.sequence.toNat ++ leBytes 4 28 ++
        (bytes ++ List.replicate 4 0) := by
    rw [userFrameBytesOf, ofFn_payload_userFrame h hlength hpayload]
    simp only [userFrame, hlength]
    rfl
  have hsize : (userFrameBytesOf (userFrame prioControl m)).length = 48 := by
    rw [hbytes]
    simp [h]
  have hword (v : U32) : leNat (leBytes 4 v.toNat) = v.toNat := by
    rw [leNat_leBytes]
    exact Nat.mod_eq_of_lt v.isLt
  have htype : Agent.unpackU32 (userFrameBytesOf (userFrame prioControl m)) 4 = m.type.toNat := by
    rw [hbytes]
    exact hword m.type
  have hsequence : Agent.unpackU32 (userFrameBytesOf (userFrame prioControl m)) 8 =
      m.sequence.toNat := by
    rw [hbytes]
    exact hword m.sequence
  have hprio : Agent.unpackU32 (userFrameBytesOf (userFrame prioControl m)) 0 = 1 := by
    rw [hbytes]
    rfl
  have hlen : Agent.unpackU32 (userFrameBytesOf (userFrame prioControl m)) 12 = 28 := by
    rw [hbytes]
    rfl
  have hdata : ((userFrameBytesOf (userFrame prioControl m)).drop 16).take 28 = bytes := by
    rw [hbytes]
    exact (List.take_append_of_le_length h.ge).trans (List.take_of_length_le h.le)
  refine ⟨hsize, ?_⟩
  rw [Agent.unpackFrame, if_neg (not_not.mpr hsize)]
  dsimp only
  rw [hprio, hlen, if_neg (by decide), if_neg (by decide), htype, hsequence, hdata]
  rfl

theorem peripheralPayloadUnpack_resultRecord {reply : PeriphReply} (h : reply.data.length ≤ 8)
    (sequence op : U32) :
    Agent.peripheralPayloadUnpack (resultRecord sequence op reply) =
      .ok ⟨sequence.toNat, (BitVec.ofInt 32 reply.status).toNat, op.toNat, reply.value.toNat,
        reply.data.length, reply.data ++ List.replicate (8 - reply.data.length) 0⟩ := by
  have hlength : Agent.unpackU32 (resultRecord sequence op reply) 16 = reply.data.length := by
    refine (Agent.leNat_storePayloadU32 (BitVec.ofNat 32 reply.data.length)).trans ?_
    rw [BitVec.toNat_ofNat]
    omega
  rw [Agent.peripheralPayloadUnpack, if_neg (not_not.mpr (length_resultRecord h sequence op)),
    ← Agent.leNat_storePayloadU32 sequence, ← Agent.leNat_storePayloadU32 op,
    ← Agent.leNat_storePayloadU32 reply.value, ← Agent.leNat_storePayloadU32 (BitVec.ofInt 32 _)]
  rw [hlength]
  rfl

theorem onFrame_resultRecord {reply : PeriphReply} (hstatus : -22 ≤ reply.status ∧ reply.status ≤ 0)
    (h : reply.data.length ≤ 8) (sequence op : U32) (number : ℕ)
    (w : Agent.Waiting Agent.PeriphResult) :
    Agent.onFrame (Agent.peripheralReply op.toNat) w
        ⟨1, 12, number, 28, resultRecord sequence op reply⟩ = .ok { w with
      result := some ⟨number, sequence.toNat, reply.status, reply.value.toNat, reply.data⟩ } := by
  have haccept : (Agent.peripheralReply op.toNat).accept
      ⟨1, 12, number, 28, resultRecord sequence op reply⟩ = pure
        ⟨number, sequence.toNat, reply.status, reply.value.toNat, reply.data⟩ := by
    have hargs : ¬ ((op.toNat : ℤ) ≠ op.toNat ∨ 8 < reply.data.length) := by
      rintro (hop | hlen)
      · exact hop rfl
      · omega
    have hsigned : Agent.signedU32 (BitVec.ofInt 32 reply.status).toNat = reply.status :=
      Agent.signedU32_ofInt (by omega) (by omega)
    simp only [Agent.peripheralReply]
    rw [Agent.acceptPeripheral, if_neg (not_not.mpr rfl), peripheralPayloadUnpack_resultRecord h]
    change (if _ then _ else _) = _
    rw [if_neg hargs, hsigned]
    exact congrArg (fun data => pure (Agent.PeriphResult.mk number _ _ _ data)) List.take_left
  have hack : ¬ (12 : ℕ) = 3 := by decide
  have hnack : ¬ (12 : ℕ) = 4 := by decide
  refine (if_neg hack).trans ((if_neg hnack).trans ((if_pos rfl).trans ?_))
  rw [haccept]
  rfl

/-- A result record is queued, and whenever its frame is at the head of the ring the agent reads and
accepts the result that the service made. -/
def ResultArrives {π : Type} (generation : U32) (c : Cpu3.State π) (record : List U8)
    (sequence op : U32) (reply : PeriphReply) : Prop :=
  ∃ frame,
    (sendPeripheralResult c prioControl record).1 = true ∧
    ((sendPeripheralResult c prioControl record).2.shared.cpu3ToLinux prioControl).contents =
      (c.shared.cpu3ToLinux prioControl).contents ++ [frame] ∧
    ∀ (d : Driver) (file : UserFile), d.life.mailmsgState = .active →
      InSession .linux generation d.endpoint d.shared → file.channel = prioControl →
      (d.shared.cpu3ToLinux prioControl).InRange →
      ∀ rest, (d.shared.cpu3ToLinux prioControl).contents = frame :: rest → ∀ nonblock,
        ∃ user f payload,
          (mailmsgUserReadTry nonblock false file d).1 = .frame user ∧
          (userFrameBytesOf user).length = userFrameBytes ∧
          List.ofFn user.payload = record ++ List.replicate 4 0 ∧
          Agent.unpackFrame (userFrameBytesOf user) = .ok f ∧
          Agent.peripheralPayloadUnpack f.payload = .ok payload ∧
          payload.peer = sequence.toNat ∧ Agent.signedU32 payload.status = reply.status ∧
          payload.op = op.toNat ∧ payload.value = reply.value.toNat ∧
          payload.data.take payload.length = reply.data ∧
          ∀ w, Agent.onFrame (Agent.peripheralReply op.toNat) w f = .ok { w with
            result := some ⟨f.sequence, sequence.toNat, reply.status, reply.value.toNat,
              reply.data⟩ }

theorem result_arrives {π : Type} {generation : U32} {c : Cpu3.State π}
    (hcpu : InSession .cpu3 generation c.endpoint c.shared)
    (hrange : (c.shared.cpu3ToLinux prioControl).InRange)
    (hroom : next (c.shared.cpu3ToLinux prioControl).producer ≠
      (c.shared.cpu3ToLinux prioControl).consumer)
    {sequence op : U32} {reply : PeriphReply}
    (hstatus : -22 ≤ reply.status ∧ reply.status ≤ 0) (hdata : reply.data.length ≤ 8) :
    ResultArrives generation c (resultRecord sequence op reply) sequence op reply := by
  have hbytes := length_resultRecord hdata sequence op
  -- the bytes matter only when the agent unpacks them; until then the record is opaque
  generalize hrecord : resultRecord sequence op reply = record at *
  have hlen : BitVec.ofNat 32 record.length = 28 := by
    rw [hbytes]
    rfl
  have hle : BitVec.ofNat 32 record.length ≤ 28#32 := by
    rw [hlen]
    decide
  have hok := endpointSend_ok cpu3Notify c.b2a hcpu.role_eq hcpu.valid hroom msgPeripheralResult
    record hle SendResult.zero
  have hcontents := contents_endpointSend cpu3Notify c.b2a c.endpoint c.shared prioControl
    msgPeripheralResult (some record) (BitVec.ofNat 32 record.length) SendResult.zero
    (.inr hcpu.role_eq) hrange hok
  have hsent : (transmit c prioControl msgPeripheralResult record).2.shared = (endpointSend cpu3Notify
      c.b2a c.endpoint c.shared prioControl msgPeripheralResult (some record)
      (BitVec.ofNat 32 record.length) SendResult.zero).shared := by
    unfold transmit
    dsimp only
    rw [if_neg (not_not.mpr hok)]
  refine ⟨(composeFrame c.endpoint.generation msgPeripheralResult (endpointNextSequence
    c.endpoint).1 (BitVec.ofNat 32 record.length) (some record)).seal, decide_eq_true hok, ?_, ?_⟩
  · rw [sendPeripheralResult]
    dsimp only
    rw [hsent]
    exact hcontents
  · -- the Linux side: the driver hands the frame over, and the agent takes it apart
    intro d file hactive hlinux hchannel hr rest hhead nonblock
    have hread := mailmsgUserReadTry_frame hactive hlinux (hchannel ▸ hr) hcpu.generation_eq hle
      (hchannel ▸ hhead) nonblock
    rw [hchannel] at hread
    generalize hframe : (composeFrame c.endpoint.generation msgPeripheralResult (endpointNextSequence
      c.endpoint).1 (BitVec.ofNat 32 record.length) (some record)).seal = m at hread
    have htype : m.type = msgPeripheralResult := by rw [← hframe]; rfl
    have hlength : m.length = 28 := by rw [← hframe]; exact hlen
    have hpayload : m.payload = payloadOf record := by
      rw [← hframe]
      change copyPayload (some record) (BitVec.ofNat 32 record.length) = _
      rw [hlen]
      exact funext fun i => if_pos i.isLt
    obtain ⟨hsize, hunpack⟩ := unpackFrame_userFrame hbytes hlength hpayload
    rw [htype] at hunpack
    subst hrecord
    exact ⟨_, _, _, hread, hsize, ofFn_payload_userFrame hbytes hlength hpayload _, hunpack,
      peripheralPayloadUnpack_resultRecord hdata sequence op, rfl,
      Agent.signedU32_ofInt (by omega) (by omega), rfl, rfl, List.take_left,
      onFrame_resultRecord hstatus hdata sequence op m.sequence.toNat⟩

theorem rpc_round_trips (generation : U32) :
    (∀ (d : Driver) (file : UserFile), d.life.mailmsgState = .active →
      InSession .linux generation d.endpoint d.shared → file.channel = prioControl →
      (d.shared.linuxToCpu3 prioControl).InRange →
      next (d.shared.linuxToCpu3 prioControl).producer ≠
        (d.shared.linuxToCpu3 prioControl).consumer →
      ∀ (op arg0 arg1 arg2 : U32) (data : List U8), data.length ≤ 8 →
        RequestArrives generation d file op arg0 arg1 arg2 data) ∧
    ∀ (service : PeripheralService) (request : Message) (reads : Stream' U32) (record : List U8),
      ((service.execute request).run reads).value.1 = some record →
      ∀ (π : Type) (c : Cpu3.State π), InSession .cpu3 generation c.endpoint c.shared →
        (c.shared.cpu3ToLinux prioControl).InRange →
        next (c.shared.cpu3ToLinux prioControl).producer ≠
          (c.shared.cpu3ToLinux prioControl).consumer →
        ResultArrives generation c record request.sequence (decodeRequest request.payload).op
          ((service.reply (decodeRequest request.payload)).run reads).value.1 := by
  refine ⟨fun d file hactive hlinux hchannel hrange hroom op arg0 arg1 arg2 data hdata =>
    request_arrives hactive hlinux hchannel hrange hroom op arg0 arg1 arg2 hdata, ?_⟩
  intro service request reads record hrecord π c hcpu hrange hroom
  by_cases hform : request.type ≠ msgPeripheralRequest ∨ request.length ≠ 28
  · rw [PeripheralService.execute, if_pos hform] at hrecord
    cases hrecord
  · rw [(execute_run service hform reads).1] at hrecord
    obtain ⟨hstatus, hdata⟩ := reply_fits service request.payload reads
    cases hrecord
    exact result_arrives hcpu hrange hroom hstatus hdata

def activeDriver : Driver := { probedWorld.driver with
  life := { probedWorld.driver.life with mailmsgState := .active }
  shared := freshShared 1
  endpoint := (endpointBind Endpoint.zero (freshShared 1) .linux).2 }

/-- A read of ADC channel 3, and the answer to a write of GPIO line 25. -/
theorem rpc_round_trips_first_session :
    RequestArrives 1 activeDriver ⟨0, prioControl, false, []⟩ 12 3 0 0 [] ∧
      ResultArrives 1 (boot (freshShared 1) ⟨0, fun _ => 0, fun _ => 0⟩ true ())
        (resultRecord 0 2 (.ofStatus (-2))) 0 2 (.ofStatus (-2)) := by
  have hrecord : ((PeripheralService.execute (.initial .physical false) writeLine25).run
      (Stream'.const 0)).value.1 = some (resultRecord 0 2 (.ofStatus (-2))) := by decide +kernel
  exact ⟨(rpc_round_trips 1).1 _ _ rfl ⟨rfl, rfl, rfl⟩ rfl (by decide) (by decide) 12 3 0 0 []
      (by decide),
    (rpc_round_trips 1).2 _ _ _ _ hrecord Unit _ ⟨rfl, rfl, rfl⟩ (by decide) (by decide)⟩

end Lzamp.System
