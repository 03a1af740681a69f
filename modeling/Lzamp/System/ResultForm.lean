import Lzamp.System.RpcCodec

namespace Lzamp.System
open Mailmsg Cpu3 Lib Lib.Bus

/-- The bytes that a request asks for. -/
def requestedBytes (req : PeriphRequest) : ℕ :=
  match PeriphOp.ofCode req.op with
  | some .uartRead | some .i2cRead | some .i2cWriteRead => req.arg1.toNat
  | some .spiTransfer => req.length.toNat
  | _ => 0

/-- The values an operation can return. -/
def ValueFits (op : Option PeriphOp) (value : U32) : Prop :=
  match op with
  | some .gpioRead => value = 0 ∨ value = 1
  | some .adcRead => value ≤ 0xfff
  | _ => value = 0

/-- The record of 28 bytes for a request; `memcpy` has put `length` bytes into its last eight. -/
structure ResultForm (request : Message) (record : List U8) : Prop where
  size : record.length = 28
  sequence : recordWord record 0 = request.sequence
  op : recordWord record 8 = payloadU32 request.payload 0
  length : recordWord record 16 ≤ 8
  requested : (recordWord record 16).toNat ≤ requestedBytes (decodeRequest request.payload)
  padding : ∀ i < 28, 20 + (recordWord record 16).toNat ≤ i → record[i]? = some 0
  value : ValueFits (PeriphOp.ofCode (recordWord record 8)) (recordWord record 12)
  failed : recordWord record 4 ≠ 0 → recordWord record 12 = 0 ∧ recordWord record 16 = 0

/-- A reply whose parts fit the request. -/
structure ReplyForm (req : PeriphRequest) (reply : PeriphReply) : Prop where
  requested : reply.data.length ≤ requestedBytes req
  value : ValueFits (PeriphOp.ofCode req.op) reply.value
  failed : reply.status ≠ 0 → reply.value = 0 ∧ reply.data = []

theorem ReplyForm.ofStatus (req : PeriphRequest) (status : Int) :
    ReplyForm req (.ofStatus status) where
  requested := Nat.zero_le _
  value := by
    unfold ValueFits
    split
    · exact .inl rfl
    · exact (by decide : (0 : U32) ≤ 0xfff)
    · rfl
  failed _ := ⟨rfl, rfl⟩

theorem ReplyForm.ofData {req : PeriphRequest} {result : Int × List U8}
    (hvalue : ValueFits (PeriphOp.ofCode req.op) 0)
    (hlength : result.2.length ≤ requestedBytes req) : ReplyForm req (.ofData result) := by
  refine ⟨?_, hvalue, fun h => ⟨rfl, if_pos h⟩⟩
  unfold PeriphReply.ofData
  dsimp only
  split_ifs
  · exact Nat.zero_le _
  · exact hlength

section Replies

variable {service : PeripheralService} {req : PeriphRequest}

theorem ofStatus_after (p : Mmio Int) :
    (p >>= fun status => pure (PeriphReply.ofStatus status)).Returns (ReplyForm req) :=
  .after fun status => returns_pure (.ofStatus req status)

theorem gpioRead_form (hop : PeriphOp.ofCode req.op = some .gpioRead) :
    (service.gpioRead req).Returns (ReplyForm req) := by
  have hlevel : (gpio3Get service.gpio req.arg0).Returns fun r => ReplyForm req ⟨r.1, r.2, []⟩ := by
    refine (gpio3Get_calls _ _).returns (fun _ => .ofStatus req _) ?_
    intro _ _ _ _ r hr
    refine ⟨Nat.zero_le _, ?_, fun hne => absurd hr.2.1 hne⟩
    rw [hop]
    exact hr.2.2
  unfold PeripheralService.gpioRead
  split_ifs
  · exact returns_pure (.ofStatus req _)
  · exact hlevel.bind fun r hr => returns_pure hr

theorem adcRead_form (hop : PeriphOp.ofCode req.op = some .adcRead) :
    (service.adcRead req).Returns (ReplyForm req) := by
  have hsample : (saradcRead service.saradc req.arg0 serviceTimeoutUs).Returns fun r =>
      ReplyForm req ⟨r.1, r.2, []⟩ := by
    refine (saradcRead_calls _ _ _).returns (fun _ => .ofStatus req _) ?_
    intro _ _ _ _ r hr
    refine ⟨Nat.zero_le _, ?_, fun hne => ⟨hr.failed hne, rfl⟩⟩
    rw [hop]
    exact hr.ok
  unfold PeripheralService.adcRead
  refine .after fun status => ?_
  split_ifs
  · exact returns_pure (.ofStatus req _)
  · exact hsample.bind fun r hr => returns_pure hr

theorem uartRead_form (hop : PeriphOp.ofCode req.op = some .uartRead) :
    (service.uartRead req).Returns (ReplyForm req) := by
  have hread (uart : Uart) : (Cpu3.uartRead (some uart) req.arg1.toNat serviceTimeoutUs).Returns
      fun r => ReplyForm req ⟨r.1, 0, r.2⟩ := by
    refine (uartRead_calls _ _ _).returns (fun _ => .ofStatus req _) ?_
    intro _ _ _ _ r hr
    refine ⟨?_, ?_, fun hne => ⟨rfl, hr.failed hne⟩⟩
    · rw [requestedBytes, hop]
      exact hr.ok
    · rw [hop]
      rfl
  unfold PeripheralService.uartRead
  split
  · exact returns_pure (.ofStatus req _)
  · split_ifs
    · exact returns_pure (.ofStatus req _)
    · exact (hread _).bind fun r hr => returns_pure hr

theorem readCommon_form (hvalue : ValueFits (PeriphOp.ofCode req.op) 0)
    (hrequested : requestedBytes req = req.arg1.toNat) (address : U8) (prefixBytes : List U8) :
    (readCommon service.i2c7 address prefixBytes req.arg1.toNat serviceTimeoutUs).Returns
      fun r => ReplyForm req (.ofData r) :=
  (readCommon_calls _ _ _ _ _).returns (fun _ => .ofData hvalue (Nat.zero_le _))
    fun _ _ _ _ _ hr => .ofData hvalue (hrequested ▸ hr.2)

theorem i2cRead_form (hop : PeriphOp.ofCode req.op = some .i2cRead) :
    (service.i2cRead req).Returns (ReplyForm req) := by
  unfold PeripheralService.i2cRead
  split_ifs
  · exact returns_pure (.ofStatus req _)
  · exact returns_pure (.ofStatus req _)
  · refine (readCommon_form ?_ ?_ _ []).bind fun r hr => returns_pure hr
    · rw [hop]
      rfl
    · rw [requestedBytes, hop]

theorem i2cWriteRead_form (hop : PeriphOp.ofCode req.op = some .i2cWriteRead) :
    (service.i2cWriteRead req).Returns (ReplyForm req) := by
  have hvalue : ValueFits (PeriphOp.ofCode req.op) 0 := by
    rw [hop]
    rfl
  have hrequested : requestedBytes req = req.arg1.toNat := by rw [requestedBytes, hop]
  have hread : (Cpu3.i2cWriteRead service.i2c7 (req.arg0.setWidth 8) req.data req.arg1.toNat
      serviceTimeoutUs).Returns fun r => ReplyForm req (.ofData r) := by
    unfold Cpu3.i2cWriteRead
    split_ifs
    · exact returns_pure (.ofData hvalue (Nat.zero_le _))
    · exact readCommon_form hvalue hrequested _ _
  unfold PeripheralService.i2cWriteRead
  split_ifs
  · exact returns_pure (.ofStatus req _)
  · exact returns_pure (.ofStatus req _)
  · exact hread.bind fun r hr => returns_pure hr

theorem spiTransfer_form (hop : PeriphOp.ofCode req.op = some .spiTransfer)
    (hdata : req.data.length = req.length.toNat) :
    (service.spiTransfer req).Returns fun r => ReplyForm req r.1 := by
  have hvalue : ValueFits (PeriphOp.ofCode req.op) 0 := by
    rw [hop]
    rfl
  have hrequested : req.data.length = requestedBytes req := by rw [requestedBytes, hop, hdata]
  have htransfer (device : Option Spi) :
      (Cpu3.spiTransfer device req.arg0 req.data serviceTimeoutUs).Returns
        fun r => ReplyForm req (.ofData r) :=
    (spiTransfer_calls _ _ _ _).returns (fun _ => .ofData hvalue (Nat.zero_le _))
      fun _ _ _ _ _ hr => .ofData hvalue (hr.ok.trans hrequested.le)
  unfold PeripheralService.spiTransfer
  split_ifs
  · exact returns_pure (.ofStatus req _)
  · exact returns_pure (.ofStatus req _)
  · refine .after fun mode => ?_
    dsimp only
    split_ifs
    · exact returns_pure (.ofStatus req _)
    · exact (htransfer mode.2).bind fun r hr => returns_pure hr

theorem keep_form {p : Mmio PeriphReply} (h : p.Returns (ReplyForm req)) :
    (service.keep p).Returns fun r => ReplyForm req r.1 :=
  h.bind fun _ hr => returns_pure hr

theorem gpioConfig_form : (service.gpioConfig req).Returns fun r => ReplyForm req r.1 := by
  unfold PeripheralService.gpioConfig
  split_ifs
  · exact returns_pure (.ofStatus req _)
  · exact returns_pure (.ofStatus req _)
  all_goals exact .after fun result => returns_pure (.ofStatus req result.1)

theorem gpioWrite_form : (service.gpioWrite req).Returns (ReplyForm req) := by
  unfold PeripheralService.gpioWrite
  split_ifs
  · exact returns_pure (.ofStatus req _)
  · exact returns_pure (.ofStatus req _)
  · exact ofStatus_after _

theorem uartWrite_form : (service.uartWrite req).Returns (ReplyForm req) := by
  unfold PeripheralService.uartWrite
  split
  · exact returns_pure (.ofStatus req _)
  · exact ofStatus_after _

theorem i2cWrite_form : (service.i2cWrite req).Returns (ReplyForm req) := by
  unfold PeripheralService.i2cWrite
  split_ifs
  · exact returns_pure (.ofStatus req _)
  · exact returns_pure (.ofStatus req _)
  · exact ofStatus_after _

theorem pwmSet_form : (service.pwmSet req).Returns (ReplyForm req) := by
  unfold PeripheralService.pwmSet
  split_ifs
  · exact returns_pure (.ofStatus req _)
  · exact ofStatus_after _

theorem dispatch_form (hdata : req.data.length = req.length.toNat) :
    (service.dispatch req).Returns fun r => ReplyForm req r.1 := by
  unfold PeripheralService.dispatch
  split
  · exact gpioConfig_form
  · exact keep_form gpioWrite_form
  · exact keep_form (gpioRead_form ‹_›)
  · exact keep_form uartWrite_form
  · exact keep_form (uartRead_form ‹_›)
  · exact keep_form i2cWrite_form
  · exact keep_form (i2cRead_form ‹_›)
  · exact keep_form (i2cWriteRead_form ‹_›)
  · exact spiTransfer_form ‹_› hdata
  · exact keep_form pwmSet_form
  · exact keep_form (ofStatus_after _)
  · exact keep_form (adcRead_form ‹_›)
  · exact returns_pure (.ofStatus req _)

end Replies

theorem reply_form (service : PeripheralService) (payload : Fin 28 → U8) :
    (service.reply (decodeRequest payload)).Returns fun r =>
      ReplyForm (decodeRequest payload) r.1 := by
  by_cases hlen : (decodeRequest payload).length ≤ 8
  · rw [reply_of_short hlen]
    exact dispatch_form (length_decodeRequest_data hlen)
  · rw [reply_of_long hlen]
    exact returns_pure (.ofStatus _ _)

theorem ofNat_leNat_storePayloadU32 (v : U32) :
    BitVec.ofNat 32 (leNat (storePayloadU32 v)) = v := by
  rw [Agent.leNat_storePayloadU32, BitVec.ofNat_toNat, BitVec.setWidth_eq]

theorem resultRecord_form {request : Message} {reply : PeriphReply}
    (h : ReplyForm (decodeRequest request.payload) reply) (hfits : reply.data.length ≤ 8) :
    ResultForm request
      (resultRecord request.sequence (decodeRequest request.payload).op reply) := by
  set record := resultRecord request.sequence (decodeRequest request.payload).op reply with hrecord
  have hsequence : recordWord record 0 = request.sequence := ofNat_leNat_storePayloadU32 _
  have hstatus : recordWord record 4 = BitVec.ofInt 32 reply.status := ofNat_leNat_storePayloadU32 _
  have hop : recordWord record 8 = (decodeRequest request.payload).op :=
    ofNat_leNat_storePayloadU32 _
  have hvalue : recordWord record 12 = reply.value := ofNat_leNat_storePayloadU32 _
  have hlength : recordWord record 16 = BitVec.ofNat 32 reply.data.length :=
    ofNat_leNat_storePayloadU32 _
  have hcount : (recordWord record 16).toNat = reply.data.length := by
    rw [hlength, BitVec.toNat_ofNat]
    omega
  refine ⟨length_resultRecord hfits _ _, hsequence, hop, ?_, ?_, fun i hi hpast => ?_, ?_,
    fun hne => ?_⟩
  · rw [BitVec.le_def, hcount]
    exact hfits
  · rw [hcount]
    exact h.requested
  · rw [hcount] at hpast
    set head := storePayloadU32 request.sequence ++
      storePayloadU32 (BitVec.ofInt 32 reply.status) ++
      storePayloadU32 (decodeRequest request.payload).op ++ storePayloadU32 reply.value ++
      storePayloadU32 (BitVec.ofNat 32 reply.data.length) with hhead
    have hsplit : record = head ++ (reply.data ++ List.replicate (8 - reply.data.length) 0) := rfl
    have htwenty : head.length = 20 := rfl
    rw [hsplit, List.getElem?_append_right (by omega), List.getElem?_append_right (by omega),
      List.getElem?_replicate, if_pos (by omega)]
  · rw [hop, hvalue]
    exact h.value
  · have hfailed : reply.status ≠ 0 := by
      intro hok
      rw [hstatus, hok] at hne
      exact hne rfl
    obtain ⟨hzero, hnil⟩ := h.failed hfailed
    rw [hvalue, hlength, hzero, hnil]
    exact ⟨rfl, rfl⟩

/-- A PERIPHERAL_REQUEST of 28 bytes is executed to the end and answered with a record of the right
form, whatever the state of the drivers and the values that the registers return. -/
theorem peripheral_result_well_formed (service : PeripheralService) (request : Message)
    (htype : request.type = msgPeripheralRequest) (hlength : request.length = 28)
    (reads : Stream' U32) :
    ∃ record, ((service.execute request).run reads).value.1 = some record ∧
      ResultForm request record := by
  have hform : ¬ (request.type ≠ msgPeripheralRequest ∨ request.length ≠ 28) := by
    simp [htype, hlength]
  have hreply := reply_form service request.payload reads
  have hfits := (reply_fits service request.payload reads).2
  rw [PeripheralService.execute, if_neg hform, run_bind]
  exact ⟨_, rfl, resultRecord_form hreply hfits⟩

def uartReadRequest : Message :=
  composeFrame 1 msgPeripheralRequest 9 28 (some (requestBytes PeriphOp.uartRead.code 5 3 0 []))

def uartService : PeripheralService :=
  ⟨none, some ⟨0xfeb80000, true⟩, none, none, none, none, none, none, false⟩

/-- Every read returns a line status with data, or the byte 0x21. -/
theorem peripheral_result_well_formed_uart :
    uartReadRequest.type = msgPeripheralRequest ∧ uartReadRequest.length = 28 ∧
      ∃ record, ((uartService.execute uartReadRequest).run (Stream'.const 0x21)).value.1 =
        some record ∧ ResultForm uartReadRequest record :=
  ⟨rfl, rfl, peripheral_result_well_formed uartService uartReadRequest rfl rfl _⟩

end Lzamp.System
