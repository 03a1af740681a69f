import Lzamp.Cpu3.Drain
import Lzamp.Mailmsg.Traffic

namespace Lzamp.Cpu3
open Mailmsg

variable {π : Type} {b : Build} {bk : Backend π} {p : Priority} {c c' : State π}

theorem transmit_shared (c : State π) (p : Priority) (type : U32) (payload : List U8) :
    (transmit c p type payload).2.shared =
      (endpointSend cpu3Notify c.b2a c.endpoint c.shared p type (some payload)
        (BitVec.ofNat 32 payload.length) SendResult.zero).shared := by
  unfold transmit State.recordTxFull
  dsimp only
  split_ifs <;> rfl

def Turn.state : Turn π → State π
  | .again c | .left c _ _ | .cpuOff c => c

/-- A turn of the drain loop after its receive. -/
def handleReceived (b : Build) (bk : Backend π) (p : Priority) (ret : Int) (request : Message)
    (c : State π) : Turn π :=
  if ret = ringOk then
    match handleRequest b bk c p request with
    | .cpuOff c => .cpuOff c
    | .done c => .again c
  else if ret = ringBadCrc ∨ ret = ringInvalid then .left (handleBadFrame c p ret request) true false
  else .left c false (ret = ringEmpty)

theorem drainTurn_eq (b : Build) (bk : Backend π) (p : Priority) (c : State π) :
    drainTurn b bk p c =
      handleReceived b bk p (endpointReceive c.endpoint c.shared p Message.zero).ret
        (endpointReceive c.endpoint c.shared p Message.zero).message
        (c.received (endpointReceive c.endpoint c.shared p Message.zero)) := rfl

theorem handleReceived_answers (b : Build) (bk : Backend π) (p : Priority) (ret : Int)
    (request : Message) (c : State π) :
    Emits (fun _ type _ => type = msgStopRefused → ret = ringOk ∧ p = prioCritical ∧
        request.type = msgStopRequest ∧ (request.length ≠ 0 ∨ b.stopControl = false))
      c (handleReceived b bk p ret request c).state := by
  unfold handleReceived
  split_ifs with hok hbad
  · cases hreq : handleRequest b bk c p request with
    | done c' => exact Emits.mono (handleRequest_done hreq) fun _ _ _ h htype => ⟨hok, h htype⟩
    | cpuOff c' =>
      exact Emits.mono (handleRequest_cpuOff hreq).1 fun _ _ _ h htype => ⟨hok, h htype⟩
  · exact emits_handleBadFrame fun _ heq => absurd heq (by decide)
  · exact .refl

theorem handleReceived_cpuOff {ret : Int} {request : Message} (hself : b.selfOffValue = none)
    (h : handleReceived b bk p ret request c = .cpuOff c') :
    ret = ringOk ∧ p = prioCritical ∧ request.type = msgStopRequest ∧ request.length = 0 := by
  unfold handleReceived at h
  split_ifs at h with hok hbad
  cases hreq : handleRequest b bk c p request with
  | done c₁ =>
    rw [hreq] at h
    cases h
  | cpuOff c₁ =>
    rcases (handleRequest_cpuOff hreq).2 with hoff | hstop
    · simp [isSelfOff, hself] at hoff
    · exact ⟨hok, hstop⟩

theorem Emits.grows {ok : Priority → U32 → List U8 → Prop} (h : Emits ok c c')
    (hrole : c.endpoint.Plays .cpu3) (q : Priority) :
    Ring.Grows (fun m => ∃ payload, ok q m.type payload ∧
        m.payload = copyPayload (some payload) (BitVec.ofNat 32 payload.length))
      (c.shared.cpu3ToLinux q) (c'.shared.cpu3ToLinux q) := by
  induction h with
  | refl => exact .refl _ _
  | @tail c₁ c₂ hca hab ih =>
    refine ih.trans ?_
    cases hab with
    | @send p type payload hok =>
      have hplays := (Emits.keepsRequests hca hrole).plays hrole
      rw [transmit_shared]
      refine (tx_endpointSend_grows cpu3Notify c₁.b2a c₁.endpoint c₁.shared p type (some payload) _
        SendResult.zero hplays q).mono fun m hm => ?_
      obtain ⟨rfl, rfl⟩ := hm
      exact ⟨payload, hok, rfl⟩
    | work _ hs => exact .of_eq _ (by rw [hs])

/-- A result is sent only for a good request of its kind, with what was made for that request. -/
structure ResultFor (bk : Backend π) (ret : Int) (request : Message) (type : U32)
    (payload : List U8) : Prop where
  peripheral : type = msgPeripheralResult → ret = ringOk ∧ request.type = msgPeripheralRequest ∧
    ∃ peripherals, (bk.execute peripherals request).1 = some payload
  gpioRead : type = msgGpioReadResult → ret = ringOk ∧ request.type = msgGpioReadRequest ∧
    ∃ line value, payload =
      storePayloadU32 request.sequence ++ storePayloadU32 line ++ storePayloadU32 value

theorem resultFor_other {ret : Int} {request : Message} {type : U32}
    (hperipheral : type ≠ msgPeripheralResult) (hgpio : type ≠ msgGpioReadResult)
    (payload : List U8) : ResultFor bk ret request type payload :=
  ⟨fun h => absurd h hperipheral, fun h => absurd h hgpio⟩

theorem handleReceived_emits (b : Build) (bk : Backend π) (p : Priority) (ret : Int)
    (request : Message) (c : State π) :
    Emits (fun q type payload => q = p ∧ ResultFor bk ret request type payload)
      c (handleReceived b bk p ret request c).state := by
  have hother : ∀ {type : U32} (payload : List U8), type ≠ msgPeripheralResult →
      type ≠ msgGpioReadResult → p = p ∧ ResultFor bk ret request type payload :=
    fun payload h h' => ⟨rfl, resultFor_other h h' payload⟩
  have hnack : ∀ reason, p = p ∧
      ResultFor bk ret request msgNack (feedback request.sequence reason) :=
    fun _ => hother _ (by decide) (by decide)
  have hack : p = p ∧ ResultFor bk ret request msgAck (feedback request.sequence 0) :=
    hother _ (by decide) (by decide)
  unfold handleReceived
  split_ifs with hok hbad
  · unfold handleRequest handleStopRequest
    dsimp only
    split_ifs with hstop hlength hcontrol hsent hself hperipheral hgpio
    · exact .single (.send ⟨hstop.1.symm, resultFor_other (by decide) (by decide) _⟩)
    · exact .single (.send ⟨hstop.1.symm, resultFor_other (by decide) (by decide) _⟩)
    · exact .single (.send ⟨hstop.1.symm, resultFor_other (by decide) (by decide) _⟩)
    · exact .single (.send ⟨hstop.1.symm, resultFor_other (by decide) (by decide) _⟩)
    · exact .refl
    · refine emits_handlePeripheralRequest bk hnack hack fun result hresult => ⟨rfl, ?_, ?_⟩
      · exact fun _ => ⟨hok, hperipheral, _, hresult⟩
      · exact fun h => absurd h (by decide)
    · refine emits_handleGpioReadRequest bk hnack hack fun line value => ⟨rfl, ?_, ?_⟩
      · exact fun h => absurd h (by decide)
      · exact fun _ => ⟨hok, hgpio, line, value, rfl⟩
    · exact emits_handleOther hack (fun payload => hother payload (by decide) (by decide))
        fun payload => hother payload (by decide) (by decide)
  · exact emits_handleBadFrame hnack
  · exact .refl

theorem boot_plays (shared : Shared) (b2a : Doorbells) (peripheralsReady : Bool)
    (peripherals : π) : (boot shared b2a peripheralsReady peripherals).endpoint.Plays .cpu3 :=
  endpointBind_plays (Or.inl rfl) shared

/-- SESSION_READY is the one frame CPU3 sends unasked. -/
theorem serviceSessionReady_emits (c : State π) :
    Emits (fun q type _ => q = prioCritical ∧ type = msgSessionReady) c (serviceSessionReady c) := by
  unfold serviceSessionReady
  dsimp only
  split_ifs
  · exact .refl
  · exact .single (.work rfl rfl)
  · exact .single (.send ⟨rfl, rfl⟩)
  · exact .tail (.single (.send ⟨rfl, rfl⟩)) (.work rfl rfl)

end Lzamp.Cpu3
