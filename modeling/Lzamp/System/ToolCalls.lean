import Lzamp.Cpu3.Replies
import Lzamp.System.RpcCodec
import Lzamp.System.StopAuthority

namespace Lzamp.System
open Mailmsg R1Amp Lib

/-- `execute_zephyr_peripheral` and `execute_zephyr_gpio_read`. -/
inductive ToolCall where
  | peripheral (operation arg0 arg1 arg2 : ℤ) (data : List U8)
  | gpioRead (line : ℤ)

namespace ToolCall

def request : ToolCall → Agent.Py (List U8)
  | .peripheral operation arg0 arg1 arg2 data =>
    Agent.packPeripheralFrame operation arg0 arg1 arg2 data
  | .gpioRead line => Agent.packFrame Agent.mailmsgPriorityControl 9 line

def requestType : ToolCall → U32
  | .peripheral .. => msgPeripheralRequest
  | .gpioRead .. => msgGpioReadRequest

def resultType : ToolCall → U32
  | .peripheral .. => msgPeripheralResult
  | .gpioRead .. => msgGpioReadResult

def execute : ToolCall → Agent.Host → Option (Agent.Py Agent.CallResult)
  | .peripheral operation arg0 arg1 arg2 data =>
    Agent.executePeripheral operation arg0 arg1 arg2 data
  | .gpioRead line => Agent.executeGpioRead line

/-- The requests that the ACK and the result that the call accepted were sent for. -/
def peers (call : ToolCall) (host : Agent.Host) : Option (ℕ × ℕ) :=
  match call with
  | .peripheral operation _ _ _ _ =>
    match Agent.exchange (Agent.peripheralReply operation) call.request host with
    | some (.ok (ack, result)) => some (ack.peerSequence, result.peerSequence)
    | _ => none
  | .gpioRead line =>
    match Agent.exchange (Agent.gpioReadReply line) call.request host with
    | some (.ok (ack, result)) => some (ack.peerSequence, result.peerSequence)
    | _ => none

end ToolCall

/-- The peripheral service of `main.c`, and what its reads of registers will return. -/
abbrev ServiceState := Cpu3.PeripheralService × Stream' U32

/-- `peripheral_service` and `gpio3_polling` behind the mailbox service. -/
def serviceBackend : Cpu3.Backend ServiceState where
  execute s request :=
    let r := (s.1.execute request).run s.2
    (r.value.1, r.value.2, r.rest)
  gpioGet s line :=
    let r := (Cpu3.gpio3Get s.1.gpio line).run s.2
    (if r.value.1 = Cpu3.gpio3Ok then some r.value.2 else none, s.1, r.rest)
  spiProfile s := s.1.spiProfile

/-- A site with one call of the agent: the number that the kernel gave its record, once it is
written, which the agent is not told, and what the passes of its loop met. -/
structure CallSite where
  site : Site ServiceState
  sequence : Option U32
  turns : List Agent.Turn

inductive CallAct where
  /-- Anything else on the site, the other processes on Linux included. -/
  | other (act : SiteAct ServiceState)
  | write (file : UserFile)
  /-- A pass that reads a record. -/
  | read (file : UserFile) (i : ℕ) (copyFault : Bool)
  /-- A pass that does not. -/
  | pass (turn : Agent.Turn)

def turnOf : ReadResult → Agent.Turn
  | .frame frame => .record (userFrameBytesOf frame)
  | .error errno => if errno = -eagain then .idle else .failed (-errno)
  | .block => .idle

/-- The write of a record that the device takes whole; any other ends the call. -/
def CallSite.write (cfg : Config) (call : ToolCall) (s : CallSite) (file : UserFile) :
    Option CallSite :=
  match call.request with
  | .error _ => none
  | .ok record =>
    let user := some (userFrameOfBytes record)
    if s.sequence.isSome ∨ file.channel ≠ prioControl ∨
        (mailmsgUserWrite record.length user file s.site.world.driver).1 ≠ userFrameBytes then none
    else (s.site.linux cfg (.userWrite file record.length user)).map fun site =>
      ⟨site, some (endpointNextSequence s.site.world.driver.endpoint).1, []⟩

def CallSite.read (cfg : Config) (s : CallSite) (file : UserFile) (i : ℕ) (copyFault : Bool) :
    Option CallSite :=
  if s.sequence.isNone ∨ file.channel ≠ prioControl then none
  else (s.site.linux cfg (.userReadTry file i true copyFault)).map fun site =>
    { s with
      site := site
      turns := s.turns ++
        [turnOf (mailmsgUserReadTry true copyFault file s.site.world.driver).1] }

def CallSite.pass (s : CallSite) (turn : Agent.Turn) : Option CallSite :=
  match turn with
  | .record _ => none
  | turn => some { s with turns := s.turns ++ [turn] }

def CallSite.step (cfg : Config) (b : Cpu3.Build) (call : ToolCall) (s : CallSite) :
    CallAct → Option CallSite
  | .other act => (s.site.step cfg b serviceBackend act).map fun site => { s with site := site }
  | .write file => s.write cfg call file
  | .read file i copyFault => s.read cfg file i copyFault
  | .pass turn => s.pass turn

def CallStep (cfg : Config) (b : Cpu3.Build) (call : ToolCall) (s : CallSite) (act : CallAct)
    (s' : CallSite) : Prop :=
  s.step cfg b call act = some s'

def CallSite.host (s : CallSite) (strerror : ℤ → String) : Agent.Host :=
  ⟨none, .ok userFrameBytes, s.turns, strerror⟩

def Phase.holds (type : U32) : Phase → Bool
  | .handling p ret request => p = prioControl ∧ ret = ringOk ∧ request.type = type
  | _ => false

/-- No request of the call's kind is under way on p1, and no result of its kind is left there. -/
structure Site.Clear (call : ToolCall) (s : Site ServiceState) : Prop where
  requests : ∀ m ∈ (s.world.driver.shared.linuxToCpu3 prioControl).contents,
    m.type ≠ call.requestType
  hand : s.phase.holds call.requestType = false
  replies : ∀ m ∈ (s.world.driver.shared.cpu3ToLinux prioControl).contents,
    m.type ≠ call.resultType

def writesRecord (type : U32) : Op → Bool
  | .userWrite file _ (some frame) => file.channel = prioControl ∧ frame.type = type
  | _ => false

/-- The call writes when p1 is clear of its kind, and from then on nobody else writes a request of
its kind to p1. -/
def Alone (call : ToolCall) (s : CallSite) : CallAct → Prop
  | .write _ => s.site.Clear call
  | .other (.linux op) => s.sequence.isSome → writesRecord call.requestType op = false
  | _ => True

instance (call : ToolCall) (s : Site ServiceState) : Decidable (s.Clear call) :=
  decidable_of_iff ((∀ m ∈ (s.world.driver.shared.linuxToCpu3 prioControl).contents,
      m.type ≠ call.requestType) ∧ s.phase.holds call.requestType = false ∧
    ∀ m ∈ (s.world.driver.shared.cpu3ToLinux prioControl).contents, m.type ≠ call.resultType)
    ⟨fun h => ⟨h.1, h.2.1, h.2.2⟩, fun h => ⟨h.requests, h.hand, h.replies⟩⟩

instance (call : ToolCall) (s : CallSite) (act : CallAct) : Decidable (Alone call s act) :=
  match act with
  | .write _ => inferInstanceAs (Decidable (s.site.Clear call))
  | .other (.linux op) =>
    inferInstanceAs (Decidable (s.sequence.isSome → writesRecord call.requestType op = false))
  | .other (.registers ..) | .other .shown | .other (.boot ..) | .other .sessionReady
  | .other (.receive _) | .other .handle | .other .off | .read .. | .pass _ => isTrue trivial

abbrev Site.controlRequests (s : Site ServiceState) : Ring :=
  s.world.driver.shared.linuxToCpu3 prioControl

abbrev Site.controlReplies (s : Site ServiceState) : Ring :=
  s.world.driver.shared.cpu3ToLinux prioControl

/-- Both sides hold their ends of the p1 rings. -/
structure Site.ControlSound (s : Site ServiceState) : Prop where
  linux : s.world.driver.endpoint.Plays .linux
  cpu3 : s.power = .on → s.cpu3.endpoint.Plays .cpu3
  requests : s.controlRequests.InRange
  replies : s.controlReplies.InRange

/-- A frame that CPU3 may send for the p1 frame it has in hand. -/
def Site.Answered (s : Site ServiceState) (m : Message) : Prop :=
  ∃ ret request payload, s.phase = .handling prioControl ret request ∧
    Cpu3.ResultFor serviceBackend ret request m.type payload ∧
    m.payload = copyPayload (some payload) (BitVec.ofNat 32 payload.length)

/-- What a step may do to p1: Linux adds frames that `sent` allows, CPU3 takes frames in hand and
answers the one it has. -/
structure ControlMoves (sent : Message → Prop) (s s' : Site ServiceState) : Prop where
  linux : s'.world.driver.endpoint.Plays .linux
  cpu3 : s'.power = .on → s'.cpu3.endpoint.Plays .cpu3
  requests : Ring.Grows sent s.controlRequests s'.controlRequests
  replies : Ring.Grows s.Answered s.controlReplies s'.controlReplies
  hand : ∀ request, s'.phase = .handling prioControl ringOk request →
    s.phase = .handling prioControl ringOk request ∨ request ∈ s.controlRequests.contents

theorem ControlMoves.sound {sent : Message → Prop} {s s' : Site ServiceState}
    (h : ControlMoves sent s s') (hs : s.ControlSound) : s'.ControlSound :=
  ⟨h.linux, h.cpu3, h.requests.inRange hs.requests, h.replies.inRange hs.replies⟩

section Moves

variable {cfg : Config} {b : Cpu3.Build} {s s' : Site ServiceState}

theorem ControlMoves.linux_step {op : Op} (hs : s.ControlSound) (h : s.linux cfg op = some s') :
    ControlMoves (op.Sends prioControl) s s' := by
  obtain ⟨hpeer, -, out, hexec, hafter, hcpu3, hphase, -⟩ := Site.linux_cases h
  have hon : s'.power = .on → s'.cpu3.endpoint.Plays .cpu3 := by
    intro hon
    rw [hcpu3]
    refine hs.cpu3 ?_
    unfold Power.after at hafter
    split_ifs at hafter with hlaunch hoff
    · rw [← Option.some.inj hafter] at hon
      cases hon
    · exact (Option.some.inj hafter).trans hon
  have hhand : ∀ request, s'.phase = .handling prioControl ringOk request →
      s.phase = .handling prioControl ringOk request ∨ request ∈ s.controlRequests.contents :=
    fun request hr => .inl (hphase.symm.trans hr)
  rcases exec_traffic hpeer hs.linux hexec with ht | ⟨-, hpage⟩
  · exact ⟨ht.plays, hon, ht.requests _, (ht.replies _).mono fun _ hf => hf.elim, hhand⟩
  · obtain ⟨generation, hshared⟩ := hpage.page
    have hrequests : s'.controlRequests = Ring.zero := by rw [Site.controlRequests, hshared]; rfl
    have hreplies : s'.controlReplies = Ring.zero := by rw [Site.controlReplies, hshared]; rfl
    exact ⟨hpage.plays, hon, hrequests ▸ .zero _ _, hreplies ▸ .zero _ _, hhand⟩

theorem ControlMoves.emits {ok : Priority → U32 → List U8 → Prop} {c : Cpu3.State ServiceState}
    {phase : Phase} (hs : s.ControlSound) (hon : s.power = .on) (h : Cpu3.Emits ok s.core c)
    (hok : ∀ type payload, ok prioControl type payload → ∃ ret request,
      s.phase = .handling prioControl ret request ∧
        Cpu3.ResultFor serviceBackend ret request type payload)
    (hphase : ∀ request, phase ≠ .handling prioControl ringOk request) :
    ControlMoves (fun _ => False) s (s.ran c phase) := by
  have hplays : s.core.endpoint.Plays .cpu3 := hs.cpu3 hon
  have hkeeps := Cpu3.Emits.keepsRequests h hplays
  refine ⟨hs.linux, fun _ => hkeeps.plays hplays, .of_eq _ (congrFun hkeeps.requests prioControl),
    (Cpu3.Emits.grows h hplays prioControl).mono ?_, fun request hr => absurd hr (hphase request)⟩
  rintro m ⟨payload, hpayload, hm⟩
  obtain ⟨ret, request, hhand, hresult⟩ := hok _ _ hpayload
  exact ⟨ret, request, payload, hhand, hresult, hm⟩

theorem ControlMoves.receive (hs : s.ControlSound) (hon : s.power = .on) (p : Priority) :
    ControlMoves (fun _ => False) s
      (s.ran (s.core.received (endpointReceive s.core.endpoint s.core.shared p Message.zero))
        (.handling p (endpointReceive s.core.endpoint s.core.shared p Message.zero).ret
          (endpointReceive s.core.endpoint s.core.shared p Message.zero).message)) := by
  have hplays : s.core.endpoint.Plays .cpu3 := hs.cpu3 hon
  refine ⟨hs.linux, fun _ => ?_, ?_, ?_, fun request hr => .inr ?_⟩
  · exact hplays.of_identity (endpointReceive_identity _ _ _ _)
  · exact rx_endpointReceive_grows hplays s.core.shared p Message.zero prioControl
  · exact .of_eq _ (congrFun (tx_endpointReceive hplays s.core.shared p Message.zero) prioControl)
  · simp only [Site.ran, Phase.handling.injEq] at hr
    obtain ⟨rfl, hret, rfl⟩ := hr
    exact endpointReceive_mem hplays s.core.shared prioControl Message.zero hs.requests hret

/-- The frames that a step may add to the p1 request ring. -/
def SiteAct.SendsControl : SiteAct ServiceState → Message → Prop
  | .linux op => op.Sends prioControl
  | _ => fun _ => False

theorem ControlMoves.of_same {sent : Message → Prop}
    (hs : s.ControlSound) (hworld : s'.world.driver.endpoint = s.world.driver.endpoint)
    (hshared : s'.world.driver.shared = s.world.driver.shared)
    (hcpu3 : s'.power = .on → s'.cpu3.endpoint.Plays .cpu3)
    (hphase : s'.phase = s.phase ∨ s'.phase = .idle) : ControlMoves sent s s' := by
  refine ⟨hworld ▸ hs.linux, hcpu3, .of_eq _ (by rw [Site.controlRequests, hshared]),
    .of_eq _ (by rw [Site.controlReplies, hshared]), fun request hr => .inl ?_⟩
  rcases hphase with hp | hp
  · exact hp.symm.trans hr
  · rw [hp] at hr
    cases hr

theorem SiteStep.controlMoves {act : SiteAct ServiceState} (hs : s.ControlSound)
    (h : SiteStep cfg b serviceBackend s act s') : ControlMoves act.SendsControl s s' := by
  unfold SiteStep Site.step at h
  cases act with
  | linux op => exact .linux_step hs h
  | registers a2bStatus b2a =>
    cases h
    exact .of_same hs rfl rfl hs.cpu3 (.inl rfl)
  | shown =>
    dsimp only at h
    split_ifs at h
    cases h
    exact .of_same hs rfl rfl nofun (.inl rfl)
  -- a boot forgets the frame in hand; the rings are Linux's to clear
  | boot peripheralsReady peripherals =>
    dsimp only at h
    split_ifs at h
    cases h
    exact .of_same hs rfl rfl (fun _ => Cpu3.boot_plays _ _ _ _) (.inr rfl)
  | sessionReady =>
    dsimp only at h
    split_ifs at h with hguard
    cases h
    exact .emits hs hguard.1 (Cpu3.serviceSessionReady_emits s.core)
      (fun type payload hok => absurd hok.1 (by decide)) nofun
  | receive p =>
    dsimp only at h
    split_ifs at h with hguard
    cases h
    exact .receive hs hguard.1 p
  | handle =>
    dsimp only at h
    split at h
    case h_1 p ret request hphase =>
      split_ifs at h with hon
      have hemits := Cpu3.handleReceived_emits b serviceBackend p ret request s.core
      -- whatever is put on the control ring here answers the frame in hand
      have hok : ∀ type payload, prioControl = p ∧
          Cpu3.ResultFor serviceBackend ret request type payload → ∃ ret request,
            s.phase = .handling prioControl ret request ∧
              Cpu3.ResultFor serviceBackend ret request type payload := by
        rintro type payload ⟨rfl, hresult⟩
        exact ⟨ret, request, hphase, hresult⟩
      split at h
      case h_1 c hc =>
        cases h
        rw [hc] at hemits
        exact .emits hs hon hemits hok nofun
      case h_2 c hc | h_3 c _ _ hc =>
        cases h
        rw [hc] at hemits
        exact .emits hs hon hemits hok nofun
    case h_2 => cases h
  | off =>
    dsimp only at h
    split at h
    · split_ifs at h
      cases h
      exact .of_same hs rfl rfl nofun (.inr rfl)
    · cases h

end Moves

theorem copyPayload_eq_payloadOf {l : List U8} (h : l.length < 2 ^ 32) :
    copyPayload (some l) (BitVec.ofNat 32 l.length) = payloadOf l := by
  funext i
  rw [copyPayload, BitVec.toNat_ofNat, Nat.mod_eq_of_lt h]
  split_ifs with hi
  · rfl
  · have hpast : l[i.val]? = none := List.getElem?_eq_none (by omega)
    rw [payloadOf, List.getD_eq_getElem?_getD, hpast]
    rfl

theorem payloadU32_copyPayload {v : U32} {rest : List U8}
    (h : (storePayloadU32 v ++ rest).length < 2 ^ 32) :
    payloadU32 (copyPayload (some (storePayloadU32 v ++ rest))
      (BitVec.ofNat 32 (storePayloadU32 v ++ rest).length)) 0 = v := by
  rw [copyPayload_eq_payloadOf h, payloadU32_payloadOf _ (by decide)]
  refine Eq.trans ?_ (ofNat_leNat_leBytes v)
  rw [← Agent.storePayloadU32_eq]
  rfl

theorem serviceBackend_execute {s : ServiceState} {request : Message} {payload : List U8}
    (h : (serviceBackend.execute s request).1 = some payload) :
    ∃ rest, payload = storePayloadU32 request.sequence ++ rest ∧ payload.length = 28 := by
  have hfits := (reply_fits s.1 request.payload s.2).2
  simp only [serviceBackend, Cpu3.PeripheralService.execute] at h
  split_ifs at h with hform
  · cases h
  · rw [Bus.run_bind] at h
    cases h
    have hlength := length_resultRecord hfits request.sequence (Cpu3.decodeRequest request.payload).op
    exact ⟨_, (List.take_append_drop 4 (Cpu3.resultRecord _ _ _)).symm, hlength⟩

theorem resultFor_sequence {call : ToolCall} {ret : Int} {request : Message} {payload : List U8}
    (h : Cpu3.ResultFor serviceBackend ret request call.resultType payload) :
    ret = ringOk ∧ request.type = call.requestType ∧
      payloadU32 (copyPayload (some payload) (BitVec.ofNat 32 payload.length)) 0 =
        request.sequence := by
  cases call with
  | peripheral =>
    obtain ⟨hret, htype, state, hresult⟩ := h.peripheral rfl
    obtain ⟨rest, rfl, hlength⟩ := serviceBackend_execute hresult
    exact ⟨hret, htype, payloadU32_copyPayload (by rw [hlength]; decide)⟩
  | gpioRead =>
    obtain ⟨hret, htype, line, value, rfl⟩ := h.gpioRead rfl
    refine ⟨hret, htype, ?_⟩
    rw [List.append_assoc]
    have hlength : (storePayloadU32 request.sequence ++
        (storePayloadU32 line ++ storePayloadU32 value)).length = 12 := rfl
    exact payloadU32_copyPayload (by rw [hlength]; decide)

/-- Every request and every result of the call's kind on p1 is for the record that got
`sequence`. -/
structure Site.Own (call : ToolCall) (sequence : U32) (s : Site ServiceState) : Prop where
  requests : ∀ m ∈ s.controlRequests.contents, m.type = call.requestType → m.sequence = sequence
  hand : ∀ request, s.phase = .handling prioControl ringOk request →
    request.type = call.requestType → request.sequence = sequence
  replies : ∀ m ∈ s.controlReplies.contents, m.type = call.resultType →
    payloadU32 m.payload 0 = sequence

theorem Site.Own.moves {call : ToolCall} {sequence : U32} {sent : Message → Prop}
    {s s' : Site ServiceState} (h : s.Own call sequence) (hs : s.ControlSound)
    (hmoves : ControlMoves sent s s')
    (hsent : ∀ m, sent m → m.type = call.requestType → m.sequence = sequence) :
    s'.Own call sequence where
  requests := hmoves.requests.forall_mem hs.requests h.requests hsent
  hand request hr htype := by
    rcases hmoves.hand request hr with hhand | hmem
    · exact h.hand request hhand htype
    · exact h.requests request hmem htype
  replies := by
    refine hmoves.replies.forall_mem hs.replies h.replies ?_
    rintro m ⟨ret, request, payload, hphase, hresult, hpayload⟩ htype
    rw [htype] at hresult
    obtain ⟨rfl, hrequest, hword⟩ := resultFor_sequence hresult
    rw [hpayload, hword]
    exact h.hand request hphase hrequest

theorem Site.Clear.write {cfg : Config} {call : ToolCall} {s s' : Site ServiceState}
    {file : UserFile} {count : ℕ} {frame : Option UserFrame} (h : s.Clear call)
    (hs : s.ControlSound) (hlinux : s.linux cfg (.userWrite file count frame) = some s') :
    s'.Own call (endpointNextSequence s.world.driver.endpoint).1 := by
  have hmoves := ControlMoves.linux_step hs hlinux
  obtain ⟨-, -, out, hexec, -⟩ := Site.linux_cases hlinux
  have hwrite : Traffic (fun _ m => m.sequence =
      (endpointNextSequence s.world.driver.endpoint).1) s.world.driver s'.world.driver := by
    simp only [exec, execFile] at hexec
    split_ifs at hexec
    obtain ⟨-, hw⟩ := Prod.mk.inj (Option.some.inj hexec)
    rw [← hw]
    exact (traffic_userWrite hs.linux count frame file).mono fun _ _ hm => hm.2
  refine ⟨?_, ?_, ?_⟩
  · refine (hwrite.requests prioControl).forall_mem hs.requests ?_ fun m hm _ => hm
    exact fun m hm htype => absurd htype (h.requests m hm)
  · intro request hr htype
    rcases hmoves.hand request hr with hhand | hmem
    · have hholds : s.phase.holds call.requestType = true := by
        rw [hhand]
        exact decide_eq_true ⟨rfl, rfl, htype⟩
      rw [h.hand] at hholds
      cases hholds
    · exact absurd htype (h.requests request hmem)
  · refine (hwrite.replies prioControl).forall_mem hs.replies ?_ fun _ hf => hf.elim
    exact fun m hm htype => absurd htype (h.replies m hm)

theorem unpackFrame_fields {m : Message} {frame : Agent.Frame}
    (h : Agent.unpackFrame (userFrameBytesOf (userFrame prioControl m)) = .ok frame) :
    frame.type = m.type.toNat ∧
      (4 ≤ frame.length → Agent.unpackU32 frame.payload 0 = (payloadU32 m.payload 0).toNat) := by
  have hword (v : U32) : leNat (leBytes 4 v.toNat) = v.toNat := by
    rw [leNat_leBytes]
    exact Nat.mod_eq_of_lt v.isLt
  have htype : Agent.unpackU32 (userFrameBytesOf (userFrame prioControl m)) 4 = m.type.toNat :=
    hword m.type
  have hlength : Agent.unpackU32 (userFrameBytesOf (userFrame prioControl m)) 12 =
      m.length.toNat := hword m.length
  have hpayload : (userFrameBytesOf (userFrame prioControl m)).drop 16 =
      List.ofFn (userFrame prioControl m).payload := rfl
  unfold Agent.unpackFrame at h
  dsimp only at h
  split_ifs at h
  · cases h
  · cases h
  · cases h
  · cases h
    refine ⟨htype, fun hle => ?_⟩
    dsimp only at hle ⊢
    rw [hlength] at hle ⊢
    rw [hpayload, Agent.unpackU32, List.drop_zero, List.take_take, Nat.min_eq_left hle]
    have hbyte (i : ℕ) (hi : i < 4) : (userFrame prioControl m).payload ⟨i, by omega⟩ =
        m.payload ⟨i, by omega⟩ := by
      simp only [userFrame]
      rw [dif_pos (by omega), if_pos (by omega)]
    have hfour : (List.ofFn (userFrame prioControl m).payload).take 4 =
        [(userFrame prioControl m).payload ⟨0, by omega⟩,
          (userFrame prioControl m).payload ⟨1, by omega⟩,
          (userFrame prioControl m).payload ⟨2, by omega⟩,
          (userFrame prioControl m).payload ⟨3, by omega⟩] := rfl
    rw [hfour, hbyte 0 (by omega), hbyte 1 (by omega), hbyte 2 (by omega), hbyte 3 (by omega),
      ← toNat_or_shifts]
    rfl

/-- Every record that the call read is a frame of p1, and a result of its kind among them is for the
record that got `sequence`. -/
def CallSite.ReadsOwn (call : ToolCall) (sequence : U32) (s : CallSite) : Prop :=
  ∀ data, .record data ∈ s.turns → ∃ m, data = userFrameBytesOf (userFrame prioControl m) ∧
    (m.type = call.resultType → payloadU32 m.payload 0 = sequence)

structure CallInv (call : ToolCall) (s : CallSite) : Prop where
  sound : s.site.ControlSound
  own : ∀ sequence, s.sequence = some sequence → s.site.Own call sequence
  reads : ∀ sequence, s.sequence = some sequence → s.ReadsOwn call sequence

theorem sends_other {call : ToolCall} {op : Op} (h : writesRecord call.requestType op = false)
    {m : Message} (hm : op.Sends prioControl m) : m.type ≠ call.requestType := by
  have hping : msgPing ≠ call.requestType := by
    cases call with
    | peripheral => exact (by decide : msgPing ≠ msgPeripheralRequest)
    | gpioRead => exact (by decide : msgPing ≠ msgGpioReadRequest)
  cases op with
  | userWrite file count frame =>
    obtain ⟨f, rfl, hchannel, htype⟩ := hm
    intro heq
    have hwrites : writesRecord call.requestType (.userWrite file count (some f)) = true :=
      decide_eq_true ⟨hchannel.symm, htype.symm.trans heq⟩
    rw [h] at hwrites
    cases hwrites
  | stopStore => exact absurd hm (by decide : prioControl ≠ prioCritical)
  | mailmsgPing | mailmsgCrcInject | mailmsgQueuePush =>
    rw [show m.type = msgPing from hm]
    exact hping
  | _ => exact hm.elim

theorem mailmsgUserReadTry_mem {file : UserFile} (hchannel : file.channel = prioControl)
    {copyFault : Bool} {d : Driver} (hplays : d.endpoint.Plays .linux)
    (hr : (d.shared.cpu3ToLinux prioControl).InRange) {frame : UserFrame}
    (h : (mailmsgUserReadTry true copyFault file d).1 = .frame frame) :
    ∃ m ∈ (d.shared.cpu3ToLinux prioControl).contents, frame = userFrame prioControl m := by
  have hdispatch {ret : Int} {message : Message}
      (h : userReadDispatch true copyFault file.channel ret message = .frame frame) :
      ret = 0 ∧ frame = userFrame prioControl message := by
    unfold userReadDispatch at h
    split_ifs at h with hret
    cases h
    exact ⟨hret, by rw [hchannel]⟩
  unfold mailmsgUserReadTry at h
  dsimp only at h
  split_ifs at h with hgate
  · exact absurd (hdispatch h).1 hgate
  · obtain ⟨hret, hframe⟩ := hdispatch h
    rw [hchannel] at hret hframe
    exact ⟨_, endpointReceive_mem hplays d.shared prioControl Message.zero hr hret, hframe⟩

theorem CallInv.step {cfg : Config} {b : Cpu3.Build} {call : ToolCall} {s s' : CallSite}
    {act : CallAct} (hs : CallInv call s) (halone : Alone call s act)
    (h : CallStep cfg b call s act s') : CallInv call s' := by
  unfold CallStep CallSite.step at h
  cases act with
  | other act =>
    obtain ⟨site, hstep, rfl⟩ := Option.map_eq_some_iff.mp h
    have hmoves := SiteStep.controlMoves hs.sound hstep
    refine ⟨hmoves.sound hs.sound, fun sequence hq => ?_, hs.reads⟩
    refine (hs.own sequence hq).moves hs.sound hmoves fun m hm htype => ?_
    cases act with
    -- nobody else writes a record of this type while the call is outstanding
    | linux op => exact absurd htype (sends_other (halone (by rw [hq]; rfl)) hm)
    | _ => exact hm.elim
  | write file =>
    dsimp only [CallSite.write] at h
    split at h
    · cases h
    · split_ifs at h
      obtain ⟨site, hlinux, rfl⟩ := Option.map_eq_some_iff.mp h
      refine ⟨(ControlMoves.linux_step hs.sound hlinux).sound hs.sound, fun sequence hq => ?_,
        fun _ _ _ hmem => by cases hmem⟩
      cases hq
      exact Site.Clear.write halone hs.sound hlinux
  | read file i copyFault =>
    dsimp only [CallSite.read] at h
    split_ifs at h with hguard
    obtain ⟨site, hlinux, rfl⟩ := Option.map_eq_some_iff.mp h
    have hmoves := ControlMoves.linux_step hs.sound hlinux
    refine ⟨hmoves.sound hs.sound, fun sequence hq => ?_, fun sequence hq data hdata => ?_⟩
    · exact (hs.own sequence hq).moves hs.sound hmoves fun m hm => hm.elim
    · rcases List.mem_append.mp hdata with hdata | hdata
      · exact hs.reads sequence hq data hdata
      · have hturn := List.mem_singleton.mp hdata
        unfold turnOf at hturn
        split at hturn
        · rename_i frame hframe
          push Not at hguard
          -- what the read hands over was the first frame of the reply ring
          obtain ⟨m, hm, rfl⟩ :=
            mailmsgUserReadTry_mem hguard.2 hs.sound.linux hs.sound.replies hframe
          cases hturn
          exact ⟨m, rfl, (hs.own sequence hq).replies m hm⟩
        · split_ifs at hturn
        · cases hturn
  | pass turn =>
    change s.pass turn = some s' at h
    unfold CallSite.pass at h
    split at h
    · cases h
    rename_i ht
    cases h
    refine ⟨hs.sound, hs.own, fun sequence hq data hdata => ?_⟩
    rcases List.mem_append.mp hdata with hdata | hdata
    · exact hs.reads sequence hq data hdata
    · exact absurd (List.mem_singleton.mp hdata).symm (ht data)

def gpioService : Cpu3.PeripheralService :=
  ⟨some ⟨0, 0, true, 0⟩, none, none, none, none, none, none, none, false⟩

def darkCallSite : CallSite :=
  ⟨⟨probedWorld, .off, Cpu3.boot Shared.zero ⟨0, fun _ => 0, fun _ => 0⟩ false
    (gpioService, fun _ => 0), .idle, []⟩, none, []⟩

/-- Upload, start, SESSION_READY; line 25 will be sampled low first, and high from then on. -/
def callSiteUp : List CallAct :=
  [.other (.linux (.imageWrite 0 [1, 2, 3, 4])),
    .other (.linux (.startStore true 5 affinityOff 0 100)), .other .shown,
    .other (.boot true (gpioService, fun n => if n = 0 then 0 else 0x2000000)),
    .other .sessionReady, .other (.linux (.controlWork 200 (fun _ => 200) 1))]

def p1File (id : ℕ) (claimed : Bool) (reads : List ReadPhase) : UserFile :=
  ⟨id, prioControl, claimed, reads⟩

def agentRead (claimed : Bool) : List CallAct :=
  [.other (.linux (.userReadEnter (p1File 2 claimed []) userFrameBytes)),
    .other (.linux (.userReadSample (p1File 2 true [.entered]) 0)),
    .read (p1File 2 true [.sampled 0]) 0 false]

def serveControl : List CallAct := [.other (.receive prioControl), .other .handle]

def firstCall : List CallAct :=
  callSiteUp ++ [.other (.linux (.userOpen 2 prioControl true)), .write (p1File 2 false [])] ++
    serveControl ++ agentRead false ++ agentRead true

/-- An earlier call wrote its record and gave up before CPU3 answered. -/
def secondCall : List CallAct :=
  callSiteUp ++ [.other (.linux (.userOpen 1 prioControl true)),
    .other (.linux (.userWrite (p1File 1 false []) userFrameBytes
      (some ⟨1, msgGpioReadRequest, 0, 4, fun i => if i = 0 then 25 else 0⟩))),
    .other (.linux (.userRelease (p1File 1 false [])))] ++ serveControl ++
    [.other (.linux (.userOpen 2 prioControl true)), .write (p1File 2 false [])] ++
    agentRead false ++ agentRead true

def reports (call : ToolCall) (sequence : U32) (peers : ℕ × ℕ) (value : ℕ) (s : CallSite) : Bool :=
  s.sequence = some sequence && call.peers (s.host fun _ => "") = some peers &&
    match call.execute (s.host fun _ => "") with
    | some (.ok r) => r.value = value
    | _ => false

theorem reports_spec {call : ToolCall} {sequence : U32} {peers : ℕ × ℕ} {value : ℕ} {s : CallSite}
    (h : reports call sequence peers value s = true) :
    s.sequence = some sequence ∧ call.peers (s.host fun _ => "") = some peers ∧
      ∃ r, call.execute (s.host fun _ => "") = some (.ok r) ∧ r.value = value := by
  simp only [reports, Bool.and_eq_true, decide_eq_true_eq] at h
  obtain ⟨⟨hsequence, hpeers⟩, hvalue⟩ := h
  refine ⟨hsequence, hpeers, ?_⟩
  split at hvalue
  · rename_i r hr
    exact ⟨r, hr, of_decide_eq_true hvalue⟩
  · cases hvalue

theorem controlSound_dark : darkCallSite.site.ControlSound :=
  ⟨.inl rfl, nofun, by decide, by decide⟩

theorem exchange_host {ρ : Type} {kind : Agent.ReplyKind ρ} {request : Agent.Py (List U8)}
    {s : CallSite} {strerror : ℤ → String} {r : Agent.Ack × ρ}
    (h : Agent.exchange kind request (s.host strerror) = some (.ok r)) :
    Agent.awaitReplies kind ⟨none, none⟩ s.turns = some (.ok r) := by
  unfold Agent.exchange CallSite.host at h
  dsimp only at h
  cases request with
  | error e => cases h
  | ok record => exact h

theorem CallSite.ReadsOwn.replies {call : ToolCall} {sequence : U32} {s : CallSite}
    (h : s.ReadsOwn call sequence) {ρ : Type} {kind : Agent.ReplyKind ρ} (peer : ρ → ℕ)
    (finish : Agent.Ack → ρ → Agent.Py Agent.CallResult) {request : Agent.Py (List U8)}
    {strerror : ℤ → String} {r : Agent.CallResult}
    (hkind : kind.resultType = call.resultType.toNat)
    (haccept : ∀ frame result, kind.accept frame = .ok result →
      4 ≤ frame.length ∧ peer result = Agent.unpackU32 frame.payload 0)
    (hfinish : ∀ ack result r, finish ack result = .ok r →
      ack.peerSequence = peer result ∧ r.ackPeerSequence = ack.peerSequence)
    (hr : (Agent.exchange kind request (s.host strerror)).map (fun x => x >>= fun y =>
      finish y.1 y.2) = some (.ok r)) :
    ∃ ack result, Agent.exchange kind request (s.host strerror) = some (.ok (ack, result)) ∧
      ack.peerSequence = sequence.toNat ∧ peer result = sequence.toNat ∧
      r.ackPeerSequence = sequence.toNat := by
  obtain ⟨x, hx, hbind⟩ := Option.map_eq_some_iff.mp hr
  obtain ⟨⟨ack, result⟩, hok, hlast⟩ := PyText.bind_eq_ok.mp hbind
  rw [hok] at hx
  have hpeer : peer result = sequence.toNat := by
    refine Agent.awaitReplies_result (P := fun result => peer result = sequence.toNat) ?_
      (fun _ hmem => by cases hmem) (exchange_host hx)
    intro data frame result hmem hunpack htype hresult
    obtain ⟨m, rfl, hm⟩ := h data hmem
    obtain ⟨hframe, hword⟩ := unpackFrame_fields hunpack
    obtain ⟨hlength, hsame⟩ := haccept frame result hresult
    have hmtype : m.type = call.resultType :=
      BitVec.eq_of_toNat_eq (hframe.symm.trans (htype.trans hkind))
    rw [hsame, hword hlength, hm hmtype]
  obtain ⟨hack, hreported⟩ := hfinish ack result r hlast
  exact ⟨ack, result, hx, hack.trans hpeer, hpeer, hreported.trans (hack.trans hpeer)⟩

/-- A call that writes its record when p1 is clear of its kind, and that has no competitor, reports
the result of its own request. -/
theorem tool_result_of_own_request {cfg : Config} {b : Cpu3.Build} {call : ToolCall}
    {s : Site ServiceState} (hs : s.ControlSound) {acts : List CallAct} {t : CallSite}
    (h : Trace (fun s act s' => Alone call s act ∧ CallStep cfg b call s act s')
      ⟨s, none, []⟩ acts t)
    {sequence : U32} (hsequence : t.sequence = some sequence) (strerror : ℤ → String)
    {r : Agent.CallResult} (hr : call.execute (t.host strerror) = some (.ok r)) :
    call.peers (t.host strerror) = some (sequence.toNat, sequence.toNat) ∧
      r.ackPeerSequence = sequence.toNat := by
  have hinv : CallInv call t := by
    refine Trace.invariant (fun _ _ _ hs hstep => hs.step hstep.1 hstep.2) h ?_
    exact ⟨hs, nofun, nofun⟩
  have hreads := hinv.reads sequence hsequence
  cases call with
  | peripheral operation arg0 arg1 arg2 data =>
    have haccept : ∀ frame result, (Agent.peripheralReply operation).accept frame = .ok result →
        4 ≤ frame.length ∧ result.peerSequence = Agent.unpackU32 frame.payload 0 := by
      intro frame result h
      obtain ⟨hlength, hword⟩ := Agent.acceptPeripheral_peer h
      exact ⟨by omega, hword⟩
    obtain ⟨ack, result, hx, hack, hresult, hreported⟩ := hreads.replies (·.peerSequence)
      Agent.finishPeripheral rfl haccept (fun _ _ _ => Agent.finishPeripheral_peer) hr
    refine ⟨?_, hreported⟩
    simp only [ToolCall.peers, ToolCall.request]
    rw [hx]
    dsimp only
    rw [hack, hresult]
  | gpioRead line =>
    have haccept : ∀ frame result, (Agent.gpioReadReply line).accept frame = .ok result →
        4 ≤ frame.length ∧ result.peerSequence = Agent.unpackU32 frame.payload 0 := by
      intro frame result h
      obtain ⟨hlength, hword⟩ := Agent.acceptGpioRead_peer h
      exact ⟨by omega, hword⟩
    change Agent.executeGpioRead line _ = _ at hr
    unfold Agent.executeGpioRead at hr
    split_ifs at hr
    · obtain ⟨ack, result, hx, hack, hresult, hreported⟩ := hreads.replies (·.peerSequence)
        Agent.finishGpioRead rfl haccept (fun _ _ _ => Agent.finishGpioRead_peer) hr
      refine ⟨?_, hreported⟩
      simp only [ToolCall.peers, ToolCall.request]
      rw [hx]
      dsimp only
      rw [hack, hresult]
    · cases Option.some.inj hr

/-- The result that the first call of a session reports is that of its request, number 1. -/
theorem tool_result_of_first_call : ∃ t, Trace (fun s act s' => Alone (.gpioRead 25) s act ∧
      CallStep board Cpu3.image (.gpioRead 25) s act s') darkCallSite firstCall t ∧
    ∃ r, (ToolCall.gpioRead 25).execute (t.host fun _ => "") = some (.ok r) ∧
      r.ackPeerSequence = 1 := by
  obtain ⟨t, htrace, htest⟩ := Trace.exists_of_guarded
    (CallSite.step board Cpu3.image (.gpioRead 25)) (Alone (.gpioRead 25)) darkCallSite firstCall
    (reports (.gpioRead 25) 1 (1, 1) 0) (by decide +kernel)
  obtain ⟨hsequence, -, r, hr, -⟩ := reports_spec htest
  exact ⟨t, htrace, r, hr,
    (tool_result_of_own_request controlSound_dark htrace hsequence (fun _ => "") hr).2⟩

/-- A call whose record is number 2 reports the sample of number 1, which an earlier call asked for
and did not wait for.  CPU3 has not even looked at number 2. -/
theorem tool_result_of_earlier_request : ∃ t,
    Trace (CallStep board Cpu3.image (.gpioRead 25)) darkCallSite secondCall t ∧
    t.sequence = some 2 ∧ (ToolCall.gpioRead 25).peers (t.host fun _ => "") = some (1, 1) ∧
    ∃ r, (ToolCall.gpioRead 25).execute (t.host fun _ => "") = some (.ok r) ∧ r.value = 0 := by
  obtain ⟨t, htrace, htest⟩ := Trace.exists_of_foldlM
    (CallSite.step board Cpu3.image (.gpioRead 25)) darkCallSite secondCall
    (reports (.gpioRead 25) 2 (1, 1) 0) (by decide +kernel)
  obtain ⟨hsequence, hpeers, hr⟩ := reports_spec htest
  exact ⟨t, htrace, hsequence, hpeers, hr⟩

end Lzamp.System
