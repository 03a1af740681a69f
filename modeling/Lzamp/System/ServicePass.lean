import Lzamp.Cpu3.Desk
import Lzamp.System.SessionAgreement
import Lzamp.System.ToolCalls

namespace Lzamp.System
open Mailmsg Lib R1Amp

variable {π : Type} {cfg : Config} {b : Cpu3.Build} {bk : Cpu3.Backend π} {s s' : Site π}
  {acts : List (CutAct π)}

theorem Agrees.inSession {damaged : Prop} {s : Site π} (h : Agrees damaged s)
    (hon : s.power = .on) : Cpu3.InSession damaged s.generation s.core :=
  ⟨h.page (by rw [hon]; decide), h.bound hon⟩

/-- Each request gets the answer that the request and the peripherals call for, in order, an answer
that finds seven others waiting is lost, and only a damaged frame, the quota of seven or a stop
whose STOP_READY is out leaves requests behind. -/
theorem service_pass_on_lists (hfits : bk.Fits) (hs : s.Start)
    (h : Trace (fun s act s' => s.NoEarlyRearm act ∧ CutStep cfg b bk s act s') s acts s')
    (hon : s'.power = .on) (hready : s'.core.endpointReady = true)
    (hpublished : b.skipSessionReady = true ∨ s'.core.sessionReadyPublished = true)
    (pending lastPriority : U32) :
    (Cpu3.pingpongTestService b bk pending lastPriority s'.core).desk =
      s'.core.desk.pass b bk s'.core.peripheralsReady pending [0, 1, 2, 3] :=
  Cpu3.pingpongTestService_eq_pass b hfits ((hs.agrees_cut h).inSession hon) hready hpublished
    pending lastPriority

theorem serviceBackend_fits : serviceBackend.Fits := by
  intro x m payload h
  obtain ⟨rest, -, hlength⟩ := serviceBackend_execute h
  exact hlength.le

def configRecord : UserFrame where
  priority := 1
  type := msgPeripheralRequest
  sequence := 0
  length := 28
  payload i := if i.val = 0 then 1 else if i.val = 4 then 25 else if i.val = 8 then 1
    else if i.val = 12 then 1 else 0

/-- Both sides come up, and user space writes the request to the p1 device. -/
def configWritten : List (CutAct ServiceState) :=
  [.site (.linux (.imageWrite 0 [1, 2, 3, 4])), .start true 5 affinityOff 0 100 [] [], .site .shown,
    .site (.boot true (gpioService, fun _ => 0)), .site .sessionReady,
    .site (.linux (.controlWork 200 (fun _ => 200) 1)), .site (.linux (.userOpen 1 1 true)),
    .site (.linux (.userWrite controlFile userFrameBytes (some configRecord)))]

theorem darkCallSite_start : darkCallSite.site.Start := ⟨probedWorld_probed, rfl, rfl⟩

def drivenLines (d : Cpu3.Desk ServiceState) : Option U32 := d.peripherals.1.gpio.map (·.outputMask)

def hasRequest (s : Site ServiceState) : Bool :=
  s.power = .on && s.core.endpointReady && s.core.sessionReadyPublished &&
    (s.core.desk.requests 1).length = 1

/-- The request is executed, and answered with an ACK and a result. -/
theorem service_pass_after_config :
    ∃ s, Trace (fun s act s' => s.NoEarlyRearm act ∧
        CutStep board Cpu3.image serviceBackend s act s') darkCallSite.site configWritten s ∧
      (Cpu3.pingpongTestService Cpu3.image serviceBackend 2 0 s.core).desk =
        s.core.desk.pass Cpu3.image serviceBackend s.core.peripheralsReady 2 [0, 1, 2, 3] ∧
      (s.core.desk.requests 1).length = 1 ∧
      drivenLines (s.core.desk.pass Cpu3.image serviceBackend s.core.peripheralsReady 2
        [0, 1, 2, 3]).1 = some 0x2000000 := by
  obtain ⟨s, htrace, htest⟩ := Trace.exists_of_guarded
    (Site.cutStep board Cpu3.image serviceBackend) Site.NoEarlyRearm darkCallSite.site configWritten
    (fun s => hasRequest s && drivenLines (s.core.desk.pass Cpu3.image serviceBackend
      s.core.peripheralsReady 2 [0, 1, 2, 3]).1 = some 0x2000000) (by decide +kernel)
  simp only [hasRequest, Bool.and_eq_true, decide_eq_true_eq] at htest
  obtain ⟨⟨⟨⟨hon, hready⟩, hpublished⟩, hlength⟩, hdriven⟩ := htest
  exact ⟨s, htrace, service_pass_on_lists serviceBackend_fits darkCallSite_start htrace hon hready
    (Or.inr hpublished) 2 0, hlength, hdriven⟩

/-- A request is executed whether or not its answer will fit.  Whatever waits in the reply rings,
the same requests are left and the peripherals have been through the same, unless one of the two
passes ends with CPU3 going off: STOP_READY has to be out first, so a full ring keeps CPU3 on. -/
theorem service_executes_unreported (hfits : bk.Fits) (hs : s.Start)
    (h : Trace (fun s act s' => s.NoEarlyRearm act ∧ CutStep cfg b bk s act s') s acts s')
    (hon : s'.power = .on) (hready : s'.core.endpointReady = true)
    (hpublished : b.skipSessionReady = true ∨ s'.core.sessionReadyPublished = true)
    {replies : Priority → Ring}
    (hreplies : ∀ p, (replies p).Holds (Message.OfSession False s'.generation))
    (pending lastPriority : U32)
    (hstays : (Cpu3.pingpongTestService b bk pending lastPriority s'.core).desk.2 = false)
    (hstays' : (Cpu3.pingpongTestService b bk pending lastPriority
      { s'.core with shared := { s'.core.shared with cpu3ToLinux := replies } }).desk.2 = false) :
    (Cpu3.pingpongTestService b bk pending lastPriority
        { s'.core with shared := { s'.core.shared with cpu3ToLinux := replies } }).desk.1.requests =
      (Cpu3.pingpongTestService b bk pending lastPriority s'.core).desk.1.requests ∧
    (Cpu3.pingpongTestService b bk pending lastPriority
        { s'.core with shared := { s'.core.shared with cpu3ToLinux := replies } }
          ).desk.1.peripherals =
      (Cpu3.pingpongTestService b bk pending lastPriority s'.core).desk.1.peripherals := by
  have hin := (hs.agrees_cut h).inSession hon
  have hin' : Cpu3.InSession (CutInjects acts) s'.generation
      { s'.core with shared := { s'.core.shared with cpu3ToLinux := replies } } :=
    ⟨⟨hin.page.header, hin.page.begun, hin.page.requests, hreplies⟩, hin.identity⟩
  rw [Cpu3.pingpongTestService_eq_pass b hfits hin hready hpublished] at hstays ⊢
  rw [Cpu3.pingpongTestService_eq_pass b hfits hin' hready hpublished] at hstays' ⊢
  exact Cpu3.Desk.pass_replies bk s'.core.peripheralsReady pending [0, 1, 2, 3] rfl rfl hstays
    hstays'

def fullRing : Ring :=
  ringOf 0 [replyFrame msgPong 1 0 0, replyFrame msgPong 2 0 0, replyFrame msgPong 3 0 0,
    replyFrame msgPong 4 0 0, replyFrame msgPong 5 0 0, replyFrame msgPong 6 0 0,
    replyFrame msgPong 7 0 0]

theorem fullRing_holds : fullRing.Holds (Message.OfSession False 1) := by
  refine ⟨⟨by decide, by decide⟩, fun m hm => ?_⟩
  have hframe : ∃ sequence, sequence ≠ 0 ∧ m = replyFrame msgPong sequence 0 0 := by
    have hmem : m ∈ [replyFrame msgPong 1 0 0, replyFrame msgPong 2 0 0, replyFrame msgPong 3 0 0,
        replyFrame msgPong 4 0 0, replyFrame msgPong 5 0 0, replyFrame msgPong 6 0 0,
        replyFrame msgPong 7 0 0] := hm
    simp only [List.mem_cons, List.not_mem_nil, or_false] at hmem
    rcases hmem with rfl | rfl | rfl | rfl | rfl | rfl | rfl
    exacts [⟨1, by decide, rfl⟩, ⟨2, by decide, rfl⟩, ⟨3, by decide, rfl⟩, ⟨4, by decide, rfl⟩,
      ⟨5, by decide, rfl⟩, ⟨6, by decide, rfl⟩, ⟨7, by decide, rfl⟩]
  obtain ⟨sequence, hne, rfl⟩ := hframe
  refine Message.ofSession_seal (m := composeFrame 1 msgPong sequence 8 _) ?_
  rintro (h | h | h)
  · exact absurd h (by decide : (1 : U32) ≠ 0)
  · exact hne h
  · exact absurd h (by decide : ¬ 28#32 < 8)

def crowded (s : Site ServiceState) : Cpu3.State ServiceState :=
  { s.core with shared := { s.core.shared with cpu3ToLinux := Function.const Priority fullRing } }

/-- The line is driven even if seven replies are waiting. -/
theorem service_executes_unreported_config :
    ∃ s, Trace (fun s act s' => s.NoEarlyRearm act ∧
        CutStep board Cpu3.image serviceBackend s act s') darkCallSite.site configWritten s ∧
      (Cpu3.pingpongTestService Cpu3.image serviceBackend 2 0 (crowded s)).desk.1.requests 1 = [] ∧
      drivenLines (Cpu3.pingpongTestService Cpu3.image serviceBackend 2 0 (crowded s)).desk.1 =
        some 0x2000000 := by
  obtain ⟨s, htrace, htest⟩ := Trace.exists_of_guarded
    (Site.cutStep board Cpu3.image serviceBackend) Site.NoEarlyRearm darkCallSite.site configWritten
    (fun s => hasRequest s && s.generation = 1 &&
      (Cpu3.pingpongTestService Cpu3.image serviceBackend 2 0 s.core).desk.2 = false &&
      (Cpu3.pingpongTestService Cpu3.image serviceBackend 2 0 (crowded s)).desk.2 = false &&
      (Cpu3.pingpongTestService Cpu3.image serviceBackend 2 0 s.core).desk.1.requests 1 = [] &&
      drivenLines (Cpu3.pingpongTestService Cpu3.image serviceBackend 2 0 s.core).desk.1 =
        some 0x2000000) (by decide +kernel)
  simp only [hasRequest, Bool.and_eq_true, decide_eq_true_eq] at htest
  obtain ⟨⟨⟨⟨⟨⟨⟨⟨hon, hready⟩, hpublished⟩, -⟩, hgeneration⟩, hstays⟩, hstays'⟩, hserved⟩, hdriven⟩ :=
    htest
  have hreplies : ∀ p, (Function.const Priority fullRing p).Holds
      (Message.OfSession False s.generation) := fun _ => hgeneration ▸ fullRing_holds
  obtain ⟨hrequests, hperipherals⟩ := service_executes_unreported serviceBackend_fits
    darkCallSite_start htrace hon hready (Or.inr hpublished) hreplies 2 0 hstays hstays'
  refine ⟨s, htrace, (congrFun hrequests 1).trans hserved, Eq.trans ?_ hdriven⟩
  exact congrArg (fun x : ServiceState => x.1.gpio.map (·.outputMask)) hperipherals

end Lzamp.System
