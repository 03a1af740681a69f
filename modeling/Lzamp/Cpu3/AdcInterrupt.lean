import Lzamp.Lib.Hiword
import Lzamp.Cpu3.HardwareOwnership

namespace Lzamp.Cpu3
open Mailmsg Lib Lib.Bus Lib.Hiword

/-- The enable bit of the interrupt after a run; it starts at 0. -/
def endIntEnabled (map : MemoryMap) (es : List (BusEvent U64 U32)) : Bool :=
  (after (fun _ => 0) es (map.base .saradc + saradcEndIntEn)).getLsbD 0

/-- The end of the conversion shows up in one of the polls. -/
def EndSeen (timeoutUs : ℕ) (reads : Stream' U32) : Prop :=
  ∃ n < timeoutUs, reads.get n &&& saradcEndBit ≠ 0

theorem endSeen_succ {timeoutUs : ℕ} {reads : Stream' U32}
    (hhead : reads.head &&& saradcEndBit = 0) :
    EndSeen (timeoutUs + 1) reads ↔ EndSeen timeoutUs reads.tail := by
  constructor
  · rintro ⟨n, hn, hseen⟩
    cases n with
    | zero => exact absurd hhead hseen
    | succ n => exact ⟨n, by omega, hseen⟩
  · rintro ⟨n, hn, hseen⟩
    exact ⟨n + 1, by omega, hseen⟩

theorem saradcWait_value (adc : Saradc) (timeoutUs : ℕ) (reads : Stream' U32) :
    ((saradcWait adc timeoutUs).run reads).value = true ↔ EndSeen timeoutUs reads := by
  induction timeoutUs generalizing reads with
  | zero => simp [saradcWait, run_bind, EndSeen]
  | succ timeoutUs ih =>
    rw [saradcWait, run_bind, run_read32]
    by_cases hhead : reads.head &&& saradcEndBit = 0#32
    · rw [endSeen_succ hhead, ← ih]
      simp [run_bind, hhead]
    · have hseen : EndSeen (timeoutUs + 1) reads := ⟨0, Nat.succ_pos _, hhead⟩
      simp [hhead, hseen]

theorem saradcWait_given (adc : Saradc) (timeoutUs : ℕ) (reads : Stream' U32) (addr : U64) (i : ℕ) :
    lastGiven addr i ((saradcWait adc timeoutUs).run reads).events = none := by
  have hnone : (saradcWait adc timeoutUs).WritesOnly fun _ _ => False :=
    (saradcWait_does adc timeoutUs).writesOnly
  exact lastGiven_eq_none fun word a hmem => (hnone reads word a hmem).elim

section Conversion

variable {adc : Saradc} {device : Option Saradc} (hdevice : device.filter (·.ops) = some adc)
  {channel : U32} (hchannel : channel < 8#32) (timeoutUs : ℕ) (reads : Stream' U32)

include hdevice hchannel

/-- What a conversion leaves in the enable bit: the value of the last of its two writes, and it
makes the second one only after the end of the conversion. -/
theorem saradcRead_given :
    lastGiven (adc.base + saradcEndIntEn) 0
        ((saradcRead device channel timeoutUs).run reads).events =
      some (!((saradcWait adc timeoutUs).run reads).value) := by
  have hst (word : U32) := given_write_of_ne
    (base_add_ne adc.base (by decide : saradcEndIntSt ≠ saradcEndIntEn)) 0 word
  have hcon (word : U32) := given_write_of_ne
    (base_add_ne adc.base (by decide : saradcConvCon ≠ saradcEndIntEn)) 0 word
  have hon : given (adc.base + saradcEndIntEn) 0
      (.write (saradcEndBit <<< 16 ||| saradcEndBit) (adc.base + saradcEndIntEn)) = some true := by
    rw [given_write]
    decide
  have hoff : given (adc.base + saradcEndIntEn) 0
      (.write (saradcEndBit <<< 16) (adc.base + saradcEndIntEn)) = some false := by
    rw [given_write]
    decide
  unfold saradcRead
  rw [hdevice]
  dsimp only
  rw [if_neg (BitVec.not_le.mpr hchannel)]
  cases hcomplete : ((saradcWait adc timeoutUs).run reads).value with
  | false => simp [run_bind, hcomplete, lastGiven, saradcWait_given, hst, hcon, hon]
  | true => simp [run_bind, hcomplete, lastGiven, saradcWait_given, hst, hcon, hon, hoff]

end Conversion

theorem resetPulse_saradc {device : Option ResetController} {reset : ResetController}
    (hdevice : device.filter (·.ops) = some reset) (reads : Stream' U32) :
    (resetPulse device .saradc).run reads =
      ⟨[.write (resetWord ⟨11, 14⟩ true) (reset.cruBase + softrstCon 11), .delay 10,
        .write (resetWord ⟨11, 14⟩ false) (reset.cruBase + softrstCon 11), .delay 2], 0, reads⟩ := by
  unfold resetPulse
  rw [hdevice]
  rfl

theorem MemoryMap.register_ne {map : MemoryMap} {c c' : Controller} (hne : c ≠ c') {x y : U64}
    (hx : x.toNat < c.size) (hy : y.toNat < c'.size) : map.base c + x ≠ map.base c' + y := by
  intro heq
  have hreach : map.Reaches c' (map.base c + x) := heq ▸ MemoryMap.reaches_add hy
  exact hne ((MemoryMap.reaches_add hx).unique hreach)

namespace PeripheralService

structure WellFormed (request : Message) : Prop where
  type : request.type = msgPeripheralRequest
  length : request.length = 28
  inline : (decodeRequest request.payload).length ≤ 8#32

/-- The request is an ADC_READ that gets as far as starting a conversion. -/
structure Measures (service : PeripheralService) (request : Message) : Prop where
  wellFormed : WellFormed request
  reset : (service.reset.filter (·.ops)).isSome = true
  saradc : (service.saradc.filter (·.ops)).isSome = true
  channel : (decodeRequest request.payload).arg0 < 8#32

/-- Every conversion that the requests start ends within its polls. -/
def ConversionsEnd (service : PeripheralService) : List Message → Stream' U32 → Prop
  | [], _ => True
  | request :: requests, reads =>
    (service.Measures request → EndSeen serviceTimeoutUs reads) ∧
      ConversionsEnd service requests ((service.execute request).run reads).rest

theorem conversionsEnd_cons (service : PeripheralService) (request : Message)
    (requests : List Message) (reads : Stream' U32) :
    service.ConversionsEnd (request :: requests) reads ↔
      (service.Measures request → EndSeen serviceTimeoutUs reads) ∧
        service.ConversionsEnd requests ((service.execute request).run reads).rest :=
  Iff.rfl

variable {map : MemoryMap} {service : PeripheralService} {request : Message}

theorem adcRead_given (hw : service.Wired map) {req : PeriphRequest} (reads : Stream' U32)
    {reset : ResetController} (hreset : service.reset.filter (·.ops) = some reset) :
    lastGiven (map.base .saradc + saradcEndIntEn) 0 ((service.adcRead req).run reads).events =
      lastGiven (map.base .saradc + saradcEndIntEn) 0
        ((saradcRead service.saradc req.arg0 serviceTimeoutUs).run reads).events := by
  have hcru (word : U32) := given_write_of_ne (map.register_ne (by decide : Controller.cru ≠ .saradc)
    (by decide : (softrstCon 11).toNat < _) (by decide : saradcEndIntEn.toNat < _)) 0 word
  unfold adcRead
  rw [run_bind, resetPulse_saradc hreset, hw.reset reset hreset]
  simp [run_bind, lastGiven, hcru]

theorem execute_of_not_wellFormed (h : ¬ WellFormed request) (reads : Stream' U32) :
    ((service.execute request).run reads).events = [] ∧
      ((service.execute request).run reads).value.2 = service := by
  unfold execute
  by_cases hform : request.type ≠ msgPeripheralRequest ∨ request.length ≠ 28
  · rw [if_pos hform]
    exact ⟨rfl, rfl⟩
  · have hinline : 8#32 < (decodeRequest request.payload).length := by
      rw [not_or, not_not, not_not] at hform
      by_contra hle
      exact h ⟨hform.1, hform.2, BitVec.not_lt.mp hle⟩
    rw [if_neg hform]
    simp [run_bind, reply, hinline]

variable (hop : (decodeRequest request.payload).op = PeriphOp.adcRead.code)

include hop

theorem execute_adcRead (h : WellFormed request) (reads : Stream' U32) :
    ((service.execute request).run reads).events =
        ((service.adcRead (decodeRequest request.payload)).run reads).events ∧
      ((service.execute request).run reads).value.2 = service := by
  have hcode : PeriphOp.ofCode (decodeRequest request.payload).op = some .adcRead := by
    rw [hop]
    rfl
  unfold execute
  rw [if_neg (by simp [h.type, h.length])]
  simp [run_bind, reply, BitVec.not_lt.mpr h.inline, dispatch, hcode, keep]

theorem execute_adcRead_keeps (reads : Stream' U32) :
    ((service.execute request).run reads).value.2 = service := by
  by_cases h : WellFormed request
  · exact (execute_adcRead hop h reads).2
  · exact (execute_of_not_wellFormed h reads).2

section Given

variable (hw : service.Wired map) (reads : Stream' U32)

include hw

theorem execute_given (h : service.Measures request) :
    ∃ complete, (complete = true ↔ EndSeen serviceTimeoutUs reads) ∧
      lastGiven (map.base .saradc + saradcEndIntEn) 0 ((service.execute request).run reads).events =
        some (!complete) := by
  obtain ⟨reset, hreset⟩ := Option.isSome_iff_exists.mp h.reset
  obtain ⟨adc, hadc⟩ := Option.isSome_iff_exists.mp h.saradc
  refine ⟨_, saradcWait_value adc serviceTimeoutUs reads, ?_⟩
  rw [(execute_adcRead hop h.wellFormed reads).1, adcRead_given hw reads hreset,
    ← hw.saradc adc hadc, saradcRead_given hadc h.channel]

theorem execute_given_of_not_measures (h : ¬ service.Measures request) :
    lastGiven (map.base .saradc + saradcEndIntEn) 0 ((service.execute request).run reads).events =
      none := by
  by_cases hform : WellFormed request
  swap
  · rw [(execute_of_not_wellFormed hform reads).1]
    rfl
  rw [(execute_adcRead hop hform reads).1]
  cases hreset : service.reset.filter (·.ops) with
  | none => simp [adcRead, resetPulse, hreset, run_bind, lastGiven]
  | some reset =>
    rw [adcRead_given hw reads hreset]
    cases hadc : service.saradc.filter (·.ops) with
    | none => simp [saradcRead, hadc, lastGiven]
    | some adc =>
      have hchannel : 8#32 ≤ (decodeRequest request.payload).arg0 := by
        by_contra hlt
        exact h ⟨hform, by rw [hreset]; rfl, by rw [hadc]; rfl, BitVec.not_le.mp hlt⟩
      simp [saradcRead, hadc, hchannel, lastGiven]

end Given

end PeripheralService

open PeripheralService

theorem executeAll_cons_events {service : PeripheralService} {request : Message}
    (hop : (decodeRequest request.payload).op = PeriphOp.adcRead.code) (requests : List Message)
    (reads : Stream' U32) :
    ((service.executeAll (request :: requests)).run reads).events =
      ((service.execute request).run reads).events ++
        ((service.executeAll requests).run ((service.execute request).run reads).rest).events := by
  simp [executeAll, run_bind, execute_adcRead_keeps hop]

theorem clear_after_request {map : MemoryMap} {service : PeripheralService}
    (hw : service.Wired map) {request : Message}
    (hop : (decodeRequest request.payload).op = PeriphOp.adcRead.code) {regs : U64 → BitVec 16}
    (hclear : (regs (map.base .saradc + saradcEndIntEn)).getLsbD 0 = false) (reads : Stream' U32) :
    (after regs ((service.execute request).run reads).events
        (map.base .saradc + saradcEndIntEn)).getLsbD 0 = false ↔
      (service.Measures request → EndSeen serviceTimeoutUs reads) := by
  rw [getLsbD_after _ (by decide), hclear]
  by_cases hmeasures : service.Measures request
  · obtain ⟨complete, hcomplete, hgiven⟩ := execute_given hop hw reads hmeasures
    rw [hgiven, ← hcomplete]
    simp [hmeasures]
  · rw [execute_given_of_not_measures hop hw reads hmeasures]
    simp [hmeasures]

/-- From registers with the bit clear, it is clear after every request exactly if every conversion
ends. -/
theorem clear_after_requests {map : MemoryMap} {service : PeripheralService}
    (hw : service.Wired map) {requests : List Message}
    (hop : ∀ r ∈ requests, (decodeRequest r.payload).op = PeriphOp.adcRead.code)
    (regs : U64 → BitVec 16)
    (hclear : (regs (map.base .saradc + saradcEndIntEn)).getLsbD 0 = false) (reads : Stream' U32) :
    (∀ k ≤ requests.length, (after regs ((service.executeAll (requests.take k)).run reads).events
        (map.base .saradc + saradcEndIntEn)).getLsbD 0 = false) ↔
      service.ConversionsEnd requests reads := by
  -- over any registers, since a request hands on what it leaves
  induction requests generalizing regs reads with
  | nil =>
    refine iff_of_true (fun k _ => ?_) trivial
    rw [List.take_nil]
    exact hclear
  | cons request requests ih =>
    have hfirst := hop request List.mem_cons_self
    have hrest : ∀ r ∈ requests, (decodeRequest r.payload).op = PeriphOp.adcRead.code :=
      fun r hr => hop r (List.mem_cons_of_mem request hr)
    have hstep := clear_after_request hw hfirst hclear reads
    have hlater (k : ℕ) : after regs
        ((service.executeAll ((request :: requests).take (k + 1))).run reads).events =
        after (after regs ((service.execute request).run reads).events)
          ((service.executeAll (requests.take k)).run
            ((service.execute request).run reads).rest).events := by
      rw [List.take_succ_cons, executeAll_cons_events hfirst, after_append]
    rw [conversionsEnd_cons]
    constructor
    · intro hall
      have hone : (after regs ((service.execute request).run reads).events
          (map.base .saradc + saradcEndIntEn)).getLsbD 0 = false := by
        have h := hall (0 + 1) (Nat.succ_le_succ (Nat.zero_le _))
        rw [hlater 0] at h
        exact h
      refine ⟨hstep.mp hone, (ih hrest _ hone _).mp fun k hk => ?_⟩
      have h := hall (k + 1) (Nat.succ_le_succ hk)
      rw [hlater k] at h
      exact h
    · rintro ⟨hnow, hends⟩ k hk
      cases k with
      | zero => exact hclear
      | succ k =>
        rw [hlater]
        exact (ih hrest _ (hstep.mpr hnow) _).mpr hends k (Nat.le_of_succ_le_succ hk)

/-- The interrupt stays disabled exactly as long as no conversion times out. -/
theorem adc_interrupt_disabled_iff (map : MemoryMap) (service : PeripheralService)
    (hw : service.Wired map) (requests : List Message)
    (hop : ∀ r ∈ requests, (decodeRequest r.payload).op = PeriphOp.adcRead.code)
    (reads : Stream' U32) :
    (∀ k ≤ requests.length,
        endIntEnabled map ((service.executeAll (requests.take k)).run reads).events = false) ↔
      service.ConversionsEnd requests reads :=
  clear_after_requests hw hop (fun _ => 0) rfl reads

def adcRequest (channel : U8) : Message := { Message.zero with
  type := msgPeripheralRequest
  length := 28
  payload := fun i => [12, 0, 0, 0, channel].getD i.val 0 }

theorem adcRequest_measures (spiProfile : Bool) :
    (initial .physical spiProfile).Measures (adcRequest 3) :=
  ⟨⟨rfl, rfl, by decide⟩, rfl, rfl, by decide⟩

theorem adc_interrupt_disabled_two :
    endIntEnabled .physical (((initial .physical false).executeAll
      [adcRequest 3, adcRequest 8]).run (Stream'.const 1)).events = false := by
  have hends : (initial .physical false).ConversionsEnd [adcRequest 3, adcRequest 8]
      (Stream'.const 1) := by
    refine ⟨?_, ?_, trivial⟩
    · exact fun _ => ⟨0, by decide, by decide⟩
    · exact fun hmeasures => absurd hmeasures.channel (by decide)
  exact (adc_interrupt_disabled_iff .physical (initial .physical false)
    (initial_wired .physical false) [adcRequest 3, adcRequest 8] (by decide)
    (Stream'.const 1)).mpr hends 2 le_rfl

/-- A converter that never reports the end of a conversion is left with its interrupt enabled. -/
theorem adc_timeout_leaves_enabled :
    endIntEnabled .physical (((initial .physical false).executeAll
      [adcRequest 3]).run (Stream'.const 0)).events = true := by
  have hop : (decodeRequest (adcRequest 3).payload).op = PeriphOp.adcRead.code := by decide
  rw [executeAll_cons_events hop, ← Bool.not_eq_false]
  intro hclear
  rw [show ∀ reads, (((initial .physical false).executeAll []).run reads).events = [] from
    fun _ => rfl, List.append_nil] at hclear
  have hends := (clear_after_request (initial_wired .physical false) hop rfl (Stream'.const 0)).mp
    hclear
  obtain ⟨n, _, hseen⟩ := hends (adcRequest_measures false)
  exact hseen (by rw [Stream'.get_const]; rfl)

end Lzamp.Cpu3
