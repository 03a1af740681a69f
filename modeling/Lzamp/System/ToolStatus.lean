import Lzamp.Cpu3.Usable
import Lzamp.System.ToolMeaning

namespace Lzamp.System
open Lib Lib.PyText Lib.PyJson Lib.Bus Mailmsg Cpu3

/-- The pin profile has what the action needs. -/
def Action.inProfile (spiProfile : Bool) : Action → Bool
  | .gpioConfig .. | .gpioWrite .. | .gpioRead .. | .i2cWrite .. | .i2cRead .. | .i2cWriteRead .. =>
    !spiProfile
  | .spiTransfer .. => spiProfile
  | .uartWrite .. | .uartRead .. | .pwmSet .. | .pwmStop | .adcRead .. => true

/-- A PWM period of at most 20 ns. -/
def Action.tooShort : Action → Bool
  | .pwmSet setting => setting.period.toNat ≤ 20
  | _ => false

/-- A GPIO write to a line that is no output after the requests that came before. -/
def Action.writesInput (earlier : List Message) : Action → Bool
  | .gpioWrite line _ => !isOutput earlier line.number
  | _ => false

/-- What a driver that accepts an action can return: it succeeds, a polling loop gives up, or an I2C
device does not acknowledge. -/
def Action.outcomes : Action → List Int
  | .gpioConfig .. | .gpioWrite .. | .gpioRead .. | .pwmSet .. | .pwmStop => [0]
  | .uartWrite .. | .uartRead .. | .spiTransfer .. | .adcRead .. => [0, -2]
  | .i2cWrite .. | .i2cRead .. | .i2cWriteRead .. => [0, -2, -3]

/-- What the status of an action can be. -/
structure StatusOf (spiProfile : Bool) (earlier : List Message) (a : Action) (status : Int) :
    Prop where
  unavailable : a.inProfile spiProfile = false → status = serviceUnavailable
  invalid : a.tooShort = true → status = -1
  notOutput : a.inProfile spiProfile = true → a.writesInput earlier = true →
    status = gpio3NotOutput
  tried : a.inProfile spiProfile = true → a.tooShort = false → a.writesInput earlier = false →
    status ∈ a.outcomes

theorem StatusOf.of_unavailable {spiProfile : Bool} {earlier : List Message} {a : Action}
    (hin : a.inProfile spiProfile = false) (hshort : a.tooShort = false) :
    StatusOf spiProfile earlier a serviceUnavailable where
  unavailable _ := rfl
  invalid h := absurd (hshort.symm.trans h) (by decide)
  notOutput h := absurd (hin.symm.trans h) (by decide)
  tried h := absurd (hin.symm.trans h) (by decide)

theorem StatusOf.of_mem {spiProfile : Bool} {earlier : List Message} {a : Action} {status : Int}
    (hin : a.inProfile spiProfile = true) (hshort : a.tooShort = false)
    (hwrites : a.writesInput earlier = false) (h : status ∈ a.outcomes) :
    StatusOf spiProfile earlier a status where
  unavailable hno := absurd (hin.symm.trans hno) (by decide)
  invalid hs := absurd (hshort.symm.trans hs) (by decide)
  notOutput _ hw := absurd (hwrites.symm.trans hw) (by decide)
  tried _ _ _ := h

theorem StatusOf.of_ok {spiProfile : Bool} {earlier : List Message} {a : Action} {status : Int}
    (hin : a.inProfile spiProfile = true) (hshort : a.tooShort = false)
    (hwrites : a.writesInput earlier = false) (h : status = 0) :
    StatusOf spiProfile earlier a status := by
  refine .of_mem hin hshort hwrites ?_
  rw [h]
  cases a <;> simp [Action.outcomes]

theorem waited_mem {gaveUp : Prop} {status : Int} (h : Waited gaveUp status) :
    status ∈ [0, -2] := by
  rcases h with ⟨rfl, -⟩ | ⟨rfl, -⟩ <;> decide

theorem i2cStatus_mem {status : Int} (h : I2cStatus status) : status ∈ [0, -2, -3] := by
  rcases h with rfl | rfl | rfl <;> decide

section Status

variable {service : PeripheralService} {earlier : List Message}

theorem keep_returns {Q : Int → Prop} {reply : Mmio PeriphReply}
    (h : reply.Returns fun r => Q r.status) :
    (service.keep reply).Returns fun r => Q r.1.status :=
  .bind h fun _ hr => returns_pure hr

theorem unlessSpi_status {a : Action} (hin : ∀ b, a.inProfile b = !b) (hshort : a.tooShort = false)
    {act : Mmio PeriphReply}
    (h : service.spiProfile = false → act.Returns fun r => StatusOf false earlier a r.status) :
    (service.keep (unlessSpi service act)).Returns fun r =>
      StatusOf service.spiProfile earlier a r.1.status := by
  apply keep_returns
  unfold unlessSpi
  cases hspi : service.spiProfile with
  | true =>
    rw [if_pos rfl]
    exact returns_pure (.of_unavailable (hin true) hshort)
  | false =>
    rw [if_neg (by decide)]
    exact h hspi

theorem address_le (address : Word 0 127) : ¬ 0x7f#8 < address.word.setWidth 8 := by
  have hle := address.le_high
  rw [BitVec.lt_def, BitVec.toNat_setWidth]
  show ¬ 127 < _
  omega

theorem i2cRead_check (address : Word 0 127) (length : Word 1 8) {registers : List U8}
    (h : registers.length ≤ 3) : ¬ (0x7f#8 < address.word.setWidth 8 ∨ length.word.toNat = 0 ∨
      32 < length.word.toNat ∨ 3 < registers.length) := by
  have hlow := length.low_le
  have hhigh := length.le_high
  exact not_or.mpr ⟨address_le address, by omega⟩

theorem UartPort.usable (port : UartPort) (h : service.Usable) :
    ∃ uart, port.device service = some uart ∧ ((some uart).filter (·.ops)).isSome := by
  have hdevice : ((port.device service).filter (·.ops)).isSome := by
    cases port with
    | uart5 => exact h.uart5
    | uart7 => exact h.uart7
  cases hport : port.device service with
  | none =>
    rw [hport] at hdevice
    cases hdevice
  | some uart => exact ⟨uart, rfl, hport ▸ hdevice⟩

/-- The mask of the driver is what the earlier requests made it. -/
def OutputsKnown (service : PeripheralService) (earlier : List Message) : Prop :=
  service.spiProfile = false → ∀ gpio ∈ service.gpio.filter (·.ops), ∀ line,
    gpio.outputMask &&& 1#32 <<< line = 0 ↔ isOutput earlier line = false

theorem gpioConfig_status (h : service.Usable) (hspi : service.spiProfile = false)
    (line : OwnedLine) (output value : Bool) :
    ((Action.gpioConfig line output value).perform service).Returns fun r =>
      StatusOf false earlier (.gpioConfig line output value) r.1.status := by
  rw [Action.perform, hspi, if_neg (by decide)]
  cases output with
  | true =>
    refine (gpio3ConfigureOutput_calls _ _ _).performed_bind (h.gpio hspi)
      (fun _ _ => line.owned) fun _ _ _ r hr => ?_
    exact returns_pure (.of_ok rfl rfl rfl (congrArg Prod.fst hr.2))
  | false =>
    refine (gpio3ConfigureInput_calls _ _).performed_bind (h.gpio hspi)
      (fun _ _ => line.owned) fun _ _ _ r hr => ?_
    exact returns_pure (.of_ok rfl rfl rfl (congrArg Prod.fst hr.2))

theorem gpioWrite_status (h : service.Usable) (hspi : service.spiProfile = false)
    (houtputs : OutputsKnown service earlier) (line : OwnedLine) (value : Bool) :
    (gpio3Set service.gpio line.number value).Returns fun status =>
      StatusOf false earlier (.gpioWrite line value) status := by
  refine (gpio3Set_calls _ _ _).performed (h.gpio hspi) (fun _ _ => line.owned) ?_
  rintro gpio hgpio gaveUp _ ⟨-, rfl⟩
  have hmask := houtputs hspi gpio hgpio line.number
  have hwrites : (Action.gpioWrite line value).writesInput earlier =
    !isOutput earlier line.number := rfl
  cases hout : isOutput earlier line.number with
  | true =>
    have hbit : ¬ gpio.outputMask &&& 1#32 <<< line.number = 0 := by
      rw [hmask, hout]
      decide
    exact .of_ok rfl rfl (by rw [hwrites, hout]; rfl) (if_neg hbit)
  | false =>
    -- refused by the driver: the only -2 that no polling loop stands behind
    rw [if_pos (hmask.mpr hout)]
    constructor
    · intro hno
      cases hno
    · intro hshort
      cases hshort
    · exact fun _ _ => rfl
    · intro _ _ hno
      rw [hwrites, hout] at hno
      cases hno

theorem spiTransfer_status (h : service.Usable) (hspi : service.spiProfile = true)
    (chipSelect : Word 0 1) (mode : Word 0 3) (data : Bytes 1 8) :
    ((Action.spiTransfer chipSelect mode data).perform service).Returns fun r =>
      StatusOf true earlier (.spiTransfer chipSelect mode data) r.1.status := by
  have hcheck : ¬ (1#32 < chipSelect.word ∨ data.bytes.length = 0 ∨
      65535 < data.bytes.length) := by
    have hlow := data.low_le
    have hhigh := data.le_high
    exact not_or.mpr ⟨chipSelect.not_lt le_rfl, by omega⟩
  have hmode : (spiSetMode service.spi0 mode.word).Returns fun r =>
      r.1 = 0 ∧ (r.2.filter (·.ops)).isSome := by
    refine (spiSetMode_calls _ _).performed (h.spi0 hspi) (fun _ _ => mode.not_lt le_rfl) ?_
    rintro spi hmem gaveUp _ ⟨-, ctrlr0, rfl⟩
    exact ⟨rfl, Option.isSome_iff_exists.mpr ⟨_, filter_some_of_mem hmem rfl⟩⟩
  rw [Action.perform, hspi, if_neg (by decide)]
  refine hmode.bind fun r hr => ?_
  dsimp only
  rw [if_neg (not_not.mpr hr.1)]
  refine (spiTransfer_calls _ _ _ _).performed_bind hr.2 (fun _ _ => hcheck) fun _ _ _ _ ht => ?_
  exact returns_pure (.of_mem rfl rfl rfl (waited_mem ht.waited))

theorem pwmSet_status (h : service.Usable) (setting : PwmSetting) :
    (Cpu3.pwmSet service.pwm7 setting.period setting.duty setting.inverted).Returns fun status =>
      StatusOf service.spiProfile earlier (.pwmSet setting) status := by
  obtain ⟨pwm, hpwm, hclock⟩ := h.pwm7
  have haccepts := pwmAccepts_24MHz setting.period_ne setting.duty_le
  have hshort : (Action.pwmSet setting).tooShort = decide (setting.period.toNat ≤ 20) := rfl
  refine (pwmSet_calls _ _ _ _).returns (fun hno => ?_) fun pwm' hpwm' hyes _ status hr => ?_
  · have hnot := hno pwm hpwm
    rw [hclock, haccepts] at hnot
    have htrue := hshort.trans (decide_eq_true (not_lt.mp hnot))
    constructor
    · intro hno
      cases hno
    · exact fun _ => rfl
    · intro _ hno
      cases hno
    · exact fun _ hno => absurd (htrue.symm.trans hno) (by decide)
  · obtain rfl := Option.some.inj (hpwm.symm.trans hpwm')
    rw [hclock, haccepts] at hyes
    exact .of_ok rfl (hshort.trans (decide_eq_false (not_le.mpr hyes))) rfl hr.2

theorem Action.status_of (a : Action) (h : service.Usable)
    (houtputs : OutputsKnown service earlier) :
    (a.perform service).Returns fun r => StatusOf service.spiProfile earlier a r.1.status := by
  cases a with
  | gpioConfig line output value =>
    cases hspi : service.spiProfile with
    | true =>
      rw [perform, hspi, if_pos rfl]
      exact returns_pure (.of_unavailable rfl rfl)
    | false => exact gpioConfig_status h hspi line output value
  | gpioWrite line value =>
    refine unlessSpi_status (fun _ => rfl) rfl fun hspi => ?_
    exact .bind (gpioWrite_status h hspi houtputs line value) fun _ hr => returns_pure hr
  | gpioRead line =>
    refine unlessSpi_status (fun _ => rfl) rfl fun hspi => ?_
    refine (gpio3Get_calls _ _).performed_bind (h.gpio hspi) (fun _ _ => line.owned) ?_
    exact fun _ _ _ r hr => returns_pure (.of_ok rfl rfl rfl hr.2.1)
  | uartWrite port data =>
    obtain ⟨uart, hport, huart⟩ := port.usable h
    rw [perform, hport]
    refine keep_returns ((uartWrite_calls _ _ _).performed_bind huart (fun _ _ => trivial) ?_)
    exact fun _ _ _ _ hr => returns_pure (.of_mem rfl rfl rfl (waited_mem hr))
  | uartRead port length =>
    obtain ⟨uart, hport, huart⟩ := port.usable h
    have hlength : length.word.toNat ≠ 0 := by
      have := length.low_le
      omega
    rw [perform, hport]
    refine keep_returns ((uartRead_calls _ _ _).performed_bind huart (fun _ _ => hlength) ?_)
    exact fun _ _ _ _ hr => returns_pure (.of_mem rfl rfl rfl (waited_mem hr.waited))
  | i2cWrite address data =>
    have hcheck : ¬ (0x7f#8 < address.word.setWidth 8 ∨ data.bytes.length = 0 ∨
        31 < data.bytes.length) := by
      have hlow := data.low_le
      have hhigh := data.le_high
      exact not_or.mpr ⟨address_le address, by omega⟩
    refine unlessSpi_status (fun _ => rfl) rfl fun hspi => ?_
    refine (i2cWrite_calls _ _ _ _).performed_bind (h.i2c7 hspi) (fun _ _ => hcheck) ?_
    exact fun _ _ _ _ hr => returns_pure (.of_mem rfl rfl rfl (i2cStatus_mem hr))
  | i2cRead address length =>
    have hcheck := i2cRead_check address length (by decide : ([] : List U8).length ≤ 3)
    refine unlessSpi_status (fun _ => rfl) rfl fun hspi => ?_
    refine (readCommon_calls _ _ _ _ _).performed_bind (h.i2c7 hspi) (fun _ _ => hcheck) ?_
    exact fun _ _ _ _ hr => returns_pure (.of_mem rfl rfl rfl (i2cStatus_mem hr.1))
  | i2cWriteRead address registers length =>
    have hregisters : ¬ registers.bytes.length = 0 := by
      have := registers.low_le
      omega
    have hcheck := i2cRead_check address length registers.le_high
    refine unlessSpi_status (fun _ => rfl) rfl fun hspi => ?_
    unfold Cpu3.i2cWriteRead
    rw [if_neg hregisters]
    refine (readCommon_calls _ _ _ _ _).performed_bind (h.i2c7 hspi) (fun _ _ => hcheck) ?_
    exact fun _ _ _ _ hr => returns_pure (.of_mem rfl rfl rfl (i2cStatus_mem hr.1))
  | spiTransfer chipSelect mode data =>
    cases hspi : service.spiProfile with
    | false =>
      rw [perform, hspi]
      exact returns_pure (.of_unavailable rfl rfl)
    | true => exact spiTransfer_status h hspi chipSelect mode data
  | pwmSet setting =>
    exact keep_returns (.bind (pwmSet_status h setting) fun _ hr => returns_pure hr)
  | pwmStop =>
    obtain ⟨pwm, hpwm, -⟩ := h.pwm7
    refine keep_returns ((pwmStop_calls _).performed_bind
      (Option.isSome_iff_exists.mpr ⟨pwm, hpwm⟩) (fun _ _ => trivial) ?_)
    exact fun _ _ _ _ hr => returns_pure (.of_ok rfl rfl rfl hr.2)
  | adcRead channel =>
    have hchannel : ¬ 8#32 ≤ channel.word := by
      have hle := channel.le_high
      rw [BitVec.le_def]
      show ¬ 8 ≤ _
      omega
    have hreset : (resetPulse service.reset .saradc).Returns fun status => status = 0 :=
      (resetPulse_calls _ _).performed h.reset (fun _ _ => rfl) fun _ _ _ _ hr => hr.2
    refine keep_returns (.bind hreset fun status hstatus => ?_)
    rw [if_neg (not_not.mpr hstatus)]
    refine (saradcRead_calls _ _ _).performed_bind h.saradc (fun _ _ => hchannel) ?_
    exact fun _ _ _ _ hr => returns_pure (.of_mem rfl rfl rfl (waited_mem hr.waited))

end Status

end Lzamp.System
