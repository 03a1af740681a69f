import Lzamp.Cpu3.PeripheralService
import Lzamp.Cpu3.PwmTicks

namespace Lzamp.Cpu3
open Mailmsg Lib Lib.Bus

inductive Controller where
  | gpio3
  | ioc
  | cru
  | uart5
  | uart7
  | i2c7
  | spi0
  | pwm7
  | saradc
deriving DecidableEq

/-- The offsets that the driver of an owned controller defines. -/
def Controller.registers : Controller → List U64
  | .uart5 | .uart7 => [0x00, 0x04, 0x08, 0x0c, 0x14]
  | .i2c7 => [0x00, 0x04, 0x08, 0x0c, 0x10, 0x14, 0x18, 0x1c] ++
      (List.range 8).map (fun index => i2cTxbuf + BitVec.ofNat 64 index * 4) ++
      (List.range 8).map (fun index => i2cRxbuf + BitVec.ofNat 64 index * 4)
  | .spi0 => [0x00, 0x04, 0x08, 0x0c, 0x10, 0x14, 0x18, 0x24, 0x2c, 0x38, 0x3c, 0x400, 0x800]
  | .pwm7 => [0x04, 0x08, 0x0c]
  | .saradc => [0x000, 0x004, 0x00c, 0x104, 0x110] ++
      (List.range 8).map (fun channel => 0x120 + BitVec.ofNat 64 channel * 4)
  | .gpio3 | .ioc | .cru => []

/-- A write to one of the registers at `base`. -/
def Controller.At (c : Controller) (base : U64) (_value : U32) (addr : U64) : Prop :=
  ∃ offset ∈ c.registers, addr = base + offset

theorem Controller.at_add {c : Controller} {offset : U64} (h : offset ∈ c.registers) (base : U64)
    (value : U32) : c.At base value (base + offset) := ⟨offset, h, rfl⟩

/-- What a driver call does.  Without a usable device that takes the arguments it returns `refusal`
and does nothing; otherwise it writes what `ok` allows and ends as `done` says, which is told
whether a polling loop gave up. -/
structure Calls {D α : Type} (device : Option D) (accepts : D → Prop) (refusal : α)
    (ok : D → U32 → U64 → Prop) (done : D → Prop → α → Prop) (p : Mmio α) : Prop where
  refused : (∀ d ∈ device, ¬ accepts d) → p = pure refusal
  accepted : ∀ d ∈ device, accepts d → p.Does (ok d) (done d)

section Calls

variable {D α : Type} {device : Option D} {accepts : D → Prop} {refusal : α}
  {ok : D → U32 → U64 → Prop} {done : D → Prop → α → Prop} {p : Mmio α}

theorem Calls.does {W : U32 → U64 → Prop} {Q : Prop → α → Prop}
    (h : Calls device accepts refusal ok done p)
    (hok : ∀ d ∈ device, accepts d → ∀ v addr, ok d v addr → W v addr)
    (hrefusal : (∀ d ∈ device, ¬ accepts d) → Q False refusal)
    (hdone : ∀ d ∈ device, accepts d → ∀ gaveUp a, done d gaveUp a → Q gaveUp a) :
    p.Does W Q := by
  by_cases hd : ∃ d ∈ device, accepts d
  · obtain ⟨d, hmem, ha⟩ := hd
    exact (h.accepted d hmem ha).mono (hok d hmem ha) (hdone d hmem ha)
  · have hnone : ∀ d ∈ device, ¬ accepts d := fun d hmem ha => hd ⟨d, hmem, ha⟩
    rw [h.refused hnone, does_pure]
    exact hrefusal hnone

theorem Calls.writesOnly {W : U32 → U64 → Prop} (h : Calls device accepts refusal ok done p)
    (hok : ∀ d ∈ device, accepts d → ∀ v addr, ok d v addr → W v addr) : p.WritesOnly W :=
  (h.does (Q := fun _ _ => True) hok (fun _ => trivial) fun _ _ _ _ _ _ => trivial).writesOnly

theorem Calls.ensures {Q : Prop → α → Prop} (h : Calls device accepts refusal ok done p)
    (hrefusal : (∀ d ∈ device, ¬ accepts d) → Q False refusal)
    (hdone : ∀ d ∈ device, accepts d → ∀ gaveUp a, done d gaveUp a → Q gaveUp a) :
    p.Ensures fun es a => Q (.expire ∈ es) a :=
  (h.does (W := fun _ _ => True) (fun _ _ _ _ _ _ => trivial) hrefusal hdone).ensures

theorem Calls.returns {R : α → Prop} (h : Calls device accepts refusal ok done p)
    (hrefusal : (∀ d ∈ device, ¬ accepts d) → R refusal)
    (hdone : ∀ d ∈ device, accepts d → ∀ gaveUp a, done d gaveUp a → R a) : p.Returns R :=
  h.ensures (Q := fun _ => R) hrefusal hdone

theorem Calls.performed {R : α → Prop} (h : Calls device accepts refusal ok done p)
    (hdevice : device.isSome) (haccepts : ∀ d ∈ device, accepts d)
    (hdone : ∀ d ∈ device, ∀ gaveUp a, done d gaveUp a → R a) : p.Returns R := by
  obtain ⟨d, hd⟩ := Option.isSome_iff_exists.mp hdevice
  exact (h.accepted d hd (haccepts d hd)).returns (hdone d hd)

theorem Calls.performed_bind {β : Type} {f : α → Mmio β} {R : β → Prop}
    (h : Calls device accepts refusal ok done p) (hdevice : device.isSome)
    (haccepts : ∀ d ∈ device, accepts d)
    (hnext : ∀ d ∈ device, ∀ gaveUp a, done d gaveUp a → (f a).Returns R) :
    (p >>= f).Returns R :=
  (h.performed (R := fun a => (f a).Returns R) hdevice haccepts hnext).bind fun _ ha => ha

end Calls

/-- A polling loop gives up or is met. -/
def Waited (gaveUp : Prop) (status : Int) : Prop := status = 0 ∧ ¬ gaveUp ∨ status = -2 ∧ gaveUp

/-- A result that is `empty` after a loop gave up. -/
structure Polled {β : Type} (ok : β → Prop) (empty : β) (gaveUp : Prop) (result : Int × β) :
    Prop where
  waited : Waited gaveUp result.1
  failed : result.1 ≠ 0 → result.2 = empty
  ok : ok result.2

theorem Waited.met {gaveUp : Prop} (h : ¬ gaveUp) : Waited gaveUp 0 := .inl ⟨rfl, h⟩

theorem Waited.expired {gaveUp : Prop} (h : gaveUp) : Waited gaveUp (-2) := .inr ⟨rfl, h⟩

/-- The writes of a GPIO call about one line. -/
inductive GpioWrite (gpio : Gpio3) (line : U32) : U32 → U64 → Prop
  | level (value : Bool) : GpioWrite gpio line (maskedBit line value) (gpio.gpioBase + gpioDrHigh)
  | direction (value : Bool) :
      GpioWrite gpio line (maskedBit line value) (gpio.gpioBase + gpioDdrHigh)
  | mux : GpioWrite gpio line (0xf#32 <<< ((iomuxField line).2 + 16))
      (gpio.iocBase + (iomuxField line).1)

theorem gpio3ConfigureInput_calls (device : Option Gpio3) (line : U32) :
    Calls (device.filter (·.ops)) (fun _ => lineIsOwned line = true) (gpio3Invalid, device)
      (GpioWrite · line) (fun gpio gaveUp r => ¬ gaveUp ∧
        r = (0, some { gpio with outputMask := gpio.outputMask &&& ~~~(1#32 <<< line) }))
      (gpio3ConfigureInput device line) where
  refused h := by
    unfold gpio3ConfigureInput
    split
    · rfl
    · rename_i gpio hgpio
      rw [if_pos (by simpa using h gpio hgpio)]
  accepted gpio hgpio hline := by
    rw [gpio3ConfigureInput, Option.mem_def.mp hgpio, hline]
    simp only [Bool.not_true, Bool.false_eq_true, if_false, selectGpioFunction, writeMaskedBit,
      does_write32_bind, does_pure]
    exact ⟨.mux, .direction _, id, trivial⟩

theorem gpio3ConfigureOutput_calls (device : Option Gpio3) (line : U32) (value : Bool) :
    Calls (device.filter (·.ops)) (fun _ => lineIsOwned line = true) (gpio3Invalid, device)
      (GpioWrite · line) (fun gpio gaveUp r => ¬ gaveUp ∧
        r = (0, some { gpio with outputMask := gpio.outputMask ||| 1#32 <<< line }))
      (gpio3ConfigureOutput device line value) where
  refused h := by
    unfold gpio3ConfigureOutput
    split
    · rfl
    · rename_i gpio hgpio
      rw [if_pos (by simpa using h gpio hgpio)]
  accepted gpio hgpio hline := by
    rw [gpio3ConfigureOutput, Option.mem_def.mp hgpio, hline]
    simp only [Bool.not_true, Bool.false_eq_true, if_false, selectGpioFunction, writeMaskedBit,
      does_write32_bind, does_pure]
    exact ⟨.mux, .level _, .direction _, id, trivial⟩

/-- A line that is no output is refused before any register is touched. -/
theorem gpio3Set_calls (device : Option Gpio3) (line : U32) (value : Bool) :
    Calls (device.filter (·.ops)) (fun _ => lineIsOwned line = true) gpio3Invalid
      (GpioWrite · line) (fun gpio gaveUp status => ¬ gaveUp ∧
        status = if gpio.outputMask &&& 1#32 <<< line = 0 then gpio3NotOutput else 0)
      (gpio3Set device line value) where
  refused h := by
    unfold gpio3Set
    split
    · rfl
    · rename_i gpio hgpio
      rw [if_pos (by simpa using h gpio hgpio)]
  accepted gpio hgpio hline := by
    rw [gpio3Set, Option.mem_def.mp hgpio, hline]
    simp only [Bool.not_true, Bool.false_eq_true, if_false]
    split_ifs <;> simp [writeMaskedBit, GpioWrite.level]

theorem and_one_eq (v : U32) : v &&& 1 = 0 ∨ v &&& 1 = 1 := by
  have hbit : (v &&& 1).toNat ≤ 1 := by
    rw [BitVec.toNat_and]
    exact Nat.and_le_right
  rcases Nat.le_one_iff_eq_zero_or_eq_one.mp hbit with h | h
  · exact .inl (BitVec.eq_of_toNat_eq h)
  · exact .inr (BitVec.eq_of_toNat_eq h)

theorem gpio3Get_calls (device : Option Gpio3) (line : U32) :
    Calls (device.filter (·.ops)) (fun _ => lineIsOwned line = true) (gpio3Invalid, 0)
      (fun _ _ _ => False) (fun _ gaveUp r => ¬ gaveUp ∧ r.1 = 0 ∧ (r.2 = 0 ∨ r.2 = 1))
      (gpio3Get device line) where
  refused h := by
    unfold gpio3Get
    split
    · rfl
    · rename_i gpio hgpio
      rw [if_pos (by simpa using h gpio hgpio)]
  accepted gpio hgpio hline := by
    simp only [gpio3Get, Option.mem_def.mp hgpio, hline]
    simpa using fun port : U32 => and_one_eq (port >>> line)

theorem resetPulse_calls (device : Option ResetController) (peripheral : Reset) :
    Calls (device.filter (·.ops)) (fun _ => peripheral.lines.isSome) (-1)
      (fun reset value addr => ∃ lines ∈ peripheral.lines, ∃ line ∈ lines, ∃ asserted,
        value = resetWord line asserted ∧ addr = reset.cruBase + softrstCon line.reg)
      (fun _ gaveUp status => ¬ gaveUp ∧ status = 0) (resetPulse device peripheral) where
  refused h := by
    unfold resetPulse
    split
    · rename_i reset lines hreset hlines
      exact absurd (by rw [hlines]; rfl) (h reset hreset)
    · rfl
  accepted reset hreset hlines := by
    obtain ⟨lines, hlines⟩ := Option.isSome_iff_exists.mp hlines
    have hwrite (asserted : Bool) (line : ResetLine) (hline : line ∈ lines) :
        ∃ lines' ∈ some lines, ∃ line' ∈ lines', ∃ asserted',
          resetWord line asserted = resetWord line' asserted' ∧
            reset.cruBase + softrstCon line.reg = reset.cruBase + softrstCon line'.reg :=
      ⟨lines, rfl, line, hline, asserted, rfl, rfl⟩
    simp only [resetPulse, Option.mem_def.mp hreset, hlines, resetLineWrite]
    refine does_forM_write32_bind (hwrite true) ?_
    rw [does_delayUs_bind]
    refine does_forM_write32_bind (hwrite false) ?_
    simp

theorem waitLsr_does {ok : U32 → U64 → Prop} (uart : Uart) (mask : U32) (timeoutUs : ℕ) :
    (waitLsr uart mask timeoutUs).Does ok Waited := by
  induction timeoutUs with
  | zero => simp [waitLsr, Waited]
  | succ timeoutUs ih =>
    rw [waitLsr, does_read32_bind]
    intro lsr
    split_ifs
    · simp [Waited]
    · simpa using ih

theorem uartWriteLoop_does (uart : Uart) (timeoutUs : ℕ) (data : List U8) :
    (uartWriteLoop uart timeoutUs data).Does
      (fun _ addr => addr = uart.base + uartRbrThrDll) Waited := by
  induction data with
  | nil => simp [uartWriteLoop, Waited]
  | cons byte data ih =>
    refine (waitLsr_does uart _ timeoutUs).bind fun gaveUp ret hret => ?_
    rcases hret with ⟨rfl, hno⟩ | ⟨rfl, hyes⟩
    · simpa [hno] using ih
    · simp [Waited, hyes]

theorem uartWrite_calls (device : Option Uart) (data : List U8) (timeoutUs : ℕ) :
    Calls (device.filter (·.ops)) (fun _ => True) (-1)
      (fun uart _ addr => addr = uart.base + uartRbrThrDll) (fun _ => Waited)
      (uartWrite device data timeoutUs) where
  refused h := by
    unfold uartWrite
    split
    · rfl
    · rename_i uart huart
      exact absurd trivial (h uart huart)
  accepted uart huart _ := by
    rw [uartWrite, Option.mem_def.mp huart]
    exact uartWriteLoop_does uart timeoutUs data

theorem uartReadLoop_does {ok : U32 → U64 → Prop} (uart : Uart) (capacity : ℕ) :
    (uartReadLoop uart capacity).Does ok fun gaveUp data => ¬ gaveUp ∧ data.length ≤ capacity := by
  induction capacity with
  | zero => simp [uartReadLoop]
  | succ capacity ih =>
    rw [uartReadLoop, does_read32_bind]
    intro lsr
    split_ifs
    · simp
    · rw [does_read32_bind]
      refine fun word => ih.bind fun gaveUp data hdata => ?_
      simp [hdata.1, hdata.2]

theorem uartRead_calls (device : Option Uart) (capacity timeoutUs : ℕ) :
    Calls (device.filter (·.ops)) (fun _ => capacity ≠ 0) (-1, []) (fun _ _ _ => False)
      (fun _ => Polled (·.length ≤ capacity) []) (uartRead device capacity timeoutUs) where
  refused h := by
    unfold uartRead
    split
    · rfl
    · rename_i uart huart
      rw [if_pos (not_not.mp (h uart huart))]
  accepted uart huart hcapacity := by
    rw [uartRead, Option.mem_def.mp huart]
    dsimp only
    rw [if_neg hcapacity]
    refine (waitLsr_does uart _ timeoutUs).bind fun gaveUp ret hret => ?_
    rcases hret with ⟨rfl, hno⟩ | ⟨rfl, hyes⟩
    · refine (uartReadLoop_does uart capacity).bind fun later data hdata => ?_
      rw [does_pure]
      exact ⟨.met (by simp [hno, hdata.1]), fun h => absurd rfl h, hdata.2⟩
    · simp only [ne_eq, show ¬ (-2 : Int) = 0 by decide, not_false_eq_true, if_true, does_pure]
      exact ⟨.expired (.inl hyes), fun _ => rfl, Nat.zero_le _⟩

/-- A transfer on I2C goes through, gives up, or is not acknowledged. -/
def I2cStatus (status : Int) : Prop := status = 0 ∨ status = -2 ∨ status = -3

theorem waitIpd_does (i2c : I2c) (desired : U32) (timeoutUs : ℕ) (ipd : U32) :
    (waitIpd i2c desired timeoutUs ipd).Does (Controller.i2c7.At i2c.base)
      fun _ r => I2cStatus r.1 := by
  induction timeoutUs using Nat.strong_induction_on generalizing ipd with
  | _ timeoutUs ih =>
    have hnext (hzero : timeoutUs ≠ 0) : (if 5 < timeoutUs then timeoutUs - 5 else 0) < timeoutUs := by
      split_ifs <;> omega
    rw [waitIpd]
    by_cases hzero : timeoutUs = 0
    · simp [hzero, I2cStatus]
    rw [if_neg hzero, does_read32_bind]
    intro ipd
    by_cases hnak : ipd &&& intNak ≠ 0
    · rw [if_pos hnak, does_write32_bind, does_pure]
      exact ⟨Controller.at_add (by decide) _ _, .inr (.inr rfl)⟩
    rw [if_neg hnak]
    by_cases hseen : ipd &&& desired ≠ 0
    · rw [if_pos hseen, does_pure]
      exact .inl rfl
    · rw [if_neg hseen, does_delayUs_bind]
      exact ih _ (hnext hzero) ipd

theorem stopBus_does (i2c : I2c) (timeoutUs : ℕ) :
    (stopBus i2c timeoutUs).Does (Controller.i2c7.At i2c.base) fun _ _ => True := by
  have hien (value : U32) : Controller.i2c7.At i2c.base value (i2c.base + i2cIen) :=
    Controller.at_add (by decide) _ _
  have hcon (value : U32) : Controller.i2c7.At i2c.base value (i2c.base + i2cCon) :=
    Controller.at_add (by decide) _ _
  have hipd (value : U32) : Controller.i2c7.At i2c.base value (i2c.base + i2cIpd) :=
    Controller.at_add (by decide) _ _
  simp only [stopBus, does_write32_bind, does_read32_bind, hien, hcon, true_and]
  refine fun con => (waitIpd_does i2c _ _ _).bind fun gaveUp r _ => ?_
  split_ifs <;> simp [hien, hcon, hipd]

theorem endTransfer_does (i2c : I2c) (timeoutUs : ℕ) {ret : Int} (h : I2cStatus ret) :
    (endTransfer i2c timeoutUs ret).Does (Controller.i2c7.At i2c.base) fun _ => I2cStatus := by
  refine (stopBus_does i2c timeoutUs).bind fun gaveUp stopped _ => ?_
  rw [does_pure]
  split_ifs
  · exact .inr (.inl rfl)
  · exact h

theorem i2cWrite_calls (device : Option I2c) (address : U8) (data : List U8) (timeoutUs : ℕ) :
    Calls (device.filter (·.ops))
      (fun _ => ¬ (0x7f#8 < address ∨ data.length = 0 ∨ 31 < data.length)) (-1)
      (fun i2c => Controller.i2c7.At i2c.base) (fun _ _ => I2cStatus)
      (i2cWrite device address data timeoutUs) where
  refused h := by
    unfold i2cWrite
    split
    · rfl
    · rename_i i2c hi2c
      rw [if_pos (not_not.mp (h i2c hi2c))]
  accepted i2c hi2c hargs := by
    have hat {offset : U64} (h : offset ∈ Controller.i2c7.registers) (value : U32) :=
      Controller.at_add h i2c.base value
    rw [i2cWrite, Option.mem_def.mp hi2c]
    dsimp only
    rw [if_neg hargs, does_write32_bind]
    refine ⟨hat (by decide) _, ?_⟩
    refine does_forM_write32_bind (fun index hindex => ?_) ?_
    · have hlt : index < 8 := List.mem_range.mp ((List.takeWhile_sublist _).mem hindex)
      rw [BitVec.add_assoc]
      refine hat ?_ _
      simp only [Controller.registers, List.mem_append, List.mem_map, List.mem_range]
      exact .inl (.inr ⟨index, hlt, rfl⟩)
    simp only [does_write32_bind]
    refine ⟨hat (by decide) _, hat (by decide) _, hat (by decide) _, ?_⟩
    refine (waitIpd_does i2c _ _ _).bind fun gaveUp r hr => ?_
    split_ifs
    · rw [does_write32_bind]
      exact ⟨hat (by decide) _, endTransfer_does i2c timeoutUs hr⟩
    · exact endTransfer_does i2c timeoutUs hr

theorem rxLoop_does {ok : U32 → U64 → Prop} (i2c : I2c) (word : U32) (index remaining : ℕ) :
    (rxLoop i2c word index remaining).Does ok fun _ data => data.length = remaining := by
  induction remaining generalizing word index with
  | zero => simp [rxLoop]
  | succ remaining ih =>
    have hrest (word word' : U32) := (ih word (index + 1)).bind
      (f := fun data => pure ((word' >>> (index % 4 * 8) &&& 0xff).setWidth 8 :: data))
      (R := fun _ data => data.length = remaining + 1) fun _ data hdata => by simp [hdata]
    rw [rxLoop]
    split_ifs
    · rw [does_read32_bind]
      exact fun word => hrest word word
    · exact Does.bind (Q := fun _ a => a = word) (by simp) fun _ a ha => ha ▸ hrest a a

theorem readCommon_calls (device : Option I2c) (address : U8) (prefixBytes : List U8)
    (length timeoutUs : ℕ) :
    Calls (device.filter (·.ops))
      (fun _ => ¬ (0x7f#8 < address ∨ length = 0 ∨ 32 < length ∨ 3 < prefixBytes.length)) (-1, [])
      (fun i2c => Controller.i2c7.At i2c.base)
      (fun _ _ r => I2cStatus r.1 ∧ r.2.length ≤ length)
      (readCommon device address prefixBytes length timeoutUs) where
  refused h := by
    unfold readCommon
    split
    · rfl
    · rename_i i2c hi2c
      rw [if_pos (not_not.mp (h i2c hi2c))]
  accepted i2c hi2c hargs := by
    have hat {offset : U64} (h : offset ∈ Controller.i2c7.registers) (value : U32) :=
      Controller.at_add h i2c.base value
    rw [readCommon, Option.mem_def.mp hi2c]
    dsimp only
    rw [if_neg hargs]
    simp only [does_write32_bind]
    refine ⟨hat (by decide) _, hat (by decide) _, hat (by decide) _, hat (by decide) _,
      hat (by decide) _, hat (by decide) _, ?_⟩
    refine (waitIpd_does i2c _ _ _).bind fun gaveUp r hr => ?_
    split_ifs
    · refine (rxLoop_does i2c 0 0 length).bind fun _ data hdata => ?_
      rw [does_write32_bind]
      refine ⟨hat (by decide) _, (endTransfer_does i2c timeoutUs hr).bind fun _ ret hret => ?_⟩
      rw [does_pure]
      exact ⟨hret, hdata.le⟩
    · refine (endTransfer_does i2c timeoutUs hr).bind fun _ ret hret => ?_
      rw [does_pure]
      exact ⟨hret, Nat.zero_le _⟩

theorem waitStatus_does {ok : U32 → U64 → Prop} (spi : Spi) (mask : U32) (wantSet : Bool)
    (timeoutUs : ℕ) : (waitStatus spi mask wantSet timeoutUs).Does ok Waited := by
  induction timeoutUs with
  | zero => simp [waitStatus, Waited]
  | succ timeoutUs ih =>
    rw [waitStatus, does_read32_bind]
    intro sr
    split_ifs
    · simp [Waited]
    · simpa using ih

theorem spiSetMode_calls (device : Option Spi) (mode : U32) :
    Calls (device.filter (·.ops)) (fun _ => ¬ 3#32 < mode) (-1, device)
      (fun spi => Controller.spi0.At spi.base)
      (fun spi gaveUp r => ¬ gaveUp ∧ ∃ ctrlr0, r = (0, some { spi with ctrlr0 := ctrlr0 }))
      (spiSetMode device mode) where
  refused h := by
    unfold spiSetMode
    split
    · rfl
    · rename_i spi hspi
      rw [if_pos (not_not.mp (h spi hspi))]
  accepted spi hspi hmode := by
    rw [spiSetMode, Option.mem_def.mp hspi]
    dsimp only
    rw [if_neg hmode, does_write32_bind, does_pure]
    exact ⟨Controller.at_add (by decide) _ _, id, _, rfl⟩

theorem spiLoop_does (spi : Spi) (timeoutUs : ℕ) (tx : List U8) :
    (spiLoop spi timeoutUs tx).Does (Controller.spi0.At spi.base) fun gaveUp rx =>
      (rx = none ↔ gaveUp) ∧ ∀ data ∈ rx, data.length = tx.length := by
  induction tx with
  | nil => simp [spiLoop]
  | cons byte tx ih =>
    refine (waitStatus_does spi _ _ timeoutUs).bind fun gaveUp ret hret => ?_
    rcases hret with ⟨rfl, hno⟩ | ⟨rfl, hyes⟩
    · simp only [ne_eq, not_true_eq_false, if_false, does_write32_bind]
      refine ⟨Controller.at_add (by decide) _ _, ?_⟩
      refine (waitStatus_does spi _ _ timeoutUs).bind fun later ret hret => ?_
      rcases hret with ⟨rfl, hno'⟩ | ⟨rfl, hyes⟩
      · simp only [not_true_eq_false, if_false, does_read32_bind]
        refine fun word => ih.bind fun last rx hrx => ?_
        rw [does_pure]
        refine ⟨by simp [hrx.1, hno, hno'], fun data hdata => ?_⟩
        obtain ⟨rest, hrest, rfl⟩ := Option.mem_map.mp hdata
        simp [hrx.2 rest hrest]
      · simp [hyes]
    · simp [hyes]

theorem spiExchange_does (spi : Spi) (tx : List U8) (timeoutUs : ℕ) :
    (spiExchange spi tx timeoutUs).Does (Controller.spi0.At spi.base)
      (Polled (·.length ≤ tx.length) []) := by
  refine (spiLoop_does spi timeoutUs tx).bind fun gaveUp rx hrx => ?_
  cases rx with
  | none =>
    rw [does_pure]
    exact ⟨.expired (.inl (hrx.1.mp rfl)), fun _ => rfl, Nat.zero_le _⟩
  | some data =>
    have hno : ¬ gaveUp := fun h => by cases hrx.1.mpr h
    refine (waitStatus_does spi _ _ timeoutUs).bind fun later ret hret => ?_
    rw [does_pure]
    rcases hret with ⟨rfl, hno'⟩ | ⟨rfl, hyes⟩
    · exact ⟨.met (by simp [hno, hno']), fun h => absurd rfl h, (hrx.2 data rfl).le⟩
    · exact ⟨.expired (by simp [hyes]), fun _ => rfl, Nat.zero_le _⟩

theorem spiTransfer_calls (device : Option Spi) (chipSelect : U32) (tx : List U8)
    (timeoutUs : ℕ) :
    Calls (device.filter (·.ops))
      (fun _ => ¬ (1#32 < chipSelect ∨ tx.length = 0 ∨ 65535 < tx.length)) (-1, [])
      (fun spi => Controller.spi0.At spi.base) (fun _ => Polled (·.length ≤ tx.length) [])
      (spiTransfer device chipSelect tx timeoutUs) where
  refused h := by
    unfold spiTransfer
    split
    · rfl
    · rename_i spi hspi
      rw [if_pos (not_not.mp (h spi hspi))]
  accepted spi hspi hargs := by
    have hat {offset : U64} (h : offset ∈ Controller.spi0.registers) (value : U32) :=
      Controller.at_add h spi.base value
    rw [spiTransfer, Option.mem_def.mp hspi]
    dsimp only
    rw [if_neg hargs]
    simp only [does_write32_bind]
    refine ⟨hat (by decide) _, hat (by decide) _, hat (by decide) _, hat (by decide) _,
      hat (by decide) _, hat (by decide) _, hat (by decide) _, hat (by decide) _, ?_⟩
    refine (spiExchange_does spi tx timeoutUs).bind fun gaveUp r hr => ?_
    simp only [does_write32_bind, does_pure, or_false]
    exact ⟨hat (by decide) _, hat (by decide) _, hr⟩

theorem pwmSet_calls (device : Option Pwm) (periodNs dutyNs : U32) (inverted : Bool) :
    Calls (device.filter (·.ops)) (fun pwm => PwmAccepts pwm.clockHz periodNs dutyNs) (-1)
      (fun pwm => Controller.pwm7.At pwm.base) (fun _ gaveUp status => ¬ gaveUp ∧ status = 0)
      (pwmSet device periodNs dutyNs inverted) where
  refused h := by
    unfold pwmSet
    split
    · rfl
    · rename_i pwm hpwm
      dsimp only
      split
      · rfl
      · rename_i hargs
        refine if_pos (not_not.mp fun hticks => h pwm hpwm ?_)
        exact (pwmAccepts_iff _ _ _).mpr ⟨hargs, hticks⟩
  accepted pwm hpwm hargs := by
    have hat {offset : U64} (h : offset ∈ Controller.pwm7.registers) (value : U32) :=
      Controller.at_add h pwm.base value
    rw [pwmSet, Option.mem_def.mp hpwm]
    dsimp only
    rw [pwmAccepts_iff] at hargs
    rw [if_neg hargs.1, if_neg hargs.2]
    simp only [does_read32_bind, does_write32_bind, does_delayUs_bind, does_pure]
    exact fun ctrl => ⟨hat (by decide) _, hat (by decide) _, hat (by decide) _, hat (by decide) _,
      id, trivial⟩

theorem pwmStop_calls (device : Option Pwm) :
    Calls (device.filter (·.ops)) (fun _ => True) (-1) (fun pwm => Controller.pwm7.At pwm.base)
      (fun _ gaveUp status => ¬ gaveUp ∧ status = 0) (pwmStop device) where
  refused h := by
    unfold pwmStop
    split
    · rfl
    · rename_i pwm hpwm
      exact absurd trivial (h pwm hpwm)
  accepted pwm hpwm _ := by
    rw [pwmStop, Option.mem_def.mp hpwm]
    simp only [does_read32_bind, does_write32_bind, does_pure]
    exact fun ctrl => ⟨Controller.at_add (by decide) _ _, id, trivial⟩

theorem saradcWait_does {ok : U32 → U64 → Prop} (adc : Saradc) (timeoutUs : ℕ) :
    (saradcWait adc timeoutUs).Does ok fun gaveUp complete => complete = false ↔ gaveUp := by
  induction timeoutUs with
  | zero => simp [saradcWait]
  | succ timeoutUs ih =>
    rw [saradcWait, does_read32_bind]
    intro status
    split_ifs
    · simp
    · simpa using ih

theorem saradcRead_calls (device : Option Saradc) (channel : U32) (timeoutUs : ℕ) :
    Calls (device.filter (·.ops)) (fun _ => ¬ 8#32 ≤ channel) (-1, 0)
      (fun adc => Controller.saradc.At adc.base) (fun _ => Polled (· ≤ 0xfff) 0)
      (saradcRead device channel timeoutUs) where
  refused h := by
    unfold saradcRead
    split
    · rfl
    · rename_i adc hadc
      rw [if_pos (not_not.mp (h adc hadc))]
  accepted adc hadc hchannel := by
    have hat {offset : U64} (h : offset ∈ Controller.saradc.registers) (value : U32) :=
      Controller.at_add h adc.base value
    rw [saradcRead, Option.mem_def.mp hadc]
    dsimp only
    rw [if_neg hchannel]
    simp only [does_write32_bind]
    refine ⟨hat (by decide) _, hat (by decide) _, hat (by decide) _, ?_⟩
    refine (saradcWait_does adc timeoutUs).bind fun gaveUp complete hcomplete => ?_
    cases complete with
    | false =>
      rw [if_pos (by rfl), does_pure]
      exact ⟨.expired (.inl (hcomplete.mp rfl)), fun _ => rfl, by decide⟩
    | true =>
      have hno : ¬ gaveUp := fun h => by cases hcomplete.mpr h
      rw [if_neg (by decide)]
      simp only [does_read32_bind, does_write32_bind, does_pure]
      refine fun value => ⟨hat (by decide) _, hat (by decide) _, .met (by simp [hno]),
        fun h => absurd rfl h, ?_⟩
      show value &&& 0xfff ≤ 0xfff
      rw [BitVec.le_def, BitVec.toNat_and]
      exact Nat.and_le_right

end Lzamp.Cpu3
