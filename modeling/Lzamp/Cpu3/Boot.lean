import Lzamp.Cpu3.ClockTree
import Lzamp.Cpu3.GpioShadow
import Lzamp.Cpu3.HardwareOwnership

namespace Lzamp.Cpu3
open Mailmsg Lib Lib.Bus Lib.Hiword

structure Pinctrl where
  iocBase : U64
  ops : Bool

def gpio3CIomuxLow : U64 := 0x8070
def gpio3CIomuxHigh : U64 := 0x8074
def gpio0DIomuxPmu2 : U64 := 0x400c
def gpio0DIomuxBus : U64 := 0x8018

def muxWord (nibble function : U32) : U32 :=
  let shift := nibble * 4
  let mask := 0xf#32 <<< shift
  mask <<< 16 ||| function <<< shift

def muxNibble (pinctrl : Pinctrl) (offset : U64) (nibble function : U32) : Mmio Unit :=
  write32 (muxWord nibble function) (pinctrl.iocBase + offset)

/-- `ops` says whether the write function is given. -/
def pinctrlInit (device : Option Pinctrl) (iocBase : U64) (ops : Bool) : Int × Option Pinctrl :=
  match device with
  | none => (-1, none)
  | some pinctrl => if !ops then (-1, some pinctrl) else (0, some ⟨iocBase, ops⟩)

def pinctrlUart5 (device : Option Pinctrl) : Mmio Int :=
  match device.filter (·.ops) with
  | none => pure (-1)
  | some pinctrl => do
    muxNibble pinctrl gpio3CIomuxHigh 0 10
    muxNibble pinctrl gpio3CIomuxHigh 1 10
    pure 0

def pinctrlUart7 (device : Option Pinctrl) : Mmio Int :=
  match device.filter (·.ops) with
  | none => pure (-1)
  | some pinctrl => do
    muxNibble pinctrl gpio3CIomuxLow 0 10
    muxNibble pinctrl gpio3CIomuxLow 1 10
    pure 0

/-- `enum lzamp_rk3588_pin_profile`; `invalid` is any other number. -/
inductive PinProfile where
  | i2c7Gpio
  | spi0
  | invalid

def pinctrlProfile (device : Option Pinctrl) (profile : PinProfile) : Mmio Int :=
  match device.filter (·.ops), profile with
  | none, _ => pure (-1)
  | some pinctrl, .i2c7Gpio => do
    muxNibble pinctrl gpio3DIomuxLow 2 9
    muxNibble pinctrl gpio3DIomuxLow 3 9
    pure 0
  | some pinctrl, .spi0 => do
    muxNibble pinctrl gpio3DIomuxLow 1 8
    muxNibble pinctrl gpio3DIomuxLow 2 8
    muxNibble pinctrl gpio3DIomuxLow 3 8
    muxNibble pinctrl gpio3DIomuxHigh 0 8
    muxNibble pinctrl gpio3DIomuxHigh 1 8
    pure 0
  | some _, .invalid => pure (-1)

def pinctrlPwm7 (device : Option Pinctrl) : Mmio Int :=
  match device.filter (·.ops) with
  | none => pure (-1)
  | some pinctrl => do
    muxNibble pinctrl gpio0DIomuxPmu2 0 8
    muxNibble pinctrl gpio0DIomuxBus 0 11
    pure 0

def pwmInit (device : Option Pwm) (base : U64) (ops : Bool) (clockHz : U32) :
    Mmio (Int × Option Pwm) :=
  if device.isNone ∨ ops = false ∨ clockHz = 0 then pure (-1, device)
  else do
    let pwm := some ⟨base, ops, clockHz⟩
    let ret ← pwmStop pwm
    pure (ret, pwm)

def saradcTPdSoc : U64 := 0x004
def saradcTDasSoc : U64 := 0x00c

def saradcInit (device : Option Saradc) (base : U64) (ops : Bool) : Mmio (Int × Option Saradc) :=
  if device.isNone ∨ ops = false then pure (-1, device)
  else do
    write32 0x20 (base + saradcTPdSoc)
    write32 0x0c (base + saradcTDasSoc)
    write32 saradcEndBit (base + saradcEndIntSt)
    pure (0, some ⟨base, ops⟩)

/-- `a | b` on the C type `int`. -/
def orInt (a b : Int) : Int := (BitVec.ofInt 32 a ||| BitVec.ofInt 32 b).toInt

def orAll (rets : List Int) : Int := rets.foldl orInt 0

theorem orAll_zero {rets : List Int} (h : ∀ ret ∈ rets, ret = 0) : orAll rets = 0 := by
  have hor : orInt 0 0 = 0 := by decide
  unfold orAll
  induction rets with
  | nil => rfl
  | cons ret rets ih =>
    rw [List.foldl_cons, h ret List.mem_cons_self, hor]
    exact ih fun ret' hmem => h ret' (List.mem_cons_of_mem ret hmem)

def PeripheralService.zero : PeripheralService :=
  ⟨none, none, none, none, none, none, none, none, false⟩

/-- The part that depends on `LZAMP_BUILD_PIN_PROFILE_SPI0`.  The devices of the other profile are
not touched. -/
def profileInitialize (map : MemoryMap) (cru : Option Cru) (reset : Option ResetController)
    (pinctrl : Option Pinctrl) (spiProfile : Bool) :
    Option (Mmio (Int × Option Gpio3 × Option I2c × Option Spi)) :=
  if spiProfile then
    (spiInit (some ⟨0, false, 0, 0⟩) (map.base .spi0) true 24000000 1000000 0).map fun init => do
      let r₁ ← peripheralClockEnable cru .spi0
      let r₂ ← resetPulse reset .spi0
      let r₃ ← pinctrlProfile pinctrl .spi0
      let (r₄, spi0) ← init
      pure (orAll [r₁, r₂, r₃, r₄], some ⟨0, 0, false, 0⟩, some ⟨0, false⟩, spi0)
  else
    (i2cInit (some ⟨0, false⟩) (map.base .i2c7) true 100000000 100000).map fun init => do
      let r₁ ← peripheralClockEnable cru .i2c7
      let r₂ ← resetPulse reset .i2c7
      let r₃ ← pinctrlProfile pinctrl .i2c7Gpio
      let (r₄, i2c7) ← init
      let gpio ← gpio3PrepareOwnedLinesAsInputs (some ⟨0, 0, false, 0⟩) (map.base .gpio3)
        (map.base .ioc)
      pure (orAll [r₁, r₂, r₃, r₄], gpio, i2c7, some ⟨0, false, 0, 0⟩)

/-- The static devices are zero before.  Nothing when a division by zero would stop it. -/
def peripheralsInitialize (map : MemoryMap) (spiProfile : Bool) :
    Option (Mmio (Int × PeripheralService)) :=
  let (r₁, cru) := cruInit (some ⟨0, false⟩) (map.base .cru) true
  let (r₂, reset) := resetInit (some ⟨0, false⟩) (map.base .cru) true
  let (r₃, pinctrl) := pinctrlInit (some ⟨0, false⟩) (map.base .ioc) true
  let ret := orAll [r₁, r₂, r₃]
  if ret ≠ 0 then some (pure (ret, .zero))
  else do
    let uart5Init ← uartInit (some ⟨0, false⟩) (map.base .uart5) true 24000000 115200
    let uart7Init ← uartInit (some ⟨0, false⟩) (map.base .uart7) true 24000000 115200
    let profile ← profileInitialize map cru reset pinctrl spiProfile
    some (do
      let r₁ ← peripheralClockEnable cru .uart5
      let r₂ ← resetPulse reset .uart5
      let r₃ ← pinctrlUart5 pinctrl
      let (r₄, uart5) ← uart5Init
      let r₅ ← peripheralClockEnable cru .uart7
      let r₆ ← resetPulse reset .uart7
      let r₇ ← pinctrlUart7 pinctrl
      let (r₈, uart7) ← uart7Init
      let (r₉, gpio, i2c7, spi0) ← profile
      let r₁₀ ← peripheralClockEnable cru .pwm1
      let r₁₁ ← resetPulse reset .pwm1
      let (r₁₂, pwm7) ← pwmInit (some ⟨0, false, 0⟩) (map.base .pwm7) true 24000000
      let r₁₃ ← pinctrlPwm7 pinctrl
      let r₁₄ ← peripheralClockEnable cru .saradc
      let r₁₅ ← resetPulse reset .saradc
      let (r₁₆, saradc) ← saradcInit (some ⟨0, false⟩) (map.base .saradc) true
      pure (orAll [r₁, r₂, r₃, r₄, r₅, r₆, r₇, r₈, r₉, r₁₀, r₁₁, r₁₂, r₁₃, r₁₄, r₁₅, r₁₆],
        ⟨gpio, uart5, uart7, i2c7, spi0, pwm7, saradc, reset, spiProfile⟩))

/-- A pin of the IOC: the word and the nibble of its mux, and the function it is given. -/
structure Pin where
  offset : U64
  nibble : U32
  function : U32
deriving DecidableEq

/-- The writes that give pins their functions, in an IOC at address 0. -/
def pinWrites (pins : List Pin) : List (BusEvent U64 U32) :=
  pins.map fun pin => .write (muxWord pin.nibble pin.function) pin.offset

/-- Whatever it reads, `p` returns `v`, and it leaves in the CRU what `calls` leave there and in the
IOC what it takes to mux `pins`. -/
structure Gives {α : Type} (map : MemoryMap) (p : Mmio α) (v : α) (calls : List CruCall)
    (pins : List Pin) : Prop where
  value : ∀ reads, (p.run reads).value = v
  cru : ∀ reads (offset : U64) i, offset.toNat < Controller.size .cru →
    lastGiven (map.base .cru + offset) i (p.run reads).events =
      lastGiven offset i (calls.flatMap CruCall.events)
  ioc : ∀ reads (offset : U64) i, offset.toNat < Controller.size .ioc →
    lastGiven (map.base .ioc + offset) i (p.run reads).events = lastGiven offset i (pinWrites pins)

section Gives

variable {α β : Type} {map : MemoryMap}

theorem gives_pure (v : α) : Gives map (pure v) v [] [] :=
  ⟨fun _ => rfl, fun _ _ _ _ => rfl, fun _ _ _ _ => rfl⟩

theorem gives_pure_of {v w : α} (h : v = w) : Gives map (pure v) w [] [] := h ▸ gives_pure v

theorem Gives.bind {p : Mmio α} {f : α → Mmio β} {v : α} {w : β} {calls calls' : List CruCall}
    {pins pins' : List Pin} (hp : Gives map p v calls pins) (hf : Gives map (f v) w calls' pins') :
    Gives map (p >>= f) w (calls ++ calls') (pins ++ pins') where
  value reads := by
    rw [run_bind]
    dsimp only
    rw [hp.value reads]
    exact hf.value _
  cru reads offset i hoffset := by
    rw [run_bind]
    dsimp only
    rw [hp.value reads, lastGiven_append, hp.cru reads offset i hoffset, hf.cru _ offset i hoffset,
      List.flatMap_append, lastGiven_append]
  ioc reads offset i hoffset := by
    rw [run_bind]
    dsimp only
    rw [hp.value reads, lastGiven_append, hp.ioc reads offset i hoffset, hf.ioc _ offset i hoffset,
      pinWrites, pinWrites, pinWrites, List.map_append, lastGiven_append]

theorem Gives.congr {p : Mmio α} {v : α} {calls calls' : List CruCall} {pins pins' : List Pin}
    (h : Gives map p v calls pins) (hcalls : calls = calls') (hpins : pins = pins') :
    Gives map p v calls' pins' := by
  subst hcalls hpins
  exact h

theorem lastGiven_window {c c' : Controller} (hne : c' ≠ c) {es : List (BusEvent U64 U32)}
    (hes : ∀ word addr, .write word addr ∈ es → map.Reaches c' addr) {offset : U64}
    (hoffset : offset.toNat < c.size) (i : ℕ) : lastGiven (map.base c + offset) i es = none := by
  refine lastGiven_eq_none fun word addr hmem haddr => ?_
  have hreach := hes word addr hmem
  rw [haddr] at hreach
  exact absurd (hreach.unique (map.reaches_add hoffset)) hne

theorem Gives.of_writesOnly {p : Mmio α} {v : α} {c : Controller} (hcru : c ≠ .cru)
    (hioc : c ≠ .ioc) (hvalue : ∀ reads, (p.run reads).value = v)
    (hwrites : p.WritesOnly fun _ addr => map.Reaches c addr) : Gives map p v [] [] where
  value := hvalue
  cru reads _ i hoffset := lastGiven_window hcru (hwrites reads) hoffset i
  ioc reads _ i hoffset := lastGiven_window hioc (hwrites reads) hoffset i

theorem Leaf.offset_lt {leaf : Leaf} {b : CruBit} (hb : b ∈ leaf.bits) :
    b.offset.toNat < Controller.size .cru := by
  have h : ∀ b ∈ leaf.bits, b.offset.toNat < Controller.size .cru := by cases leaf <;> decide
  exact h b hb

theorem gives_cruCall (call : CruCall) {leaf : Leaf} (hleaf : call.leaf = some leaf) :
    Gives map (call.exec (some ⟨map.base .cru, true⟩) (some ⟨map.base .cru, true⟩)) 0
      [call] [] where
  value reads := by
    obtain peripheral | peripheral | peripheral := call <;> cases peripheral <;>
      first | rfl | cases hleaf
  cru reads offset i _ := by
    rw [(call.run_exec _ reads).1, lastGiven_relocate (add_right_injective _),
      List.flatMap_singleton]
  ioc reads offset i hoffset := by
    refine lastGiven_eq_none fun word addr hmem haddr => ?_
    rw [(call.run_exec _ reads).1] at hmem
    obtain ⟨e, he, heq⟩ := List.mem_map.mp hmem
    cases e with
    | write word' offset' =>
      obtain ⟨rfl, rfl⟩ := BusEvent.write.inj heq
      by_contra hbit
      rw [Bool.not_eq_false] at hbit
      -- A bit that is selected belongs to the CRU.
      have hi : i < 16 := by
        have := BitVec.lt_of_getLsbD hbit
        omega
      have hsel : ⟨offset', i⟩ ∈ selected (.write word' offset') :=
        List.mem_filterMap.mpr ⟨i, List.mem_range.mpr hi, if_pos hbit⟩
      have hreach : map.Reaches .cru (map.base .cru + offset') :=
        map.reaches_add (Leaf.offset_lt (CruCall.selected_subset hleaf _ he _ hsel))
      rw [show map.base .cru + offset' = _ from haddr] at hreach
      cases hreach.unique (map.reaches_add hoffset)
    | read => cases heq
    | delay => cases heq
    | expire => cases heq

theorem gives_muxWrite (pin : Pin) (h : pin.offset.toNat < Controller.size .ioc) :
    Gives map (write32 (muxWord pin.nibble pin.function) (map.base .ioc + pin.offset)) ()
      [] [pin] where
  value _ := rfl
  cru reads offset i hoffset := by
    refine lastGiven_window (by decide : Controller.ioc ≠ .cru) ?_ hoffset i
    intro word addr hmem
    obtain ⟨-, rfl⟩ := BusEvent.write.inj (List.mem_singleton.mp hmem)
    exact map.reaches_add h
  ioc reads offset i _ := lastGiven_relocate (add_right_injective _) offset i (pinWrites [pin])

theorem gives_muxNibble {offset : U64} (h : offset.toNat < Controller.size .ioc)
    (nibble function : U32) :
    Gives map (muxNibble ⟨map.base .ioc, true⟩ offset nibble function) ()
      [] [⟨offset, nibble, function⟩] :=
  gives_muxWrite ⟨offset, nibble, function⟩ h

def uart5Pins : List Pin := [⟨gpio3CIomuxHigh, 0, 10⟩, ⟨gpio3CIomuxHigh, 1, 10⟩]
def uart7Pins : List Pin := [⟨gpio3CIomuxLow, 0, 10⟩, ⟨gpio3CIomuxLow, 1, 10⟩]
def i2c7Pins : List Pin := [⟨gpio3DIomuxLow, 2, 9⟩, ⟨gpio3DIomuxLow, 3, 9⟩]
def gpioPins : List Pin := [⟨gpio3DIomuxLow, 1, 0⟩, ⟨gpio3DIomuxHigh, 0, 0⟩, ⟨gpio3DIomuxHigh, 1, 0⟩]
def spi0Pins : List Pin :=
  [⟨gpio3DIomuxLow, 1, 8⟩, ⟨gpio3DIomuxLow, 2, 8⟩, ⟨gpio3DIomuxLow, 3, 8⟩,
    ⟨gpio3DIomuxHigh, 0, 8⟩, ⟨gpio3DIomuxHigh, 1, 8⟩]
def pwm7Pins : List Pin := [⟨gpio0DIomuxPmu2, 0, 8⟩, ⟨gpio0DIomuxBus, 0, 11⟩]

theorem gives_pinctrlUart5 : Gives map (pinctrlUart5 (some ⟨map.base .ioc, true⟩)) 0 [] uart5Pins :=
  .bind (gives_muxNibble (by decide) 0 10) (.bind (gives_muxNibble (by decide) 1 10) (gives_pure 0))

theorem gives_pinctrlUart7 : Gives map (pinctrlUart7 (some ⟨map.base .ioc, true⟩)) 0 [] uart7Pins :=
  .bind (gives_muxNibble (by decide) 0 10) (.bind (gives_muxNibble (by decide) 1 10) (gives_pure 0))

theorem gives_pinctrlI2c7 :
    Gives map (pinctrlProfile (some ⟨map.base .ioc, true⟩) .i2c7Gpio) 0 [] i2c7Pins :=
  .bind (gives_muxNibble (by decide) 2 9) (.bind (gives_muxNibble (by decide) 3 9) (gives_pure 0))

theorem gives_pinctrlSpi0 :
    Gives map (pinctrlProfile (some ⟨map.base .ioc, true⟩) .spi0) 0 [] spi0Pins :=
  .bind (gives_muxNibble (by decide) 1 8) (.bind (gives_muxNibble (by decide) 2 8)
    (.bind (gives_muxNibble (by decide) 3 8) (.bind (gives_muxNibble (by decide) 0 8)
      (.bind (gives_muxNibble (by decide) 1 8) (gives_pure 0)))))

theorem gives_pinctrlPwm7 : Gives map (pinctrlPwm7 (some ⟨map.base .ioc, true⟩)) 0 [] pwm7Pins :=
  .bind (gives_muxNibble (by decide) 0 8) (.bind (gives_muxNibble (by decide) 0 11) (gives_pure 0))

theorem uartInit_boot (base : U64) :
    uartInit (some ⟨0, false⟩) base true 24000000 115200 = some (do
      write32 0 (base + uartIerDlm)
      write32 (uartLcr8n1 ||| uartLcrDlab) (base + uartLcr)
      write32 13 (base + uartRbrThrDll)
      write32 0 (base + uartIerDlm)
      write32 uartLcr8n1 (base + uartLcr)
      write32 uartFcrEnableReset (base + uartIirFcr)
      pure (0, some ⟨base, true⟩)) := rfl

theorem i2cInit_boot (base : U64) :
    i2cInit (some ⟨0, false⟩) base true 100000000 100000 = some (do
      write32 0 (base + i2cCon)
      write32 0 (base + i2cIen)
      write32 intAll (base + i2cIpd)
      write32 0x003e003e (base + i2cClkdiv)
      pure (0, some ⟨base, true⟩)) := rfl

theorem spiInit_boot (base : U64) :
    spiInit (some ⟨0, false, 0, 0⟩) base true 24000000 1000000 0 = some (do
      write32 0 (base + spiSsienr)
      write32 0 (base + spiImr)
      write32 0 (base + spiDmacr)
      write32 1 (base + spiIcr)
      write32 0 (base + spiSsienr)
      pure (0, some ⟨base, true, 1#32 <<< 0 ||| 1#32 <<< 13, 24⟩)) := by
  have hdivide : divide (24000000 + 1000000 - 1) 1000000 = some 24 := by decide
  have hdivider : spiDivider 24 = 24 := by decide
  have hmode : (spiCr0Dfs8bit ||| spiCr0Bht8bit) &&& ~~~(spiCr0Cpha ||| spiCr0Cpol) =
      1#32 <<< 0 ||| 1#32 <<< 13 := by decide
  unfold spiInit
  rw [if_neg (by decide), hdivide, Option.map_some, hdivider, if_neg (by decide)]
  simp only [spiSetMode, Option.filter, if_true, if_neg (by decide : ¬ (3#32 < 0)),
    if_neg (by decide : ¬ ((0 : U32) &&& 2 ≠ 0)), if_neg (by decide : ¬ ((0 : U32) &&& 1 ≠ 0)),
    hmode]

theorem gives_deviceWrites (c : Controller) (hcru : c ≠ .cru) (hioc : c ≠ .ioc) (v : α)
    (writes : List (U32 × U64)) (h : writes.all (·.2.toNat < c.size) = true) :
    Gives map (writes.foldr (fun w rest => write32 w.1 (map.base c + w.2) >>= fun _ => rest)
      (pure v)) v [] [] := by
  induction writes with
  | nil => exact gives_pure v
  | cons w writes ih =>
    rw [List.all_cons, Bool.and_eq_true, decide_eq_true_eq] at h
    have hfirst : Gives map (write32 w.1 (map.base c + w.2)) () [] [] := by
      refine Gives.of_writesOnly hcru hioc (fun _ => rfl) ?_
      rw [writesOnly_write32]
      exact map.reaches_add h.1
    exact hfirst.bind (ih h.2)

theorem gives_uartInit (map : MemoryMap) (c : Controller) (hc : c = .uart5 ∨ c = .uart7) :
    ∃ init, uartInit (some ⟨0, false⟩) (map.base c) true 24000000 115200 = some init ∧
      Gives map init (0, some ⟨map.base c, true⟩) [] [] := by
  refine ⟨_, uartInit_boot _, ?_⟩
  refine gives_deviceWrites c ?_ ?_ _ [(0, uartIerDlm), (uartLcr8n1 ||| uartLcrDlab, uartLcr),
    (13, uartRbrThrDll), (0, uartIerDlm), (uartLcr8n1, uartLcr),
    (uartFcrEnableReset, uartIirFcr)] ?_
  all_goals obtain rfl | rfl := hc <;> decide

theorem gives_i2cInit (map : MemoryMap) :
    ∃ init, i2cInit (some ⟨0, false⟩) (map.base .i2c7) true 100000000 100000 = some init ∧
      Gives map init (0, some ⟨map.base .i2c7, true⟩) [] [] := by
  refine ⟨_, i2cInit_boot _, ?_⟩
  exact gives_deviceWrites .i2c7 (by decide) (by decide) _
    [(0, i2cCon), (0, i2cIen), (intAll, i2cIpd), (0x003e003e, i2cClkdiv)] (by decide)

theorem gives_spiInit (map : MemoryMap) :
    ∃ init, spiInit (some ⟨0, false, 0, 0⟩) (map.base .spi0) true 24000000 1000000 0 = some init ∧
      Gives map init (0, some ⟨map.base .spi0, true, 1#32 <<< 0 ||| 1#32 <<< 13, 24⟩) [] [] := by
  refine ⟨_, spiInit_boot _, ?_⟩
  exact gives_deviceWrites .spi0 (by decide) (by decide) _
    [(0, spiSsienr), (0, spiImr), (0, spiDmacr), (1, spiIcr), (0, spiSsienr)] (by decide)

theorem gives_pwmInit :
    Gives map (pwmInit (some ⟨0, false, 0⟩) (map.base .pwm7) true 24000000)
      (0, some ⟨map.base .pwm7, true, 24000000⟩) [] [] := by
  refine Gives.of_writesOnly (by decide : Controller.pwm7 ≠ .cru) (by decide) (fun _ => rfl) ?_
  show Bus.WritesOnly _ (pwmStop (some ⟨map.base .pwm7, true, 24000000⟩) >>= _)
  refine .bind ((pwmStop_calls _).writesOnly ?_) fun _ => writesOnly_pure _
  rintro pwm hpwm - word _ ⟨offset, hoffset, rfl⟩
  cases hpwm
  exact map.reaches_add (Controller.registers_lt hoffset)

theorem gives_saradcInit :
    Gives map (saradcInit (some ⟨0, false⟩) (map.base .saradc) true)
      (0, some ⟨map.base .saradc, true⟩) [] [] :=
  gives_deviceWrites .saradc (by decide) (by decide) _
    [(0x20, saradcTPdSoc), (0x0c, saradcTDasSoc), (saradcEndBit, saradcEndIntSt)] (by decide)

theorem gives_configureInput {line : U32} (hline : lineIsOwned line = true) (pin : Pin)
    (hoffset : (iomuxField line).1 = pin.offset)
    (hword : 0xf#32 <<< ((iomuxField line).2 + 16) = muxWord pin.nibble pin.function)
    (hpin : pin.offset.toNat < Controller.size .ioc) :
    Gives map (gpio3ConfigureInput (some ⟨map.base .gpio3, map.base .ioc, true, 0⟩) line)
      (gpio3Ok, some ⟨map.base .gpio3, map.base .ioc, true, 0⟩) [] [pin] := by
  have hzero : 0 &&& ~~~(1#32 <<< line) = 0 := BitVec.zero_and
  unfold gpio3ConfigureInput
  rw [filter_ops rfl, hline]
  dsimp only
  rw [hzero, selectGpioFunction, hoffset, hword]
  exact .bind (gives_muxWrite pin hpin)
    (gives_deviceWrites .gpio3 (by decide) (by decide) _ [(maskedBit line false, gpioDdrHigh)] rfl)

theorem gives_gpio3Prepare :
    Gives map (gpio3PrepareOwnedLinesAsInputs (some ⟨0, 0, false, 0⟩) (map.base .gpio3)
      (map.base .ioc)) (some ⟨map.base .gpio3, map.base .ioc, true, 0⟩) [] gpioPins :=
  .bind (gives_configureInput (by decide) ⟨gpio3DIomuxLow, 1, 0⟩ rfl (by decide) (by decide))
    (.bind (gives_configureInput (by decide) ⟨gpio3DIomuxHigh, 0, 0⟩ rfl (by decide) (by decide))
      (.bind (gives_configureInput (by decide) ⟨gpio3DIomuxHigh, 1, 0⟩ rfl (by decide) (by decide))
        (gives_pure _)))

def profileCalls (spiProfile : Bool) : List CruCall :=
  if spiProfile then [.clockEnable .spi0, .resetPulse .spi0]
  else [.clockEnable .i2c7, .resetPulse .i2c7]

def profilePins (spiProfile : Bool) : List Pin :=
  if spiProfile then spi0Pins else i2c7Pins ++ gpioPins

def bootCalls (spiProfile : Bool) : List CruCall :=
  [.clockEnable .uart5, .resetPulse .uart5, .clockEnable .uart7, .resetPulse .uart7] ++
    (profileCalls spiProfile ++
      [.clockEnable .pwm1, .resetPulse .pwm1, .clockEnable .saradc, .resetPulse .saradc])

def bootPins (spiProfile : Bool) : List Pin :=
  uart5Pins ++ (uart7Pins ++ (profilePins spiProfile ++ pwm7Pins))

theorem gives_profileInitialize (map : MemoryMap) (spiProfile : Bool) : ∃ prog,
    profileInitialize map (some ⟨map.base .cru, true⟩) (some ⟨map.base .cru, true⟩)
        (some ⟨map.base .ioc, true⟩) spiProfile = some prog ∧
      Gives map prog (0, (PeripheralService.initial map spiProfile).gpio,
        (PeripheralService.initial map spiProfile).i2c7,
        (PeripheralService.initial map spiProfile).spi0)
        (profileCalls spiProfile) (profilePins spiProfile) := by
  cases spiProfile with
  | false =>
    obtain ⟨init, hinit, hgives⟩ := gives_i2cInit map
    refine ⟨_, by rw [profileInitialize, if_neg (by decide), hinit]; rfl, ?_⟩
    refine .bind (gives_cruCall (.clockEnable .i2c7) rfl)
      (.bind (gives_cruCall (.resetPulse .i2c7) rfl) (.bind gives_pinctrlI2c7
        (.bind hgives (.bind gives_gpio3Prepare (gives_pure_of ?_)))))
    rw [orAll_zero (by simp)]
    rfl
  | true =>
    obtain ⟨init, hinit, hgives⟩ := gives_spiInit map
    refine ⟨_, by rw [profileInitialize, if_pos rfl, hinit]; rfl, ?_⟩
    refine .bind (gives_cruCall (.clockEnable .spi0) rfl)
      (.bind (gives_cruCall (.resetPulse .spi0) rfl) (.bind gives_pinctrlSpi0
        (.bind hgives (gives_pure_of ?_))))
    rw [orAll_zero (by simp)]
    rfl

theorem gives_peripheralsInitialize (map : MemoryMap) (spiProfile : Bool) : ∃ prog,
    peripheralsInitialize map spiProfile = some prog ∧
      Gives map prog (0, PeripheralService.initial map spiProfile) (bootCalls spiProfile)
        (bootPins spiProfile) := by
  obtain ⟨uart5Init, huart5, hgives5⟩ := gives_uartInit map .uart5 (.inl rfl)
  obtain ⟨uart7Init, huart7, hgives7⟩ := gives_uartInit map .uart7 (.inr rfl)
  obtain ⟨profile, hprofile, hgives⟩ := gives_profileInitialize map spiProfile
  have hcru : cruInit (some ⟨0, false⟩) (map.base .cru) true =
    (0, some ⟨map.base .cru, true⟩) := rfl
  have hreset : resetInit (some ⟨0, false⟩) (map.base .cru) true =
    (0, some ⟨map.base .cru, true⟩) := rfl
  have hpinctrl : pinctrlInit (some ⟨0, false⟩) (map.base .ioc) true =
    (0, some ⟨map.base .ioc, true⟩) := rfl
  unfold peripheralsInitialize
  rw [hcru, hreset, hpinctrl]
  dsimp only
  rw [if_neg (not_not.mpr (orAll_zero (by simp))), huart5, huart7, hprofile]
  refine ⟨_, rfl, ?_⟩
  refine Gives.congr (.bind (gives_cruCall (.clockEnable .uart5) rfl)
    (.bind (gives_cruCall (.resetPulse .uart5) rfl) (.bind gives_pinctrlUart5 (.bind hgives5
    (.bind (gives_cruCall (.clockEnable .uart7) rfl)
    (.bind (gives_cruCall (.resetPulse .uart7) rfl) (.bind gives_pinctrlUart7 (.bind hgives7
    (.bind hgives
    (.bind (gives_cruCall (.clockEnable .pwm1) rfl)
    (.bind (gives_cruCall (.resetPulse .pwm1) rfl) (.bind gives_pwmInit (.bind gives_pinctrlPwm7
    (.bind (gives_cruCall (.clockEnable .saradc) rfl)
    (.bind (gives_cruCall (.resetPulse .saradc) rfl) (.bind gives_saradcInit
      (gives_pure_of ?_))))))))))))))))) ?_ ?_
  · rw [orAll_zero (by simp)]
    rfl
  · rfl
  · rfl

end Gives

/-- What the clock driver selects for a peripheral: 24 MHz, 100 MHz for I2C7, and 24 MHz over
`23 + 1` for the SARADC. -/
def Leaf.selection : Leaf → List Bool
  | .uart5 | .uart7 | .spi0 | .pwm1 => [false, true]
  | .i2c7 => [true]
  | .saradc => true :: (List.range 8).map (Nat.testBit 23)

def bootLeaves (spiProfile : Bool) : List Leaf :=
  [.uart5, .uart7, if spiProfile then .spi0 else .i2c7, .pwm1, .saradc]

theorem lastGiven_bootPins (spiProfile : Bool) : ∀ pin ∈ bootPins spiProfile, ∀ j < 4,
    4 * pin.nibble.toNat + j < 16 ∧
      lastGiven pin.offset (4 * pin.nibble.toNat + j) (pinWrites (bootPins spiProfile)) =
        some (pin.function.getLsbD j) := by
  cases spiProfile <;> decide +kernel

theorem bootPins_lt (spiProfile : Bool) :
    ∀ pin ∈ bootPins spiProfile, pin.offset.toNat < Controller.size .ioc := by
  cases spiProfile <;> decide

theorem muxWord_selects (spiProfile : Bool) : ∀ pin ∈ bootPins spiProfile, ∀ i < 16,
    i / 4 ≠ pin.nibble.toNat → (muxWord pin.nibble pin.function).getLsbD (16 + i) = false := by
  cases spiProfile <;> decide +kernel

theorem lastGiven_bootLeaves (spiProfile : Bool) : ∀ leaf ∈ bootLeaves spiProfile,
    (leaf.fields.map fun b =>
      lastGiven b.offset b.bit ((bootCalls spiProfile).flatMap CruCall.events)) =
        leaf.selection.map some ∧
      ∀ b ∈ leaf.gates ++ leaf.pclkGates ++ leaf.resets,
        lastGiven b.offset b.bit ((bootCalls spiProfile).flatMap CruCall.events) = some false := by
  cases spiProfile <;> decide +kernel

theorem bootCalls_leaf (spiProfile : Bool) : ∀ call ∈ bootCalls spiProfile,
    ∃ leaf ∈ bootLeaves spiProfile, call.leaf = some leaf := by
  cases spiProfile <;> decide

theorem lastGiven_otherPins (spiProfile : Bool) {offset : U64} {i : ℕ} (hi : i < 16)
    (h : ∀ pin ∈ bootPins spiProfile, pin.offset = offset → i / 4 ≠ pin.nibble.toNat) :
    lastGiven offset i (pinWrites (bootPins spiProfile)) = none := by
  refine lastGiven_eq_none fun word addr hmem haddr => ?_
  obtain ⟨pin, hpin, heq⟩ := List.mem_map.mp hmem
  obtain ⟨rfl, rfl⟩ := BusEvent.write.inj heq
  exact muxWord_selects spiProfile pin hpin i hi (h pin hpin haddr)

theorem lastGiven_otherLeaves (spiProfile : Bool) {b : CruBit} (hlt : b.bit < 16)
    (h : ∀ leaf ∈ bootLeaves spiProfile, b ∉ leaf.bits) :
    lastGiven b.offset b.bit ((bootCalls spiProfile).flatMap CruCall.events) = none := by
  refine lastGiven_of_given fun e hmem => ?_
  obtain ⟨call, hcall, he⟩ := List.mem_flatMap.mp hmem
  obtain ⟨leaf, hleaf, hcallLeaf⟩ := bootCalls_leaf spiProfile call hcall
  refine given_eq_none_of_not_selected hlt fun hsel => ?_
  exact h leaf hleaf (CruCall.selected_subset hcallLeaf e he b hsel)

section Boot

variable {map : MemoryMap} {spiProfile : Bool} {prog : Mmio (Int × PeripheralService)}

theorem bit_after_cru (h : Gives map prog (0, PeripheralService.initial map spiProfile)
    (bootCalls spiProfile) (bootPins spiProfile)) (reads : Stream' U32) (regs : U64 → BitVec 16)
    {offset : U64} (hoffset : offset.toNat < Controller.size .cru) {i : ℕ} (hi : i < 16) :
    (after regs (prog.run reads).events (map.base .cru + offset)).getLsbD i =
      (lastGiven offset i ((bootCalls spiProfile).flatMap CruCall.events)).getD
        ((regs (map.base .cru + offset)).getLsbD i) := by
  rw [getLsbD_after regs hi, h.cru reads offset i hoffset]

theorem bit_after_ioc (h : Gives map prog (0, PeripheralService.initial map spiProfile)
    (bootCalls spiProfile) (bootPins spiProfile)) (reads : Stream' U32) (regs : U64 → BitVec 16)
    {offset : U64} (hoffset : offset.toNat < Controller.size .ioc) {i : ℕ} (hi : i < 16) :
    (after regs (prog.run reads).events (map.base .ioc + offset)).getLsbD i =
      (lastGiven offset i (pinWrites (bootPins spiProfile))).getD
        ((regs (map.base .ioc + offset)).getLsbD i) := by
  rw [getLsbD_after regs hi, h.ioc reads offset i hoffset]

end Boot

/-- Initialising the peripherals succeeds, muxes the pins of the profile and starts its clocks.  All
other bits of the IOC and the CRU stay as they are, those of the other profile included. -/
theorem peripherals_initialize_sets_profile (map : MemoryMap) (spiProfile : Bool)
    (reads : Stream' U32) (regs : U64 → BitVec 16) :
    ∃ prog, peripheralsInitialize map spiProfile = some prog ∧
      (prog.run reads).value = (0, PeripheralService.initial map spiProfile) ∧
      let regs' := after regs (prog.run reads).events
      (∀ pin ∈ bootPins spiProfile, ∀ j < 4,
        (regs' (map.base .ioc + pin.offset)).getLsbD (4 * pin.nibble.toNat + j) =
          pin.function.getLsbD j) ∧
      (∀ offset : U64, offset.toNat < Controller.size .ioc → ∀ i < 16,
        (∀ pin ∈ bootPins spiProfile, pin.offset = offset → i / 4 ≠ pin.nibble.toNat) →
        (regs' (map.base .ioc + offset)).getLsbD i = (regs (map.base .ioc + offset)).getLsbD i) ∧
      (∀ leaf ∈ bootLeaves spiProfile,
        (leaf.fields.map fun b => (regs' (map.base .cru + b.offset)).getLsbD b.bit) =
            leaf.selection ∧
          ∀ b ∈ leaf.gates ++ leaf.pclkGates ++ leaf.resets,
            (regs' (map.base .cru + b.offset)).getLsbD b.bit = false) ∧
      ∀ offset : U64, offset.toNat < Controller.size .cru → ∀ i < 16,
        (∀ leaf ∈ bootLeaves spiProfile, ⟨offset, i⟩ ∉ leaf.bits) →
        (regs' (map.base .cru + offset)).getLsbD i = (regs (map.base .cru + offset)).getLsbD i := by
  obtain ⟨prog, hprog, hgives⟩ := gives_peripheralsInitialize map spiProfile
  refine ⟨prog, hprog, hgives.value reads, ?_, ?_, ?_, ?_⟩
  · intro pin hpin j hj
    obtain ⟨hlt, hlast⟩ := lastGiven_bootPins spiProfile pin hpin j hj
    rw [bit_after_ioc hgives reads regs (bootPins_lt spiProfile pin hpin) hlt, hlast,
      Option.getD_some]
  · intro offset hoffset i hi h
    rw [bit_after_ioc hgives reads regs hoffset hi, lastGiven_otherPins spiProfile hi h,
      Option.getD_none]
  · intro leaf hleaf
    obtain ⟨hfields, hrest⟩ := lastGiven_bootLeaves spiProfile leaf hleaf
    have hbit : ∀ b ∈ leaf.bits, ∀ v,
        lastGiven b.offset b.bit ((bootCalls spiProfile).flatMap CruCall.events) = some v →
        (after regs (prog.run reads).events (map.base .cru + b.offset)).getLsbD b.bit = v := by
      intro b hb v hlast
      rw [bit_after_cru hgives reads regs (Leaf.offset_lt hb) (Leaf.bit_lt hb), hlast,
        Option.getD_some]
    constructor
    · refine List.map_injective_iff.mpr (Option.some_injective Bool) ?_
      rw [List.map_map, ← hfields]
      apply List.map_congr_left
      intro b hb
      obtain ⟨v, -, hv⟩ := List.mem_map.mp (hfields ▸ List.mem_map_of_mem hb)
      dsimp only [Function.comp]
      rw [← hv, hbit b (leaf.mem_bits_of_fields hb) v hv.symm]
    · intro b hb
      refine hbit b ?_ false (hrest b hb)
      simpa [Leaf.bits, or_assoc] using Or.inr (by simpa [or_assoc] using hb)
  · intro offset hoffset i hi h
    have hnone : lastGiven offset i ((bootCalls spiProfile).flatMap CruCall.events) = none :=
      lastGiven_otherLeaves spiProfile (b := ⟨offset, i⟩) hi h
    rw [bit_after_cru hgives reads regs hoffset hi, hnone, Option.getD_none]

theorem PeripheralService.executeAll_writes {map : MemoryMap} {service : PeripheralService}
    (hw : service.Wired map) (requests : List Message) :
    (service.executeAll requests).WritesOnly fun word addr =>
      ∃ line ∈ directGpioLines, ProfileWrite map service.spiProfile line word addr := by
  induction requests generalizing service with
  | nil => exact writesOnly_pure _
  | cons request requests ih =>
    refine .bind_of ?_ (execute_retuned service request) fun r hr => ?_
    · intro reads word addr hmem
      exact ⟨_, lineOf_mem _, execute_writes hw request reads word addr hmem⟩
    · have hrest := ih (hr.wired hw)
      rwa [hr.spiProfile] at hrest

theorem iomux_place : ∀ line ∈ directGpioLines, ∀ i < 16,
    (0xf#32 <<< (line % 4 * 4)).getLsbD i = true →
    ∃ pin ∈ gpioPins, pin.offset.toNat = 0x8078 + (line - 24) / 4 * 4 ∧
      i = 4 * pin.nibble.toNat + i % 4 ∧ pin.function = 0 := by
  decide +kernel

theorem Permitted.ioc_write {map : MemoryMap} {line : ℕ} {word : U32} {addr : U64}
    (h : Permitted map line .ioc word addr) :
    ∃ offset : U64, addr = map.base .ioc + offset ∧
      offset.toNat = 0x8078 + (line - 24) / 4 * 4 ∧
      word >>> 16 = 0xf#32 <<< (line % 4 * 4) ∧ word &&& 0xffff = 0 := by
  cases h with
  | iomux hoffset hmask hvalue => exact ⟨_, rfl, hoffset, hmask, hvalue⟩
  | device hoffset => cases hoffset

theorem Permitted.cru_write {map : MemoryMap} {line : ℕ} {word : U32} {addr : U64}
    (h : Permitted map line .cru word addr) :
    addr = map.base .cru + softrstCon 11 ∧ word >>> 16 = 1#32 <<< 14 := by
  cases h with
  | device hoffset => cases hoffset
  | saradcReset hmask => exact ⟨rfl, hmask⟩

theorem getLsbD_of_low {word : U32} (h : word &&& 0xffff = 0) {i : ℕ} (hi : i < 16) :
    word.getLsbD i = false := by
  have hbit : (word &&& 0xffff).getLsbD i = false := by
    rw [h]
    exact BitVec.getLsbD_zero
  have hmask : ∀ i < 16, (0xffff : U32).getLsbD i = true := by decide
  rwa [BitVec.getLsbD_and, hmask i hi, Bool.and_true] at hbit

/-- Nothing in the IOC is different after any sequence of requests, and in the CRU at most the reset
of the SARADC. -/
theorem requests_keep_pins_and_clocks (map : MemoryMap) (spiProfile : Bool)
    (reads later : Stream' U32) (regs : U64 → BitVec 16) (requests : List Message) :
    ∃ prog, peripheralsInitialize map spiProfile = some prog ∧
      let boot := prog.run reads
      let run := (boot.value.2.executeAll requests).run later
      let regs' := after regs boot.events
      (∀ offset : U64, offset.toNat < Controller.size .ioc →
        after regs' run.events (map.base .ioc + offset) = regs' (map.base .ioc + offset)) ∧
      ∀ offset : U64, offset.toNat < Controller.size .cru → ∀ i < 16,
        (offset = softrstCon 11 → i ≠ 14) →
        (after regs' run.events (map.base .cru + offset)).getLsbD i =
          (regs' (map.base .cru + offset)).getLsbD i := by
  obtain ⟨prog, hprog, hgives⟩ := gives_peripheralsInitialize map spiProfile
  refine ⟨prog, hprog, ?_⟩
  have hvalue : (prog.run reads).value.2 = PeripheralService.initial map spiProfile := by
    rw [hgives.value reads]
  dsimp only
  rw [hvalue]
  have hwrites := PeripheralService.executeAll_writes
    (PeripheralService.initial_wired map spiProfile) requests later
  constructor
  · intro offset hoffset
    apply BitVec.eq_of_getLsbD_eq
    intro i hi
    rw [getLsbD_after _ hi]
    cases hlast : lastGiven (map.base .ioc + offset) i
        ((PeripheralService.initial map spiProfile).executeAll requests |>.run later).events with
    | none => rfl
    | some b =>
      -- The write can only give the GPIO function, and the pin has it already.
      obtain ⟨word, hmem, hmask, hbit⟩ := exists_write_of_lastGiven hlast
      obtain ⟨line, hline, c, hc, hpermitted⟩ := hwrites word _ hmem
      obtain rfl := (hpermitted.reaches hline).unique (map.reaches_add hoffset)
      obtain ⟨offset', haddr, hoffset', hlineMask, hlow⟩ := hpermitted.ioc_write
      obtain rfl := add_right_injective _ haddr
      rw [← BitVec.getLsbD_ushiftRight, hlineMask] at hmask
      obtain ⟨pin, hpin, hpinOffset, hplace, hfunction⟩ := iomux_place line hline i hi hmask
      obtain rfl : pin.offset = offset := BitVec.eq_of_toNat_eq (hpinOffset.trans hoffset'.symm)
      obtain rfl : spiProfile = false := hc
      have hboot : pin ∈ bootPins false := by simp [bootPins, profilePins, hpin]
      obtain ⟨-, hgiven⟩ := lastGiven_bootPins false pin hboot (i % 4) (Nat.mod_lt i (by decide))
      rw [← hplace, hfunction] at hgiven
      rw [bit_after_ioc hgives reads regs hoffset hi, hgiven, ← hbit, getLsbD_of_low hlow hi]
      exact BitVec.getLsbD_zero.symm
  · intro offset hoffset i hi hplace
    rw [getLsbD_after _ hi]
    cases hlast : lastGiven (map.base .cru + offset) i
        ((PeripheralService.initial map spiProfile).executeAll requests |>.run later).events with
    | none => rfl
    | some b =>
      obtain ⟨word, hmem, hmask, -⟩ := exists_write_of_lastGiven hlast
      obtain ⟨line, hline, c, -, hpermitted⟩ := hwrites word _ hmem
      obtain rfl := (hpermitted.reaches hline).unique (map.reaches_add hoffset)
      obtain ⟨haddr, hword⟩ := hpermitted.cru_write
      rw [← BitVec.getLsbD_ushiftRight, hword] at hmask
      -- the one permitted write of the CRU carries the mask of bit 14 alone
      have hbit : ∀ i < 16, (1#32 <<< 14).getLsbD i = true → i = 14 := by decide
      exact absurd (hbit i hi hmask) (hplace (add_right_injective _ haddr))

end Lzamp.Cpu3
