import Mathlib.Data.BitVec
import Lzamp.Lib.Bus
import Lzamp.Mailmsg.Protocol

namespace Lzamp.Cpu3
open Lib Lib.Bus

abbrev Mmio := Bus U64 U32

/-- Unsigned division, which is undefined behaviour when the divisor is zero. -/
def divide (a b : U32) : Option U32 :=
  if b = 0 then none else some (a / b)

theorem base_add_ne (base : U64) {x y : U64} (h : x ≠ y) : base + x ≠ base + y :=
  fun he => h (add_left_cancel he)

/-- A driver is given a pointer to its device, `none` when it is NULL.  The field `ops` says whether
the pointer to the register access functions is set. -/
structure Gpio3 where
  gpioBase : U64
  iocBase : U64
  ops : Bool
  outputMask : U32

abbrev gpio3Pd1 : U32 := 25
abbrev gpio3Pd4 : U32 := 28
abbrev gpio3Pd5 : U32 := 29

abbrev gpio3Ok : Int := 0
abbrev gpio3Invalid : Int := -1
abbrev gpio3NotOutput : Int := -2

def gpioDrHigh : U64 := 0x04
def gpioDdrHigh : U64 := 0x0c
def gpioExtPort : U64 := 0x70
def gpio3DIomuxLow : U64 := 0x8078
def gpio3DIomuxHigh : U64 := 0x807c

def lineIsOwned (line : U32) : Bool :=
  line = gpio3Pd1 || line = gpio3Pd4 || line = gpio3Pd5

/-- The word that sets one line of a register whose upper half is the write mask. -/
def maskedBit (line : U32) (value : Bool) : U32 :=
  let bit := line - 16
  let word := 1#32 <<< (bit + 16)
  if value then word ||| 1#32 <<< bit else word

def writeMaskedBit (device : Gpio3) (offset : U64) (line : U32) (value : Bool) : Mmio Unit :=
  write32 (maskedBit line value) (device.gpioBase + offset)

/-- The IOC word of a line, and the place of its nibble in it. -/
def iomuxField (line : U32) : U64 × U32 :=
  if line < gpio3Pd4 then (gpio3DIomuxLow, (line - 24) * 4)
  else (gpio3DIomuxHigh, (line - 28) * 4)

/-- Mux value 0 is GPIO. -/
def selectGpioFunction (device : Gpio3) (line : U32) : Mmio Unit :=
  write32 (0xf#32 <<< ((iomuxField line).2 + 16)) (device.iocBase + (iomuxField line).1)

/-- `ops` says whether both access functions are given. -/
def gpio3Init (device : Option Gpio3) (gpioBase iocBase : U64) (ops : Bool) :
    Int × Option Gpio3 :=
  match device with
  | none => (gpio3Invalid, none)
  | some gpio =>
    if !ops then (gpio3Invalid, some gpio)
    else (gpio3Ok, some ⟨gpioBase, iocBase, ops, 0⟩)

def gpio3ConfigureInput (device : Option Gpio3) (line : U32) : Mmio (Int × Option Gpio3) :=
  match device.filter (·.ops) with
  | none => pure (gpio3Invalid, device)
  | some gpio =>
    if !lineIsOwned line then pure (gpio3Invalid, device)
    else do
      selectGpioFunction gpio line
      writeMaskedBit gpio gpioDdrHigh line false
      pure (gpio3Ok, some { gpio with outputMask := gpio.outputMask &&& ~~~(1#32 <<< line) })

/-- The initial value is there before the line drives. -/
def gpio3ConfigureOutput (device : Option Gpio3) (line : U32) (initialValue : Bool) :
    Mmio (Int × Option Gpio3) :=
  match device.filter (·.ops) with
  | none => pure (gpio3Invalid, device)
  | some gpio =>
    if !lineIsOwned line then pure (gpio3Invalid, device)
    else do
      selectGpioFunction gpio line
      writeMaskedBit gpio gpioDrHigh line initialValue
      writeMaskedBit gpio gpioDdrHigh line true
      pure (gpio3Ok, some { gpio with outputMask := gpio.outputMask ||| 1#32 <<< line })

def gpio3Set (device : Option Gpio3) (line : U32) (value : Bool) : Mmio Int :=
  match device.filter (·.ops) with
  | none => pure gpio3Invalid
  | some gpio =>
    if !lineIsOwned line then pure gpio3Invalid
    else if gpio.outputMask &&& 1#32 <<< line = 0 then pure gpio3NotOutput
    else do
      writeMaskedBit gpio gpioDrHigh line value
      pure gpio3Ok

/-- The level, and 0 when there is none. -/
def gpio3Get (device : Option Gpio3) (line : U32) : Mmio (Int × U32) :=
  match device.filter (·.ops) with
  | none => pure (gpio3Invalid, 0)
  | some gpio =>
    if !lineIsOwned line then pure (gpio3Invalid, 0)
    else do
      let port ← read32 (gpio.gpioBase + gpioExtPort)
      pure (gpio3Ok, port >>> line &&& 1)

structure Cru where
  base : U64
  ops : Bool

/-- `enum lzamp_rk3588_peripheral_clock`; `invalid` is any other number. -/
inductive PeripheralClock where
  | uart5
  | uart7
  | i2c7
  | spi0
  | pwm1
  | saradc
  | invalid

abbrev clockOk : Int := 0
abbrev clockInvalid : Int := -1

def clkselCon (n : ℕ) : U64 := 0x300 + BitVec.ofNat 64 n * 4
def clkgateCon (n : ℕ) : U64 := 0x800 + BitVec.ofNat 64 n * 4

def uart5OutputMuxCon : U64 := clkselCon 51
def uart7OutputMuxCon : U64 := clkselCon 55
def i2c7ParentMuxCon : U64 := clkselCon 38
def sharedPeriphMuxCon : U64 := clkselCon 59
def saradcClockCon : U64 := clkselCon 40

def topPclkGateCon : U64 := clkgateCon 10
def periphGateCon : U64 := clkgateCon 11
def uartPclkGateCon : U64 := clkgateCon 12
def uartSclkGateCon : U64 := clkgateCon 13
def spiGateCon : U64 := clkgateCon 14
def pwmGateCon : U64 := clkgateCon 15

def hiwordUpdate (cru : Cru) (offset : U64) (mask shift value : U32) : Mmio Unit :=
  let shiftedMask := mask <<< shift
  let word := shiftedMask <<< 16 ||| (value &&& mask) <<< shift
  write32 word (cru.base + offset)

/-- A gate bit of 1 stops the clock. -/
def gateSet (cru : Cru) (offset : U64) (bit : U32) (enable : Bool) : Mmio Unit :=
  hiwordUpdate cru offset 1 bit (if enable then 0 else 1)

def cruInit (device : Option Cru) (base : U64) (ops : Bool) : Int × Option Cru :=
  match device with
  | none => (clockInvalid, none)
  | some cru => if !ops then (clockInvalid, some cru) else (clockOk, some ⟨base, ops⟩)

/-- The leaf clock is stopped before its output mux is switched. -/
def uartEnable (cru : Cru) (muxCon : U64) (pclkBit sclkBit : U32) : Mmio Unit := do
  gateSet cru uartSclkGateCon sclkBit false
  hiwordUpdate cru muxCon 0x3 0 0x2
  gateSet cru uartPclkGateCon pclkBit true
  gateSet cru uartSclkGateCon sclkBit true

def peripheralClockEnable (device : Option Cru) (peripheral : PeripheralClock) : Mmio Int :=
  match device.filter (·.ops), peripheral with
  | none, _ => pure clockInvalid
  | some cru, .uart5 => do
    uartEnable cru uart5OutputMuxCon 6 9
    pure clockOk
  | some cru, .uart7 => do
    uartEnable cru uart7OutputMuxCon 8 15
    pure clockOk
  | some cru, .i2c7 => do
    gateSet cru periphGateCon 6 false
    hiwordUpdate cru i2c7ParentMuxCon 0x1 12 0x1
    gateSet cru topPclkGateCon 14 true
    gateSet cru periphGateCon 6 true
    pure clockOk
  | some cru, .spi0 => do
    gateSet cru spiGateCon 11 false
    hiwordUpdate cru sharedPeriphMuxCon 0x3 2 0x2
    gateSet cru spiGateCon 6 true
    gateSet cru spiGateCon 11 true
    pure clockOk
  | some cru, .pwm1 => do
    gateSet cru pwmGateCon 4 false
    gateSet cru pwmGateCon 5 false
    hiwordUpdate cru sharedPeriphMuxCon 0x3 12 0x2
    gateSet cru pwmGateCon 3 true
    gateSet cru pwmGateCon 4 true
    gateSet cru pwmGateCon 5 true
    pure clockOk
  | some cru, .saradc => do
    gateSet cru periphGateCon 15 false
    hiwordUpdate cru saradcClockCon 0x1 14 0x1
    hiwordUpdate cru saradcClockCon 0xff 6 23
    gateSet cru periphGateCon 14 true
    gateSet cru periphGateCon 15 true
    pure clockOk
  | some _, .invalid => pure clockInvalid

def peripheralClockDisable (device : Option Cru) (peripheral : PeripheralClock) : Mmio Int :=
  match device.filter (·.ops), peripheral with
  | none, _ => pure clockInvalid
  | some cru, .uart5 => do
    gateSet cru uartSclkGateCon 9 false
    gateSet cru uartPclkGateCon 6 false
    pure clockOk
  | some cru, .uart7 => do
    gateSet cru uartSclkGateCon 15 false
    gateSet cru uartPclkGateCon 8 false
    pure clockOk
  | some cru, .i2c7 => do
    gateSet cru periphGateCon 6 false
    gateSet cru topPclkGateCon 14 false
    pure clockOk
  | some cru, .spi0 => do
    gateSet cru spiGateCon 11 false
    gateSet cru spiGateCon 6 false
    pure clockOk
  | some cru, .pwm1 => do
    gateSet cru pwmGateCon 5 false
    gateSet cru pwmGateCon 4 false
    gateSet cru pwmGateCon 3 false
    pure clockOk
  | some cru, .saradc => do
    gateSet cru periphGateCon 15 false
    gateSet cru periphGateCon 14 false
    pure clockOk
  | some _, .invalid => pure clockInvalid

structure ResetController where
  cruBase : U64
  ops : Bool

def resetInit (device : Option ResetController) (cruBase : U64) (ops : Bool) :
    Int × Option ResetController :=
  match device with
  | none => (-1, none)
  | some reset => if !ops then (-1, some reset) else (0, some ⟨cruBase, ops⟩)

/-- `enum lzamp_rk3588_reset`; `invalid` is any other number. -/
inductive Reset where
  | uart5
  | uart7
  | i2c7
  | spi0
  | pwm1
  | saradc
  | invalid
deriving DecidableEq

structure ResetLine where
  reg : ℕ
  bit : ℕ
deriving DecidableEq

def Reset.lines : Reset → Option (List ResetLine)
  | .uart5 => some [⟨12, 6⟩, ⟨13, 9⟩]
  | .uart7 => some [⟨12, 8⟩, ⟨13, 15⟩]
  | .i2c7 => some [⟨10, 14⟩, ⟨11, 6⟩]
  | .spi0 => some [⟨14, 6⟩, ⟨14, 11⟩]
  | .pwm1 => some [⟨15, 3⟩, ⟨15, 4⟩]
  | .saradc => some [⟨11, 14⟩]
  | .invalid => none

def softrstCon (n : ℕ) : U64 := 0xa00 + BitVec.ofNat 64 n * 4

def resetWord (line : ResetLine) (asserted : Bool) : U32 :=
  let mask := 1#32 <<< line.bit
  mask <<< 16 ||| (if asserted then mask else 0)

def resetLineWrite (reset : ResetController) (line : ResetLine) (asserted : Bool) : Mmio Unit :=
  write32 (resetWord line asserted) (reset.cruBase + softrstCon line.reg)

def resetPulse (device : Option ResetController) (peripheral : Reset) : Mmio Int :=
  match device.filter (·.ops), peripheral.lines with
  | some reset, some lines => do
    lines.forM fun line => resetLineWrite reset line true
    delayUs (if peripheral = .saradc then 10 else 2)
    lines.forM fun line => resetLineWrite reset line false
    delayUs 2
    pure 0
  | _, _ => pure (-1)

structure Uart where
  base : U64
  ops : Bool

def uartRbrThrDll : U64 := 0x00
def uartIerDlm : U64 := 0x04
def uartIirFcr : U64 := 0x08
def uartLcr : U64 := 0x0c
def uartLsr : U64 := 0x14
def uartLcrDlab : U32 := 1#32 <<< 7
def uartLcr8n1 : U32 := 0x03
def uartFcrEnableReset : U32 := 0x07
def uartLsrDr : U32 := 1#32 <<< 0
def uartLsrThre : U32 := 1#32 <<< 5

/-- The call as a program on the bus, or nothing when it divides by zero. -/
def uartInit (device : Option Uart) (base : U64) (ops : Bool) (inputHz baud : U32) :
    Option (Mmio (Int × Option Uart)) :=
  if device.isNone ∨ ops = false ∨ inputHz = 0 ∨ baud = 0 then some (pure (-1, device))
  else (divide (inputHz + baud * 8) (baud * 16)).map fun divisor =>
    if divisor = 0 ∨ 0xffff#32 < divisor then pure (-1, device)
    else do
      write32 0 (base + uartIerDlm)
      write32 (uartLcr8n1 ||| uartLcrDlab) (base + uartLcr)
      write32 (divisor &&& 0xff) (base + uartRbrThrDll)
      write32 (divisor >>> 8) (base + uartIerDlm)
      write32 uartLcr8n1 (base + uartLcr)
      write32 uartFcrEnableReset (base + uartIirFcr)
      pure (0, some ⟨base, ops⟩)

def waitLsr (uart : Uart) (mask : U32) : ℕ → Mmio Int
  | 0 => do
    giveUp
    pure (-2)
  | timeoutUs + 1 => do
    let lsr ← read32 (uart.base + uartLsr)
    if lsr &&& mask ≠ 0 then pure 0
    else do
      delayUs 1
      waitLsr uart mask timeoutUs

def uartWriteLoop (uart : Uart) (timeoutUs : ℕ) : List U8 → Mmio Int
  | [] => pure 0
  | byte :: data => do
    let ret ← waitLsr uart uartLsrThre timeoutUs
    if ret ≠ 0 then pure (-2)
    else do
      write32 (byte.setWidth 32) (uart.base + uartRbrThrDll)
      uartWriteLoop uart timeoutUs data

def uartWrite (device : Option Uart) (data : List U8) (timeoutUs : ℕ) : Mmio Int :=
  match device.filter (·.ops) with
  | none => pure (-1)
  | some uart => uartWriteLoop uart timeoutUs data

/-- The loop that empties the receive buffer, over the capacity that is left. -/
def uartReadLoop (uart : Uart) : ℕ → Mmio (List U8)
  | 0 => pure []
  | capacity + 1 => do
    let lsr ← read32 (uart.base + uartLsr)
    if lsr &&& uartLsrDr = 0 then pure []
    else do
      let word ← read32 (uart.base + uartRbrThrDll)
      let data ← uartReadLoop uart capacity
      pure (word.setWidth 8 :: data)

def uartRead (device : Option Uart) (capacity timeoutUs : ℕ) : Mmio (Int × List U8) :=
  match device.filter (·.ops) with
  | none => pure (-1, [])
  | some uart =>
    if capacity = 0 then pure (-1, [])
    else do
      let ret ← waitLsr uart uartLsrDr timeoutUs
      if ret ≠ 0 then pure (-2, [])
      else do
        let data ← uartReadLoop uart capacity
        pure (0, data)

structure I2c where
  base : U64
  ops : Bool

def i2cCon : U64 := 0x000
def i2cClkdiv : U64 := 0x004
def i2cMrxaddr : U64 := 0x008
def i2cMrxraddr : U64 := 0x00c
def i2cMtxcnt : U64 := 0x010
def i2cMrxcnt : U64 := 0x014
def i2cIen : U64 := 0x018
def i2cIpd : U64 := 0x01c
def i2cTxbuf : U64 := 0x100
def i2cRxbuf : U64 := 0x200

def conEn : U32 := 1#32 <<< 0
def conModeTx : U32 := 0#32 <<< 1
def conModeRegisterTx : U32 := 1#32 <<< 1
def conStart : U32 := 1#32 <<< 3
def conStop : U32 := 1#32 <<< 4
def conLastack : U32 := 1#32 <<< 5
def conActack : U32 := 1#32 <<< 6

def intMbtf : U32 := 1#32 <<< 2
def intMbrf : U32 := 1#32 <<< 3
def intStop : U32 := 1#32 <<< 5
def intNak : U32 := 1#32 <<< 6
def intAll : U32 := 0xfff

def addrValid (n : ℕ) : U32 := 1#32 <<< (24 + n)

def i2cInit (device : Option I2c) (base : U64) (ops : Bool) (clockHz busHz : U32) :
    Option (Mmio (Int × Option I2c)) :=
  if device.isNone ∨ ops = false ∨ clockHz = 0 ∨ busHz = 0 ∨ 400000#32 < busHz then
    some (pure (-1, device))
  else (divide (clockHz + 16 * busHz - 1) (16 * busHz)).map fun divider =>
    if divider = 0 ∨ 65536#32 < divider then pure (-1, device)
    else do
      let divider := divider - 1
      write32 0 (base + i2cCon)
      write32 0 (base + i2cIen)
      write32 intAll (base + i2cIpd)
      write32 (divider <<< 16 ||| divider) (base + i2cClkdiv)
      pure (0, some ⟨base, ops⟩)

/-- The result, and the pending word last read; a poll takes five microseconds. -/
def waitIpd (i2c : I2c) (desired : U32) (timeoutUs : ℕ) (ipd : U32) : Mmio (Int × U32) :=
  if timeoutUs = 0 then do
    giveUp
    pure (-2, ipd)
  else do
    let ipd ← read32 (i2c.base + i2cIpd)
    if ipd &&& intNak ≠ 0 then do
      write32 (ipd &&& intAll) (i2c.base + i2cIpd)
      pure (-3, ipd)
    else if ipd &&& desired ≠ 0 then pure (0, ipd)
    else do
      delayUs 5
      waitIpd i2c desired (if 5 < timeoutUs then timeoutUs - 5 else 0) ipd
termination_by timeoutUs
decreasing_by split <;> omega

def stopBus (i2c : I2c) (timeoutUs : ℕ) : Mmio Int := do
  write32 (intStop ||| intNak) (i2c.base + i2cIen)
  let con ← read32 (i2c.base + i2cCon)
  write32 ((con ||| conStop) &&& ~~~conStart) (i2c.base + i2cCon)
  let (ret, ipd) ← waitIpd i2c intStop timeoutUs 0
  if ret ≠ 0 then do
    write32 0 (i2c.base + i2cIen)
    write32 0 (i2c.base + i2cCon)
    pure (-2)
  else do
    write32 (ipd &&& intAll) (i2c.base + i2cIpd)
    write32 0 (i2c.base + i2cIen)
    write32 0 (i2c.base + i2cCon)
    pure 0

/-- How a transfer ends: a bus that does not stop turns its success into a timeout. -/
def endTransfer (i2c : I2c) (timeoutUs : ℕ) (ret : Int) : Mmio Int := do
  let stopped ← stopBus i2c timeoutUs
  pure (if stopped ≠ 0 ∧ ret = 0 then -2 else ret)

/-- The words of the transmit buffer: the address byte, then the data. -/
def txWords (address : U8) (data : List U8) : ℕ → U32 :=
  data.zipIdx.foldl (fun words entry =>
      let pos := entry.2 + 1
      let byte : U32 := entry.1.setWidth 32
      Function.update words (pos / 4) (words (pos / 4) ||| byte <<< (pos % 4 * 8)))
    (Function.update (fun _ => 0) 0 (address.setWidth 32 <<< 1))

def fillTx (i2c : I2c) (address : U8) (data : List U8) : Mmio Unit :=
  ((List.range 8).takeWhile fun index => index * 4 < data.length + 1).forM fun index =>
    write32 (txWords address data index) (i2c.base + i2cTxbuf + BitVec.ofNat 64 index * 4)

def i2cWrite (device : Option I2c) (address : U8) (data : List U8) (timeoutUs : ℕ) : Mmio Int :=
  match device.filter (·.ops) with
  | none => pure (-1)
  | some i2c =>
    if 0x7f#8 < address ∨ data.length = 0 ∨ 31 < data.length then pure (-1)
    else do
      write32 intAll (i2c.base + i2cIpd)
      fillTx i2c address data
      write32 (intMbtf ||| intNak) (i2c.base + i2cIen)
      write32 (conEn ||| conModeTx ||| conStart ||| conActack) (i2c.base + i2cCon)
      write32 (BitVec.ofNat 32 data.length + 1) (i2c.base + i2cMtxcnt)
      let (ret, ipd) ← waitIpd i2c intMbtf timeoutUs 0
      if ret = 0 then write32 (ipd &&& intAll) (i2c.base + i2cIpd)
      endTransfer i2c timeoutUs ret

/-- The register address that precedes a read, with a valid bit for each of its bytes. -/
def regAddress (prefixBytes : List U8) : U32 :=
  prefixBytes.zipIdx.foldl (fun word entry =>
      let byte : U32 := entry.1.setWidth 32
      word ||| byte <<< (entry.2 * 8) ||| addrValid entry.2) 0

/-- The bytes from `index` on; every fourth one reads the next word of the buffer. -/
def rxLoop (i2c : I2c) : U32 → ℕ → ℕ → Mmio (List U8)
  | _, _, 0 => pure []
  | word, index, remaining + 1 => do
    let word ← if index % 4 = 0 then
        read32 (i2c.base + i2cRxbuf + BitVec.ofNat 64 (index / 4) * 4)
      else pure word
    let data ← rxLoop i2c word (index + 1) remaining
    pure ((word >>> (index % 4 * 8) &&& 0xff).setWidth 8 :: data)

def readCommon (device : Option I2c) (address : U8) (prefixBytes : List U8)
    (length timeoutUs : ℕ) : Mmio (Int × List U8) :=
  match device.filter (·.ops) with
  | none => pure (-1, [])
  | some i2c =>
    if 0x7f#8 < address ∨ length = 0 ∨ 32 < length ∨ 3 < prefixBytes.length then pure (-1, [])
    else do
      write32 intAll (i2c.base + i2cIpd)
      write32 (address.setWidth 32 <<< 1 ||| 1 ||| addrValid 0) (i2c.base + i2cMrxaddr)
      write32 (regAddress prefixBytes) (i2c.base + i2cMrxraddr)
      write32 (intMbrf ||| intNak) (i2c.base + i2cIen)
      write32 (conEn ||| conModeRegisterTx ||| conStart ||| conLastack ||| conActack)
        (i2c.base + i2cCon)
      write32 (BitVec.ofNat 32 length) (i2c.base + i2cMrxcnt)
      let (ret, ipd) ← waitIpd i2c intMbrf timeoutUs 0
      if ret = 0 then do
        let data ← rxLoop i2c 0 0 length
        write32 (ipd &&& intAll) (i2c.base + i2cIpd)
        let ret ← endTransfer i2c timeoutUs ret
        pure (ret, data)
      else do
        let ret ← endTransfer i2c timeoutUs ret
        pure (ret, [])

def i2cRead (device : Option I2c) (address : U8) (length timeoutUs : ℕ) : Mmio (Int × List U8) :=
  readCommon device address [] length timeoutUs

def i2cWriteRead (device : Option I2c) (address : U8) (prefixBytes : List U8)
    (length timeoutUs : ℕ) : Mmio (Int × List U8) :=
  if prefixBytes.length = 0 then pure (-1, [])
  else readCommon device address prefixBytes length timeoutUs

structure Spi where
  base : U64
  ops : Bool
  ctrlr0 : U32
  baudDiv : U32

def spiCtrlr0 : U64 := 0x000
def spiCtrlr1 : U64 := 0x004
def spiSsienr : U64 := 0x008
def spiSer : U64 := 0x00c
def spiBaudr : U64 := 0x010
def spiTxftlr : U64 := 0x014
def spiRxftlr : U64 := 0x018
def spiSr : U64 := 0x024
def spiImr : U64 := 0x02c
def spiIcr : U64 := 0x038
def spiDmacr : U64 := 0x03c
def spiTxdr : U64 := 0x400
def spiRxdr : U64 := 0x800

def spiSrBusy : U32 := 1#32 <<< 0
def spiSrTfFull : U32 := 1#32 <<< 1
def spiSrRfEmpty : U32 := 1#32 <<< 3
def spiCr0Dfs8bit : U32 := 1#32 <<< 0
def spiCr0Cpha : U32 := 1#32 <<< 6
def spiCr0Cpol : U32 := 1#32 <<< 7
def spiCr0Bht8bit : U32 := 1#32 <<< 13

def waitStatus (spi : Spi) (mask : U32) (wantSet : Bool) : ℕ → Mmio Int
  | 0 => do
    giveUp
    pure (-2)
  | timeoutUs + 1 => do
    let sr ← read32 (spi.base + spiSr)
    if decide (sr &&& mask ≠ 0) = wantSet then pure 0
    else do
      delayUs 1
      waitStatus spi mask wantSet timeoutUs

def spiSetMode (device : Option Spi) (mode : U32) : Mmio (Int × Option Spi) :=
  match device.filter (·.ops) with
  | none => pure (-1, device)
  | some spi =>
    if 3#32 < mode then pure (-1, device)
    else do
      write32 0 (spi.base + spiSsienr)
      let ctrlr0 := spi.ctrlr0 &&& ~~~(spiCr0Cpha ||| spiCr0Cpol)
      let ctrlr0 := if mode &&& 1 ≠ 0 then ctrlr0 ||| spiCr0Cpha else ctrlr0
      let ctrlr0 := if mode &&& 2 ≠ 0 then ctrlr0 ||| spiCr0Cpol else ctrlr0
      pure (0, some { spi with ctrlr0 := ctrlr0 })

/-- A divider is at least two, and even. -/
def spiDivider (divider : U32) : U32 :=
  let divider := if divider < 2#32 then 2 else divider
  if divider &&& 1 ≠ 0 then divider + 1 else divider

def spiInit (device : Option Spi) (base : U64) (ops : Bool) (inputHz frequencyHz mode : U32) :
    Option (Mmio (Int × Option Spi)) :=
  if device.isNone ∨ ops = false ∨ inputHz = 0 ∨ frequencyHz = 0 ∨ 3#32 < mode then
    some (pure (-1, device))
  else (divide (inputHz + frequencyHz - 1) frequencyHz).map fun divider =>
    let divider := spiDivider divider
    if 65534#32 < divider then pure (-1, device)
    else do
      write32 0 (base + spiSsienr)
      write32 0 (base + spiImr)
      write32 0 (base + spiDmacr)
      write32 1 (base + spiIcr)
      spiSetMode (some ⟨base, ops, spiCr0Dfs8bit ||| spiCr0Bht8bit, divider⟩) mode

/-- The loop over the bytes to send: what came back for them, or nothing on a timeout. -/
def spiLoop (spi : Spi) (timeoutUs : ℕ) : List U8 → Mmio (Option (List U8))
  | [] => pure (some [])
  | byte :: tx => do
    let ret ← waitStatus spi spiSrTfFull false timeoutUs
    if ret ≠ 0 then pure none
    else do
      write32 (byte.setWidth 32) (spi.base + spiTxdr)
      let ret ← waitStatus spi spiSrRfEmpty false timeoutUs
      if ret ≠ 0 then pure none
      else do
        let word ← read32 (spi.base + spiRxdr)
        let rx ← spiLoop spi timeoutUs tx
        pure (rx.map (word.setWidth 8 :: ·))

/-- The part of a transfer that may time out. -/
def spiExchange (spi : Spi) (tx : List U8) (timeoutUs : ℕ) : Mmio (Int × List U8) := do
  match ← spiLoop spi timeoutUs tx with
  | none => pure (-2, [])
  | some rx => do
    let ret ← waitStatus spi spiSrBusy false timeoutUs
    pure (if ret ≠ 0 then (-2, []) else (0, rx))

def spiTransfer (device : Option Spi) (chipSelect : U32) (tx : List U8) (timeoutUs : ℕ) :
    Mmio (Int × List U8) :=
  match device.filter (·.ops) with
  | none => pure (-1, [])
  | some spi =>
    if 1#32 < chipSelect ∨ tx.length = 0 ∨ 65535 < tx.length then pure (-1, [])
    else do
      write32 0 (spi.base + spiSsienr)
      write32 spi.ctrlr0 (spi.base + spiCtrlr0)
      write32 (BitVec.ofNat 32 tx.length - 1) (spi.base + spiCtrlr1)
      write32 spi.baudDiv (spi.base + spiBaudr)
      write32 0 (spi.base + spiTxftlr)
      write32 0 (spi.base + spiRxftlr)
      write32 (1#32 <<< chipSelect) (spi.base + spiSer)
      write32 1 (spi.base + spiSsienr)
      let result ← spiExchange spi tx timeoutUs
      write32 0 (spi.base + spiSsienr)
      write32 0 (spi.base + spiSer)
      pure result

structure Pwm where
  base : U64
  ops : Bool
  clockHz : U32

def pwmPeriod : U64 := 0x04
def pwmDuty : U64 := 0x08
def pwmCtrl : U64 := 0x0c

def pwmEnable : U32 := 1#32 <<< 0
def pwmContinuous : U32 := 1#32 <<< 1
def pwmDutyPositive : U32 := 1#32 <<< 3
def pwmInactivePositive : U32 := 1#32 <<< 4
def pwmLock : U32 := 1#32 <<< 6

/-- A time in nanoseconds as clock ticks, rounded. -/
def pwmTicks (clockHz ns : U32) : U64 :=
  (clockHz.setWidth 64 * ns.setWidth 64 + 500000000) / 1000000000

def pwmSet (device : Option Pwm) (periodNs dutyNs : U32) (inverted : Bool) : Mmio Int :=
  match device.filter (·.ops) with
  | none => pure (-1)
  | some pwm =>
    if periodNs = 0 ∨ periodNs < dutyNs then pure (-1)
    else
      let periodTicks := pwmTicks pwm.clockHz periodNs
      let dutyTicks := pwmTicks pwm.clockHz dutyNs
      if periodTicks = 0 ∨ 0xffffffff#64 < periodTicks ∨ periodTicks < dutyTicks then pure (-1)
      else do
        let ctrl ← read32 (pwm.base + pwmCtrl)
        let ctrl := ctrl ||| pwmLock
        write32 ctrl (pwm.base + pwmCtrl)
        write32 (periodTicks.setWidth 32) (pwm.base + pwmPeriod)
        write32 (dutyTicks.setWidth 32) (pwm.base + pwmDuty)
        let ctrl := ctrl &&& ~~~(pwmDutyPositive ||| pwmInactivePositive ||| pwmLock)
        let ctrl := ctrl ||| (pwmEnable ||| pwmContinuous)
        let ctrl := ctrl ||| if inverted then pwmInactivePositive else pwmDutyPositive
        delayUs 1
        write32 ctrl (pwm.base + pwmCtrl)
        pure 0

def pwmStop (device : Option Pwm) : Mmio Int :=
  match device.filter (·.ops) with
  | none => pure (-1)
  | some pwm => do
    let ctrl ← read32 (pwm.base + pwmCtrl)
    write32 (ctrl &&& ~~~pwmEnable) (pwm.base + pwmCtrl)
    pure 0

structure Saradc where
  base : U64
  ops : Bool

def saradcConvCon : U64 := 0x000
def saradcEndIntEn : U64 := 0x104
def saradcEndIntSt : U64 := 0x110
def saradcData (channel : U32) : U64 := 0x120 + (channel * 4).setWidth 64

def saradcEndBit : U32 := 1#32 <<< 0
def saradcStart : U32 := 1#32 <<< 4
def saradcSingle : U32 := 1#32 <<< 5
def saradcChMask : U32 := 0xf

/-- The loop that waits for the end of a conversion, and whether it came. -/
def saradcWait (adc : Saradc) : ℕ → Mmio Bool
  | 0 => do
    giveUp
    pure false
  | timeoutUs + 1 => do
    let status ← read32 (adc.base + saradcEndIntSt)
    if status &&& saradcEndBit ≠ 0 then pure true
    else do
      delayUs 1
      saradcWait adc timeoutUs

def saradcRead (device : Option Saradc) (channel : U32) (timeoutUs : ℕ) : Mmio (Int × U32) :=
  match device.filter (·.ops) with
  | none => pure (-1, 0)
  | some adc =>
    if 8#32 ≤ channel then pure (-1, 0)
    else do
      write32 saradcEndBit (adc.base + saradcEndIntSt)
      write32 (saradcEndBit <<< 16 ||| saradcEndBit) (adc.base + saradcEndIntEn)
      write32 ((saradcStart ||| saradcSingle ||| saradcChMask) <<< 16 |||
        (saradcStart ||| saradcSingle ||| channel)) (adc.base + saradcConvCon)
      let complete ← saradcWait adc timeoutUs
      if !complete then pure (-2, 0)
      else do
        let value ← read32 (adc.base + saradcData channel)
        write32 saradcEndBit (adc.base + saradcEndIntSt)
        write32 (saradcEndBit <<< 16) (adc.base + saradcEndIntEn)
        pure (0, value &&& 0xfff)

end Lzamp.Cpu3
