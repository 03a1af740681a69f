import Lzamp.Cpu3.Drivers
import Lzamp.Cpu3.Service

namespace Lzamp.Cpu3
open Mailmsg Lib Lib.Bus

/-- `struct lzamp_peripheral_service`. -/
structure PeripheralService where
  gpio : Option Gpio3
  uart5 : Option Uart
  uart7 : Option Uart
  i2c7 : Option I2c
  spi0 : Option Spi
  pwm7 : Option Pwm
  saradc : Option Saradc
  reset : Option ResetController
  spiProfile : Bool

abbrev serviceTimeoutUs : ℕ := 100000

abbrev serviceUnavailable : Int := -19
abbrev serviceInvalid : Int := -22

inductive PeriphOp where
  | gpioConfig
  | gpioWrite
  | gpioRead
  | uartWrite
  | uartRead
  | i2cWrite
  | i2cRead
  | i2cWriteRead
  | spiTransfer
  | pwmSet
  | pwmStop
  | adcRead
deriving DecidableEq

/-- The `MAILMSG_PERIPH_*` numbers of the operations. -/
def PeriphOp.code : PeriphOp → U32
  | .gpioConfig => 1
  | .gpioWrite => 2
  | .gpioRead => 3
  | .uartWrite => 4
  | .uartRead => 5
  | .i2cWrite => 6
  | .i2cRead => 7
  | .i2cWriteRead => 8
  | .spiTransfer => 9
  | .pwmSet => 10
  | .pwmStop => 11
  | .adcRead => 12

def PeriphOp.ofCode (code : U32) : Option PeriphOp :=
  [gpioConfig, gpioWrite, gpioRead, uartWrite, uartRead, i2cWrite, i2cRead, i2cWriteRead,
    spiTransfer, pwmSet, pwmStop, adcRead].find? (·.code = code)

/-- The words of a request.  `data` is what its inline bytes hold up to `length`. -/
structure PeriphRequest where
  op : U32
  arg0 : U32
  arg1 : U32
  arg2 : U32
  length : U32
  data : List U8
deriving DecidableEq

/-- `MAILMSG_PERIPH_REQUEST_BYTES` and `MAILMSG_PERIPH_RESULT_BYTES` are 28, and
`MAILMSG_PERIPH_INLINE_BYTES` is 8. -/
def decodeRequest (payload : Fin 28 → U8) : PeriphRequest :=
  let length := payloadU32 payload 16
  { op := payloadU32 payload 0
    arg0 := payloadU32 payload 4
    arg1 := payloadU32 payload 8
    arg2 := payloadU32 payload 12
    length := length
    data := ((List.ofFn payload).drop 20).take length.toNat }

/-- The variables `status`, `value` and the first `out_length` of `bytes`. -/
structure PeriphReply where
  status : Int
  value : U32
  data : List U8

def PeriphReply.ofStatus (status : Int) : PeriphReply := ⟨status, 0, []⟩

/-- Data counts only with status 0. -/
def PeriphReply.ofData (result : Int × List U8) : PeriphReply :=
  ⟨result.1, 0, if result.1 ≠ 0 then [] else result.2⟩

/-- The 28 bytes of a result. -/
def resultRecord (sequence op : U32) (reply : PeriphReply) : List U8 :=
  storePayloadU32 sequence ++ storePayloadU32 (BitVec.ofInt 32 reply.status) ++
    storePayloadU32 op ++ storePayloadU32 reply.value ++
    storePayloadU32 (BitVec.ofNat 32 reply.data.length) ++
    (reply.data ++ List.replicate (8 - reply.data.length) 0)

namespace PeripheralService

variable (service : PeripheralService) (req : PeriphRequest)

def uart : Option Uart :=
  if req.arg0 = 5 then service.uart5 else if req.arg0 = 7 then service.uart7 else none

def gpioConfig : Mmio (PeriphReply × PeripheralService) :=
  if 1#32 < req.arg1 ∨ 1#32 < req.arg2 then pure (.ofStatus serviceInvalid, service)
  else if service.spiProfile then pure (.ofStatus serviceUnavailable, service)
  else do
    let (status, gpio) ← if req.arg1 ≠ 0 then
        gpio3ConfigureOutput service.gpio req.arg0 (req.arg2 ≠ 0)
      else gpio3ConfigureInput service.gpio req.arg0
    pure (.ofStatus status, { service with gpio := gpio })

def gpioWrite : Mmio PeriphReply :=
  if 1#32 < req.arg1 then pure (.ofStatus serviceInvalid)
  else if service.spiProfile then pure (.ofStatus serviceUnavailable)
  else do
    let status ← gpio3Set service.gpio req.arg0 (req.arg1 ≠ 0)
    pure (.ofStatus status)

def gpioRead : Mmio PeriphReply :=
  if service.spiProfile then pure (.ofStatus serviceUnavailable)
  else do
    let (status, level) ← gpio3Get service.gpio req.arg0
    pure ⟨status, level, []⟩

def uartWrite : Mmio PeriphReply :=
  match service.uart req with
  | none => pure (.ofStatus serviceInvalid)
  | some uart => do
    let status ← Cpu3.uartWrite (some uart) req.data serviceTimeoutUs
    pure (.ofStatus status)

def uartRead : Mmio PeriphReply :=
  match service.uart req with
  | none => pure (.ofStatus serviceInvalid)
  | some uart =>
    if req.arg1 = 0 ∨ 8#32 < req.arg1 then pure (.ofStatus serviceInvalid)
    else do
      let (status, data) ← Cpu3.uartRead (some uart) req.arg1.toNat serviceTimeoutUs
      pure ⟨status, 0, data⟩

def i2cWrite : Mmio PeriphReply :=
  if service.spiProfile then pure (.ofStatus serviceUnavailable)
  else if 0x7f#32 < req.arg0 then pure (.ofStatus serviceInvalid)
  else do
    let status ← Cpu3.i2cWrite service.i2c7 (req.arg0.setWidth 8) req.data serviceTimeoutUs
    pure (.ofStatus status)

def i2cRead : Mmio PeriphReply :=
  if service.spiProfile then pure (.ofStatus serviceUnavailable)
  else if 0x7f#32 < req.arg0 ∨ req.arg1 = 0 ∨ 8#32 < req.arg1 then
    pure (.ofStatus serviceInvalid)
  else do
    let result ← Cpu3.i2cRead service.i2c7 (req.arg0.setWidth 8) req.arg1.toNat serviceTimeoutUs
    pure (.ofData result)

def i2cWriteRead : Mmio PeriphReply :=
  if service.spiProfile then pure (.ofStatus serviceUnavailable)
  else if 0x7f#32 < req.arg0 ∨ req.length = 0 ∨ 3#32 < req.length ∨ req.arg1 = 0 ∨
      8#32 < req.arg1 then pure (.ofStatus serviceInvalid)
  else do
    let result ← Cpu3.i2cWriteRead service.i2c7 (req.arg0.setWidth 8) req.data req.arg1.toNat
      serviceTimeoutUs
    pure (.ofData result)

def spiTransfer : Mmio (PeriphReply × PeripheralService) :=
  if !service.spiProfile then pure (.ofStatus serviceUnavailable, service)
  else if req.length = 0 ∨ 3#32 < req.arg1 then pure (.ofStatus serviceInvalid, service)
  else do
    let (status, spi0) ← spiSetMode service.spi0 req.arg1
    let service := { service with spi0 := spi0 }
    if status ≠ 0 then pure (.ofStatus status, service)
    else do
      let result ← Cpu3.spiTransfer spi0 req.arg0 req.data serviceTimeoutUs
      pure (.ofData result, service)

def pwmSet : Mmio PeriphReply :=
  if 1#32 < req.arg2 then pure (.ofStatus serviceInvalid)
  else do
    let status ← Cpu3.pwmSet service.pwm7 req.arg0 req.arg1 (req.arg2 ≠ 0)
    pure (.ofStatus status)

def pwmStop : Mmio PeriphReply := do
  let status ← Cpu3.pwmStop service.pwm7
  pure (.ofStatus status)

def adcRead : Mmio PeriphReply := do
  let status ← resetPulse service.reset .saradc
  if status ≠ 0 then pure (.ofStatus status)
  else do
    let (status, sample) ← saradcRead service.saradc req.arg0 serviceTimeoutUs
    pure ⟨status, sample, []⟩

/-- For the operations that leave the service as it is. -/
def keep (reply : Mmio PeriphReply) : Mmio (PeriphReply × PeripheralService) := do
  let reply ← reply
  pure (reply, service)

/-- The `switch` over the operations. -/
def dispatch : Mmio (PeriphReply × PeripheralService) :=
  match PeriphOp.ofCode req.op with
  | some .gpioConfig => service.gpioConfig req
  | some .gpioWrite => service.keep (service.gpioWrite req)
  | some .gpioRead => service.keep (service.gpioRead req)
  | some .uartWrite => service.keep (service.uartWrite req)
  | some .uartRead => service.keep (service.uartRead req)
  | some .i2cWrite => service.keep (service.i2cWrite req)
  | some .i2cRead => service.keep (service.i2cRead req)
  | some .i2cWriteRead => service.keep (service.i2cWriteRead req)
  | some .spiTransfer => service.spiTransfer req
  | some .pwmSet => service.keep (service.pwmSet req)
  | some .pwmStop => service.keep service.pwmStop
  | some .adcRead => service.keep (service.adcRead req)
  | none => pure (.ofStatus serviceInvalid, service)

def reply : Mmio (PeriphReply × PeripheralService) :=
  if 8#32 < req.length then pure (.ofStatus serviceInvalid, service) else service.dispatch req

/-- `lzamp_peripheral_service_execute`: the result record, or `none` for -1. -/
def execute (request : Message) : Mmio (Option (List U8) × PeripheralService) :=
  if request.type ≠ msgPeripheralRequest ∨ request.length ≠ 28 then pure (none, service)
  else do
    let req := decodeRequest request.payload
    let (reply, service) ← service.reply req
    pure (some (resultRecord request.sequence req.op reply), service)

end PeripheralService

end Lzamp.Cpu3
