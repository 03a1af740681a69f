import Lzamp.Agent.Allowlist
import Lzamp.System.RpcCodec

namespace Lzamp.System
open Lib Lib.PyText Lib.PyJson Mailmsg R1Amp Cpu3

structure OwnedLine where
  number : U32
  owned : lineIsOwned number = true

inductive UartPort where
  | uart5
  | uart7

/-- A word within bounds. -/
structure Word (low high : ℕ) where
  word : U32
  low_le : low ≤ word.toNat
  le_high : word.toNat ≤ high

/-- Bytes within bounds of their number. -/
structure Bytes (low high : ℕ) where
  bytes : List U8
  low_le : low ≤ bytes.length
  le_high : bytes.length ≤ high

structure PwmSetting where
  period : U32
  duty : U32
  inverted : Bool
  period_ne : period ≠ 0
  duty_le : duty ≤ period

inductive Action where
  | gpioConfig (line : OwnedLine) (output value : Bool)
  | gpioWrite (line : OwnedLine) (value : Bool)
  | gpioRead (line : OwnedLine)
  | uartWrite (port : UartPort) (data : Bytes 1 8)
  | uartRead (port : UartPort) (length : Word 1 8)
  | i2cWrite (address : Word 0 127) (data : Bytes 1 8)
  | i2cRead (address : Word 0 127) (length : Word 1 8)
  | i2cWriteRead (address : Word 0 127) (registers : Bytes 1 3) (length : Word 1 8)
  | spiTransfer (chipSelect : Word 0 1) (mode : Word 0 3) (data : Bytes 1 8)
  | pwmSet (setting : PwmSetting)
  | pwmStop
  | adcRead (channel : Word 0 7)

namespace UartPort

def number : UartPort → U32
  | .uart5 => 5
  | .uart7 => 7

def device (service : PeripheralService) : UartPort → Option Uart
  | .uart5 => service.uart5
  | .uart7 => service.uart7

end UartPort

/-- For the operations on the pins that SPI0 would take. -/
def unlessSpi (service : PeripheralService) (act : Mmio PeriphReply) : Mmio PeriphReply :=
  if service.spiProfile then pure (.ofStatus serviceUnavailable) else act

def onUart (device : Option Uart) (act : Uart → Mmio PeriphReply) : Mmio PeriphReply :=
  match device with
  | none => pure (.ofStatus serviceInvalid)
  | some uart => act uart

/-- What an action does on CPU3. -/
def Action.perform (service : PeripheralService) :
    Action → Mmio (PeriphReply × PeripheralService)
  | .gpioConfig line output value =>
    if service.spiProfile then pure (.ofStatus serviceUnavailable, service)
    else do
      let (status, gpio) ← if output then gpio3ConfigureOutput service.gpio line.number value
        else gpio3ConfigureInput service.gpio line.number
      pure (.ofStatus status, { service with gpio := gpio })
  | .gpioWrite line value => service.keep <| unlessSpi service do
    let status ← gpio3Set service.gpio line.number value
    pure (.ofStatus status)
  | .gpioRead line => service.keep <| unlessSpi service do
    let (status, level) ← gpio3Get service.gpio line.number
    pure ⟨status, level, []⟩
  | .uartWrite port data => service.keep <| onUart (port.device service) fun uart => do
    let status ← Cpu3.uartWrite (some uart) data.bytes serviceTimeoutUs
    pure (.ofStatus status)
  | .uartRead port length => service.keep <| onUart (port.device service) fun uart => do
    let (status, data) ← Cpu3.uartRead (some uart) length.word.toNat serviceTimeoutUs
    pure ⟨status, 0, data⟩
  | .i2cWrite address data => service.keep <| unlessSpi service do
    let status ← Cpu3.i2cWrite service.i2c7 (address.word.setWidth 8) data.bytes serviceTimeoutUs
    pure (.ofStatus status)
  | .i2cRead address length => service.keep <| unlessSpi service do
    let result ← Cpu3.i2cRead service.i2c7 (address.word.setWidth 8) length.word.toNat
      serviceTimeoutUs
    pure (.ofData result)
  | .i2cWriteRead address registers length => service.keep <| unlessSpi service do
    let result ← Cpu3.i2cWriteRead service.i2c7 (address.word.setWidth 8) registers.bytes
      length.word.toNat serviceTimeoutUs
    pure (.ofData result)
  | .spiTransfer chipSelect mode data =>
    if !service.spiProfile then pure (.ofStatus serviceUnavailable, service)
    else do
      let (status, spi0) ← spiSetMode service.spi0 mode.word
      let service := { service with spi0 := spi0 }
      if status ≠ 0 then pure (.ofStatus status, service)
      else do
        let result ← Cpu3.spiTransfer spi0 chipSelect.word data.bytes serviceTimeoutUs
        pure (.ofData result, service)
  | .pwmSet setting => service.keep do
    let status ← Cpu3.pwmSet service.pwm7 setting.period setting.duty setting.inverted
    pure (.ofStatus status)
  | .pwmStop => service.keep do
    let status ← Cpu3.pwmStop service.pwm7
    pure (.ofStatus status)
  | .adcRead channel => service.keep do
    let status ← resetPulse service.reset .saradc
    if status ≠ 0 then pure (.ofStatus status)
    else do
      let (status, sample) ← saradcRead service.saradc channel.word serviceTimeoutUs
      pure ⟨status, sample, []⟩

def flag (b : Bool) : U32 := if b then 1 else 0

/-- The request that stands for an action. -/
def Action.request : Action → PeriphRequest
  | .gpioConfig line output value => ⟨1, line.number, flag output, flag value, 0, []⟩
  | .gpioWrite line value => ⟨2, line.number, flag value, 0, 0, []⟩
  | .gpioRead line => ⟨3, line.number, 0, 0, 0, []⟩
  | .uartWrite port data => ⟨4, port.number, 0, 0, BitVec.ofNat 32 data.bytes.length, data.bytes⟩
  | .uartRead port length => ⟨5, port.number, length.word, 0, 0, []⟩
  | .i2cWrite address data =>
    ⟨6, address.word, 0, 0, BitVec.ofNat 32 data.bytes.length, data.bytes⟩
  | .i2cRead address length => ⟨7, address.word, length.word, 0, 0, []⟩
  | .i2cWriteRead address registers length =>
    ⟨8, address.word, length.word, 0, BitVec.ofNat 32 registers.bytes.length, registers.bytes⟩
  | .spiTransfer chipSelect mode data =>
    ⟨9, chipSelect.word, mode.word, 0, BitVec.ofNat 32 data.bytes.length, data.bytes⟩
  | .pwmSet setting => ⟨10, setting.period, setting.duty, flag setting.inverted, 0, []⟩
  | .pwmStop => ⟨11, 0, 0, 0, 0, []⟩
  | .adcRead channel => ⟨12, channel.word, 0, 0, 0, []⟩

theorem flag_le (b : Bool) : ¬ 1#32 < flag b := by
  cases b <;> decide

theorem Word.not_lt {low high : ℕ} (w : Word low high) {bound : U32} (h : high ≤ bound.toNat) :
    ¬ bound < w.word := by
  rw [BitVec.lt_def]
  have := w.le_high
  omega

theorem Word.ne_zero {low high : ℕ} (w : Word low high) (h : 0 < low) : w.word ≠ 0 := by
  intro heq
  have hlow := w.low_le
  rw [heq, BitVec.ofNat_eq_ofNat, BitVec.toNat_zero] at hlow
  omega

theorem Bytes.toNat_length {low high : ℕ} (data : Bytes low high) (h : high ≤ 8) :
    (BitVec.ofNat 32 data.bytes.length).toNat = data.bytes.length := by
  have := data.le_high
  rw [BitVec.toNat_ofNat]
  omega

theorem Bytes.not_lt {low high : ℕ} (data : Bytes low high) (h : high ≤ 8) {bound : U32}
    (hb : high ≤ bound.toNat) : ¬ bound < BitVec.ofNat 32 data.bytes.length := by
  have := data.le_high
  rw [BitVec.lt_def, data.toNat_length h]
  omega

theorem Bytes.ofNat_ne {low high : ℕ} (data : Bytes low high) (h : high ≤ 8) (hlow : 0 < low) :
    BitVec.ofNat 32 data.bytes.length ≠ 0 := by
  intro heq
  have hlen := data.toNat_length h
  rw [heq] at hlen
  have := data.low_le
  simp only [BitVec.toNat_zero, BitVec.ofNat_eq_ofNat] at hlen
  omega

theorem uart_eq (service : PeripheralService) (port : UartPort) {req : PeriphRequest}
    (h : req.arg0 = port.number) : service.uart req = port.device service := by
  unfold PeripheralService.uart
  rw [h]
  cases port <;> rfl

/-- The service performs the action that a request stands for: none of its checks fail. -/
theorem Action.reply_request (a : Action) (service : PeripheralService) :
    service.reply a.request = a.perform service := by
  -- no action carries more data than the record has room for
  have hlength : ¬ 8#32 < a.request.length := by
    cases a with
    | uartWrite _ data => exact data.not_lt le_rfl le_rfl
    | i2cWrite _ data => exact data.not_lt le_rfl le_rfl
    | i2cWriteRead _ registers _ => exact registers.not_lt (by decide) (by decide)
    | spiTransfer _ _ data => exact data.not_lt le_rfl le_rfl
    | _ => exact (by decide : ¬ 8#32 < 0)
  rw [PeripheralService.reply, if_neg hlength]
  cases a with
  | gpioConfig line output value =>
    refine (if_neg (not_or.mpr ⟨flag_le output, flag_le value⟩)).trans ?_
    cases output <;> cases value <;> rfl
  | gpioWrite line value =>
    refine congrArg service.keep ((if_neg (flag_le value)).trans ?_)
    cases value <;> rfl
  | gpioRead line => rfl
  | uartWrite port data => cases port <;> rfl
  | uartRead port length =>
    have hcheck : ¬ (length.word = 0 ∨ 8#32 < length.word) :=
      not_or.mpr ⟨length.ne_zero (by decide), length.not_lt le_rfl⟩
    refine congrArg service.keep ?_
    -- the length is checked by the driver here, so the port is looked up first
    unfold PeripheralService.uartRead onUart
    rw [uart_eq service port rfl]
    cases port.device service with
    | none => rfl
    | some uart => exact if_neg hcheck
  | i2cWrite address data =>
    refine congrArg service.keep (if_congr Iff.rfl rfl ?_)
    exact if_neg (address.not_lt (by decide))
  | i2cRead address length =>
    refine congrArg service.keep (if_congr Iff.rfl rfl ?_)
    exact if_neg (not_or.mpr ⟨address.not_lt (by decide),
      not_or.mpr ⟨length.ne_zero (by decide), length.not_lt le_rfl⟩⟩)
  | i2cWriteRead address registers length =>
    refine congrArg service.keep (if_congr Iff.rfl rfl ?_)
    exact if_neg (not_or.mpr ⟨address.not_lt (by decide), not_or.mpr
      ⟨registers.ofNat_ne (by decide) (by decide), not_or.mpr ⟨registers.not_lt (by decide) le_rfl,
        not_or.mpr ⟨length.ne_zero (by decide), length.not_lt le_rfl⟩⟩⟩⟩)
  | spiTransfer chipSelect mode data =>
    refine if_congr Iff.rfl rfl ?_
    exact if_neg (not_or.mpr ⟨data.ofNat_ne le_rfl (by decide), mode.not_lt le_rfl⟩)
  | pwmSet setting =>
    refine congrArg service.keep ((if_neg (flag_le setting.inverted)).trans ?_)
    obtain ⟨period, duty, inverted, _, _⟩ := setting
    cases inverted <;> rfl
  | pwmStop => rfl
  | adcRead channel => rfl

section Denotes

variable {tool : Agent.Tool} {arguments : List (Str × Json)}

/-- The word that an argument holds. -/
def IntArg (arguments : List (Str × Json)) (field : String) (word : U32) : Prop :=
  Agent.lookup arguments field = some (.int word.toNat)

def StrArg (arguments : List (Str × Json)) (field : String) (s : Str) : Prop :=
  Agent.lookup arguments field = some (.str s)

/-- The arguments of a tool ask for an action. -/
inductive Denotes (arguments : List (Str × Json)) : Agent.Tool → Action → Prop
  | gpioConfig {line : OwnedLine} {output value : Bool}
      (hline : IntArg arguments "line" line.number)
      (hdirection : StrArg arguments "direction" (str (if output then "output" else "input")))
      (hvalue : IntArg arguments "value" (flag value)) :
      Denotes arguments .gpioConfig (.gpioConfig line output value)
  | gpioWrite {line : OwnedLine} {value : Bool} (hline : IntArg arguments "line" line.number)
      (hvalue : IntArg arguments "value" (flag value)) :
      Denotes arguments .gpioWrite (.gpioWrite line value)
  | gpioRead {line : OwnedLine} (hline : IntArg arguments "line" line.number) :
      Denotes arguments .gpioRead (.gpioRead line)
  | uartWrite {port : UartPort} {data : Bytes 1 8} {s : Str}
      (hport : IntArg arguments "port" port.number) (hdata : StrArg arguments "data" s)
      (hs : encodeUtf8 s = some data.bytes) :
      Denotes arguments .uartWrite (.uartWrite port data)
  | uartRead {port : UartPort} {length : Word 1 8} (hport : IntArg arguments "port" port.number)
      (hlength : IntArg arguments "length" length.word) :
      Denotes arguments .uartRead (.uartRead port length)
  | i2cWrite {address : Word 0 127} {data : Bytes 1 8} {s : Str}
      (haddress : IntArg arguments "address" address.word) (hdata : StrArg arguments "data_hex" s)
      (hs : fromHex s = some data.bytes) :
      Denotes arguments .i2cWrite (.i2cWrite address data)
  | i2cRead {address : Word 0 127} {length : Word 1 8}
      (haddress : IntArg arguments "address" address.word)
      (hlength : IntArg arguments "length" length.word) :
      Denotes arguments .i2cRead (.i2cRead address length)
  | i2cWriteRead {address : Word 0 127} {registers : Bytes 1 3} {length : Word 1 8} {s : Str}
      (haddress : IntArg arguments "address" address.word)
      (hdata : StrArg arguments "prefix_hex" s) (hs : fromHex s = some registers.bytes)
      (hlength : IntArg arguments "length" length.word) :
      Denotes arguments .i2cWriteRead (.i2cWriteRead address registers length)
  | spiTransfer {chipSelect : Word 0 1} {mode : Word 0 3} {data : Bytes 1 8} {s : Str}
      (hselect : IntArg arguments "chip_select" chipSelect.word)
      (hmode : IntArg arguments "mode" mode.word) (hdata : StrArg arguments "data_hex" s)
      (hs : fromHex s = some data.bytes) :
      Denotes arguments .spiTransfer (.spiTransfer chipSelect mode data)
  | pwmSet {setting : PwmSetting} (hperiod : IntArg arguments "period_ns" setting.period)
      (hduty : IntArg arguments "duty_ns" setting.duty)
      (hpolarity : IntArg arguments "polarity" (flag setting.inverted)) :
      Denotes arguments .pwmSet (.pwmSet setting)
  | pwmStop : Denotes arguments .pwmStop .pwmStop
  | adcRead {channel : Word 0 7} (hchannel : IntArg arguments "channel" channel.word) :
      Denotes arguments .adcRead (.adcRead channel)

theorem IntArg.item {field : String} {word : U32} (h : IntArg arguments field word) :
    Agent.intItem arguments field = pure (word.toNat : ℤ) := by
  rw [Agent.intItem, h]

theorem StrArg.item {field : String} {s : Str} (h : StrArg arguments field s) :
    Agent.strItem arguments field = pure s := by
  rw [Agent.strItem, h]

theorem StrArg.hexItem {field : String} {s : Str} (h : StrArg arguments field s) {bytes : List U8}
    (hs : fromHex s = some bytes) : Agent.hexItem arguments field = pure bytes := by
  rw [Agent.hexItem, h.item, pure_bind, hs]

theorem exists_word (low high : ℕ) (h : Agent.Fits tool arguments) (field : String)
    (hmem : (field, Agent.integerSchema low high) ∈ tool.properties) (hhigh : high < 2 ^ 32) :
    ∃ w : Word low high, IntArg arguments field w.word := by
  obtain ⟨n, hn, -, hlow, hle⟩ := h.intItem hmem
  have hlow' : (low : ℤ) ≤ n := hlow low rfl
  have hle' : n ≤ (high : ℤ) := hle high rfl
  obtain ⟨k, rfl⟩ := Int.eq_ofNat_of_zero_le (by omega : 0 ≤ n)
  have hk : (BitVec.ofNat 32 k).toNat = k := by
    rw [BitVec.toNat_ofNat]
    omega
  refine ⟨⟨BitVec.ofNat 32 k, by omega, by omega⟩, ?_⟩
  rw [IntArg, hk]
  exact Agent.intItem_ok hn

theorem exists_flag (h : Agent.Fits tool arguments) (field : String)
    (hmem : (field, Agent.integerSchema 0 1) ∈ tool.properties) :
    ∃ b, IntArg arguments field (flag b) := by
  obtain ⟨w, hw⟩ := exists_word 0 1 h field hmem (by decide)
  have hle := w.le_high
  refine ⟨decide (w.word = 1), ?_⟩
  have hword : flag (decide (w.word = 1)) = w.word := by
    unfold flag
    by_cases hone : w.word = 1
    · simp [hone]
    · rw [decide_eq_false hone]
      apply BitVec.eq_of_toNat_eq
      have hne : w.word.toNat ≠ 1 := fun heq => hone (BitVec.eq_of_toNat_eq heq)
      simp
      omega
  rw [hword]
  exact hw

theorem exists_line (h : Agent.Fits tool arguments)
    (hmem : ("line", Agent.lineSchema) ∈ tool.properties) :
    ∃ line : OwnedLine, IntArg arguments "line" line.number := by
  obtain ⟨n, hn, henum, -⟩ := h.intItem hmem
  have hlookup := Agent.intItem_ok hn
  have hline : n = 25 ∨ n = 28 ∨ n = 29 := by
    simpa [Agent.gpioReadLines] using henum _ rfl
  obtain rfl | rfl | rfl := hline
  · exact ⟨⟨25, rfl⟩, hlookup⟩
  · exact ⟨⟨28, rfl⟩, hlookup⟩
  · exact ⟨⟨29, rfl⟩, hlookup⟩

theorem exists_port (h : Agent.Fits tool arguments)
    (hmem : ("port", Agent.portSchema) ∈ tool.properties) :
    ∃ port : UartPort, IntArg arguments "port" port.number := by
  obtain ⟨n, hn, henum, -⟩ := h.intItem hmem
  have hlookup := Agent.intItem_ok hn
  have hport : n = 5 ∨ n = 7 := by
    simpa [Agent.uartPorts] using henum _ rfl
  obtain rfl | rfl := hport
  · exact ⟨.uart5, hlookup⟩
  · exact ⟨.uart7, hlookup⟩

theorem exists_hex {field : String} {low high : ℕ} {s : Str}
    (hs : Agent.lookup arguments field = some (.str s)) (hhex : Agent.LowerHex low high s) :
    ∃ data : Bytes low high, StrArg arguments field s ∧ fromHex s = some data.bytes := by
  obtain ⟨bytes, hbytes, hcount⟩ := Agent.fromHex_ok (n := s.length / 2)
    (by have := hhex.whole; omega) hhex.digits
  have := hhex.low_le
  have := hhex.le_high
  exact ⟨⟨bytes, by omega, by omega⟩, hs, hbytes⟩

/-- Arguments that pass the checks of a peripheral tool denote an action. -/
theorem exists_denotes (hne : tool ≠ .increment ∧ tool ≠ .imuRead)
    (hfits : Agent.Fits tool arguments) (hrefined : Agent.Refined tool arguments) :
    ∃ a, Denotes arguments tool a := by
  -- each field is found at its place in the schema, and the schema bounds it into the word
  cases tool with
  | increment => exact absurd rfl hne.1
  | imuRead => exact absurd rfl hne.2
  | gpioConfig =>
    obtain ⟨line, hline⟩ := exists_line hfits (.head _)
    obtain ⟨direction, hdirection, s, rfl, -, henum⟩ :=
      Agent.lookup_of_forall₂ hfits (Agent.nodup_properties _) (.tail _ (.head _))
    obtain ⟨value, hvalue⟩ := exists_flag hfits "value" (.tail _ (.tail _ (.head _)))
    have hs : s = str "input" ∨ s = str "output" := by simpa using henum _ rfl
    obtain rfl | rfl := hs
    · exact ⟨.gpioConfig line false value, .gpioConfig hline hdirection hvalue⟩
    · exact ⟨.gpioConfig line true value, .gpioConfig hline hdirection hvalue⟩
  | gpioWrite =>
    obtain ⟨line, hline⟩ := exists_line hfits (.head _)
    obtain ⟨value, hvalue⟩ := exists_flag hfits "value" (.tail _ (.head _))
    exact ⟨.gpioWrite line value, .gpioWrite hline hvalue⟩
  | gpioRead =>
    obtain ⟨line, hline⟩ := exists_line hfits (.head _)
    exact ⟨.gpioRead line, .gpioRead hline⟩
  | uartWrite =>
    obtain ⟨port, hport⟩ := exists_port hfits (.head _)
    obtain ⟨s, bytes, hs, hbytes, hlow, hhigh⟩ := hrefined
    exact ⟨.uartWrite port ⟨bytes, hlow, hhigh⟩, .uartWrite hport hs hbytes⟩
  | uartRead =>
    obtain ⟨port, hport⟩ := exists_port hfits (.head _)
    obtain ⟨length, hlength⟩ :=
      exists_word 1 8 hfits "length" (.tail _ (.head _)) (by decide)
    exact ⟨.uartRead port length, .uartRead hport hlength⟩
  | i2cWrite =>
    obtain ⟨address, haddress⟩ :=
      exists_word 0 127 hfits "address" (.head _) (by decide)
    obtain ⟨s, hs, hhex⟩ := hrefined
    obtain ⟨data, hdata, hbytes⟩ := exists_hex hs hhex
    exact ⟨.i2cWrite address data, .i2cWrite haddress hdata hbytes⟩
  | i2cRead =>
    obtain ⟨address, haddress⟩ :=
      exists_word 0 127 hfits "address" (.head _) (by decide)
    obtain ⟨length, hlength⟩ :=
      exists_word 1 8 hfits "length" (.tail _ (.head _)) (by decide)
    exact ⟨.i2cRead address length, .i2cRead haddress hlength⟩
  | i2cWriteRead =>
    obtain ⟨address, haddress⟩ :=
      exists_word 0 127 hfits "address" (.head _) (by decide)
    obtain ⟨length, hlength⟩ :=
      exists_word 1 8 hfits "length" (.tail _ (.tail _ (.head _))) (by decide)
    obtain ⟨s, hs, hhex⟩ := hrefined
    obtain ⟨registers, hdata, hbytes⟩ := exists_hex hs hhex
    exact ⟨.i2cWriteRead address registers length, .i2cWriteRead haddress hdata hbytes hlength⟩
  | spiTransfer =>
    obtain ⟨chipSelect, hselect⟩ :=
      exists_word 0 1 hfits "chip_select" (.head _) (by decide)
    obtain ⟨mode, hmode⟩ :=
      exists_word 0 3 hfits "mode" (.tail _ (.head _)) (by decide)
    obtain ⟨s, hs, hhex⟩ := hrefined
    obtain ⟨data, hdata, hbytes⟩ := exists_hex hs hhex
    exact ⟨.spiTransfer chipSelect mode data, .spiTransfer hselect hmode hdata hbytes⟩
  | pwmSet =>
    obtain ⟨period, hperiod⟩ :=
      exists_word 1 4294967295 hfits "period_ns" (.head _) (by decide)
    obtain ⟨duty, hduty⟩ :=
      exists_word 0 4294967295 hfits "duty_ns" (.tail _ (.head _)) (by decide)
    obtain ⟨inverted, hpolarity⟩ := exists_flag hfits "polarity" (.tail _ (.tail _ (.head _)))
    obtain ⟨duty', period', hduty', hperiod', hle⟩ := hrefined
    -- both readings of a field are of the same arguments; the refinement orders them
    have hwords : duty.word ≤ period.word := by
      cases hduty.symm.trans hduty'
      cases hperiod.symm.trans hperiod'
      rw [BitVec.le_def]
      omega
    exact ⟨.pwmSet ⟨period.word, duty.word, inverted, period.ne_zero (by decide), hwords⟩,
      .pwmSet hperiod hduty hpolarity⟩
  | pwmStop => exact ⟨.pwmStop, .pwmStop⟩
  | adcRead =>
    obtain ⟨channel, hchannel⟩ :=
      exists_word 0 7 hfits "channel" (.head _) (by decide)
    exact ⟨.adcRead channel, .adcRead hchannel⟩

theorem Denotes.peripheralArguments {a : Action} (h : Denotes arguments tool a) :
    Agent.peripheralArguments (str tool.name) arguments =
      .ok ⟨a.request.op.toNat, a.request.arg0.toNat, a.request.arg1.toNat, a.request.arg2.toNat,
        a.request.data⟩ := by
  unfold Agent.peripheralArguments
  rw [Agent.toolOfName_name]
  cases h with
  | @gpioConfig line output value hline hdirection hvalue =>
    simp only [hline.item, hdirection.item, hvalue.item, pure_bind]
    cases output <;> rfl
  | gpioWrite hline hvalue =>
    simp only [hline.item, hvalue.item, pure_bind]
    rfl
  | gpioRead hline =>
    simp only [hline.item, pure_bind]
    rfl
  | uartWrite hport hdata hs =>
    simp only [hport.item, hdata.item, hs, pure_bind]
    rfl
  | uartRead hport hlength =>
    simp only [hport.item, hlength.item, pure_bind]
    rfl
  | i2cWrite haddress hdata hs =>
    simp only [haddress.item, hdata.hexItem hs, pure_bind]
    rfl
  | i2cRead haddress hlength =>
    simp only [haddress.item, hlength.item, pure_bind]
    rfl
  | i2cWriteRead haddress hdata hs hlength =>
    simp only [haddress.item, hlength.item, hdata.hexItem hs, pure_bind]
    rfl
  | spiTransfer hselect hmode hdata hs =>
    simp only [hselect.item, hmode.item, hdata.hexItem hs, pure_bind]
    rfl
  | pwmSet hperiod hduty hpolarity =>
    simp only [hperiod.item, hduty.item, hpolarity.item, pure_bind]
    rfl
  | pwmStop => rfl
  | adcRead hchannel =>
    simp only [hchannel.item, pure_bind]
    rfl

end Denotes

theorem Action.length_data (a : Action) : a.request.data.length ≤ 8 ∧
    a.request.length = BitVec.ofNat 32 a.request.data.length := by
  cases a with
  | uartWrite _ data => exact ⟨data.le_high, rfl⟩
  | i2cWrite _ data => exact ⟨data.le_high, rfl⟩
  | i2cWriteRead _ registers _ => exact ⟨registers.le_high.trans (by decide), rfl⟩
  | spiTransfer _ _ data => exact ⟨data.le_high, rfl⟩
  | _ => exact ⟨Nat.zero_le 8, rfl⟩

/-- Written to a p1 device of an active session with room in the ring, the agent's record becomes a
frame at the end of the ring, and when CPU3 receives it, it performs the action. -/
def Delivers (record : List U8) (a : Action) : Prop :=
  ∀ (generation : U32) (d : Driver) (file : UserFile), d.life.mailmsgState = .active →
    InSession .linux generation d.endpoint d.shared → file.channel = prioControl →
    (d.shared.linuxToCpu3 prioControl).InRange →
    next (d.shared.linuxToCpu3 prioControl).producer ≠
      (d.shared.linuxToCpu3 prioControl).consumer →
    (mailmsgUserWrite record.length (some (userFrameOfBytes record)) file d).1 = userFrameBytes ∧
    ∃ frame,
      ((mailmsgUserWrite record.length (some (userFrameOfBytes record)) file
        d).2.shared.linuxToCpu3 prioControl).contents =
        (d.shared.linuxToCpu3 prioControl).contents ++ [frame] ∧
      ∀ (e : Endpoint) (sh : Shared), InSession .cpu3 generation e sh →
        (sh.linuxToCpu3 prioControl).InRange →
        ∀ rest, (sh.linuxToCpu3 prioControl).contents = frame :: rest → ∀ buffer,
          (endpointReceive e sh prioControl buffer).ret = ringOk ∧
          ∀ service : PeripheralService,
            service.execute (endpointReceive e sh prioControl buffer).message =
              a.perform service >>= fun r =>
                pure (some (resultRecord frame.sequence a.request.op r.1), r.2)

theorem exists_denotes_of_accepted {py : Interpreter} {text : Str} {d : Agent.Decision}
    (h : Agent.parseDecision py text = .ok d) (hincrement : d.name ≠ str Agent.Tool.increment.name)
    (himu : d.name ≠ str Agent.Tool.imuRead.name) :
    ∃ tool a, d.name = str tool.name ∧ Denotes d.arguments tool a := by
  obtain ⟨decision, -, hvalidate⟩ := bind_eq_ok.mp h
  obtain ⟨tool, hname, hfits, hrefined⟩ := Agent.validateDecision_ok hvalidate
  have hne : tool ≠ .increment ∧ tool ≠ .imuRead := by
    constructor
    · rintro rfl
      exact hincrement hname
    · rintro rfl
      exact himu hname
  obtain ⟨a, ha⟩ := exists_denotes hne hfits hrefined
  exact ⟨tool, a, hname, ha⟩

/-- Each text that is accepted for a peripheral tool denotes an action within the bounds of the
schema, and the record that `_peripheral_arguments` makes of it delivers that action.  For
`zephyr_gpio_read` this record is not the one `main` sends: it asks with a GPIO_READ_REQUEST. -/
theorem accepted_decision_performed (py : Interpreter) (text : Str) (d : Agent.Decision)
    (h : Agent.parseDecision py text = .ok d) (hincrement : d.name ≠ str Agent.Tool.increment.name)
    (himu : d.name ≠ str Agent.Tool.imuRead.name) :
    ∃ tool a call record, d.name = str tool.name ∧ Denotes d.arguments tool a ∧
      Agent.peripheralArguments d.name d.arguments = .ok call ∧
      Agent.packPeripheralFrame call.operation call.arg0 call.arg1 call.arg2 call.data =
        .ok record ∧ Delivers record a := by
  obtain ⟨tool, a, hname, ha⟩ := exists_denotes_of_accepted h hincrement himu
  obtain ⟨hdata, hlength⟩ := a.length_data
  rw [hname]
  refine ⟨tool, a, _, _, rfl, ha, ha.peripheralArguments,
    Agent.packPeripheralFrame_eq (BitVec.isLt _) (BitVec.isLt _) (BitVec.isLt _) (BitVec.isLt _)
      hdata, ?_⟩
  intro generation drv file hactive hlinux hchannel hrange hroom
  obtain ⟨record, frame, hrecord, hwrite, hcontents, hreceive⟩ := request_arrives hactive hlinux
    hchannel hrange hroom a.request.op a.request.arg0 a.request.arg1 a.request.arg2 hdata
  rw [Agent.packPeripheralFrame_eq (BitVec.isLt _) (BitVec.isLt _) (BitVec.isLt _) (BitVec.isLt _)
    hdata] at hrecord
  cases hrecord
  refine ⟨hwrite, frame, hcontents, ?_⟩
  intro e sh hcpu hr rest hhead buffer
  obtain ⟨hret, -, hexecute⟩ := hreceive e sh hcpu hr rest hhead buffer
  refine ⟨hret, fun service => ?_⟩
  rw [hexecute service, ← hlength, ← a.reply_request service]

def i2cDecision : Str :=
  str "\x7b\"name\":\"zephyr_i2c_write\",\"arguments\":\x7b\"address\":104,\"data_hex\":\"6B00\"\x7d\x7d"

theorem i2cDecision_accepted : ∃ d,
    Agent.parseDecision Agent.asciiInterpreter i2cDecision = .ok d ∧
      d.name ≠ str Agent.Tool.increment.name ∧ d.name ≠ str Agent.Tool.imuRead.name := by
  have hok : (Agent.parseDecision Agent.asciiInterpreter i2cDecision).toOption.any (fun d =>
      d.name ≠ str Agent.Tool.increment.name ∧ d.name ≠ str Agent.Tool.imuRead.name) = true := by
    decide +kernel
  cases h : Agent.parseDecision Agent.asciiInterpreter i2cDecision with
  | error e =>
    rw [h] at hok
    cases hok
  | ok d =>
    rw [h] at hok
    exact ⟨d, rfl, of_decide_eq_true hok⟩

theorem accepted_decision_performed_i2c : ∃ d,
    Agent.parseDecision Agent.asciiInterpreter i2cDecision = .ok d ∧
      ∃ tool a, d.name = str tool.name ∧ Denotes d.arguments tool a := by
  obtain ⟨d, h, hincrement, himu⟩ := i2cDecision_accepted
  obtain ⟨tool, a, -, -, hname, ha, -⟩ := accepted_decision_performed _ _ d h hincrement himu
  exact ⟨d, h, tool, a, hname, ha⟩

end Lzamp.System
