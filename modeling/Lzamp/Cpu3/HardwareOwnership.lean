import Lzamp.Cpu3.DriverSpecs

namespace Lzamp.Cpu3
open Mailmsg Lib Lib.Bus

/-- The size that `main` maps for a controller. -/
def Controller.size : Controller → ℕ
  | .gpio3 => 0x100
  | .ioc => 0x10000
  | .cru => 0x1000
  | .uart5 | .uart7 => 0x100
  | .i2c7 | .spi0 => 0x1000
  | .pwm7 => 0x10
  | .saradc => 0x1000

/-- Where `device_map` put the windows: somewhere, without overlap. -/
structure MemoryMap where
  base : Controller → U64
  fits : ∀ c, (base c).toNat + c.size ≤ 2 ^ 64
  disjoint : ∀ c c', c ≠ c' →
    (base c).toNat + c.size ≤ (base c').toNat ∨ (base c').toNat + c'.size ≤ (base c).toNat

/-- The physical addresses of the RK3588. -/
def MemoryMap.physical : MemoryMap where
  base
    | .gpio3 => 0xfec40000
    | .ioc => 0xfd5f0000
    | .cru => 0xfd7c0000
    | .uart5 => 0xfeb80000
    | .uart7 => 0xfeba0000
    | .i2c7 => 0xfec90000
    | .spi0 => 0xfeb00000
    | .pwm7 => 0xfebd0030
    | .saradc => 0xfec10000
  fits := by
    intro c
    cases c <;> decide
  disjoint := by
    intro c c'
    cases c <;> cases c' <;> decide

variable {map : MemoryMap}

def MemoryMap.Reaches (map : MemoryMap) (c : Controller) (addr : U64) : Prop :=
  (map.base c).toNat ≤ addr.toNat ∧ addr.toNat < (map.base c).toNat + c.size

theorem MemoryMap.reaches_add {c : Controller} {offset : U64} (h : offset.toNat < c.size) :
    map.Reaches c (map.base c + offset) := by
  have hfits := map.fits c
  have hadd : (map.base c + offset).toNat = (map.base c).toNat + offset.toNat := by
    rw [BitVec.toNat_add]
    omega
  unfold Reaches
  omega

theorem MemoryMap.Reaches.unique {c c' : Controller} {addr : U64} (h : map.Reaches c addr)
    (h' : map.Reaches c' addr) : c = c' := by
  by_contra hne
  obtain ⟨hlow, hhigh⟩ := h
  obtain ⟨hlow', hhigh'⟩ := h'
  rcases map.disjoint c c' hne with hd | hd <;> omega

def directGpioLines : List ℕ := [25, 28, 29]

/-- A write to controller `c` that the ownership rules allow, with GPIO `line` as the only line it
may concern.  GPIO3, the IOC and the CRU are shared with Linux: the upper half of a word there
selects the bits that the write changes. -/
inductive Permitted (map : MemoryMap) (line : ℕ) : Controller → U32 → U64 → Prop
  | gpio {value : U32} {offset : U64} (hoffset : offset = gpioDrHigh ∨ offset = gpioDdrHigh)
      (hmask : value >>> 16 = 1#32 <<< (line - 16)) :
      Permitted map line .gpio3 value (map.base .gpio3 + offset)
  | iomux {value : U32} {offset : U64}
      (hoffset : offset.toNat = 0x8078 + (line - 24) / 4 * 4)
      (hmask : value >>> 16 = 0xf#32 <<< (line % 4 * 4)) (hvalue : value &&& 0xffff = 0) :
      Permitted map line .ioc value (map.base .ioc + offset)
  | device {c : Controller} {offset : U64} (hoffset : offset ∈ c.registers) (value : U32) :
      Permitted map line c value (map.base c + offset)
  | saradcReset {value : U32} (hmask : value >>> 16 = 1#32 <<< 14) :
      Permitted map line .cru value (map.base .cru + softrstCon 11)

theorem Controller.registers_lt {c : Controller} {offset : U64} (h : offset ∈ c.registers) :
    offset.toNat < c.size := by
  have hall : c.registers.all (·.toNat < c.size) = true := by cases c <;> decide
  simpa using List.all_eq_true.mp hall offset h

theorem Permitted.reaches {line : ℕ} {c : Controller} {value : U32} {addr : U64}
    (hline : line ∈ directGpioLines) (h : Permitted map line c value addr) :
    map.Reaches c addr := by
  cases h with
  | gpio hoffset =>
    refine MemoryMap.reaches_add ?_
    rcases hoffset with rfl | rfl <;> decide
  | iomux hoffset =>
    refine MemoryMap.reaches_add ?_
    simp only [directGpioLines, List.mem_cons, List.not_mem_nil, or_false] at hline
    simp only [hoffset, Controller.size]
    omega
  | device hoffset => exact MemoryMap.reaches_add (Controller.registers_lt hoffset)
  | saradcReset => exact MemoryMap.reaches_add (by decide)

theorem lineIsOwned_iff {line : U32} : lineIsOwned line = true ↔ line.toNat ∈ directGpioLines := by
  simp only [lineIsOwned, directGpioLines, Bool.or_eq_true, decide_eq_true_eq, ← BitVec.toNat_inj,
    List.mem_cons, List.not_mem_nil, or_false, or_assoc]
  rfl

/-- The controllers that a pin profile has. -/
def Controller.InProfile (spiProfile : Bool) : Controller → Prop
  | .gpio3 | .ioc | .i2c7 => spiProfile = false
  | .spi0 => spiProfile = true
  | .cru | .uart5 | .uart7 | .pwm7 | .saradc => True

/-- Every usable device of the service sits at the window of its controller. -/
structure PeripheralService.Wired (service : PeripheralService) (map : MemoryMap) : Prop where
  gpio : ∀ gpio ∈ service.gpio.filter (·.ops),
    gpio.gpioBase = map.base .gpio3 ∧ gpio.iocBase = map.base .ioc
  uart5 : ∀ uart ∈ service.uart5.filter (·.ops), uart.base = map.base .uart5
  uart7 : ∀ uart ∈ service.uart7.filter (·.ops), uart.base = map.base .uart7
  i2c7 : ∀ i2c ∈ service.i2c7.filter (·.ops), i2c.base = map.base .i2c7
  spi0 : ∀ spi ∈ service.spi0.filter (·.ops), spi.base = map.base .spi0
  pwm7 : ∀ pwm ∈ service.pwm7.filter (·.ops), pwm.base = map.base .pwm7
  saradc : ∀ adc ∈ service.saradc.filter (·.ops), adc.base = map.base .saradc
  reset : ∀ reset ∈ service.reset.filter (·.ops), reset.cruBase = map.base .cru

/-- The output mask after a line was given a direction. -/
def setDirection (mask : U32) (config : U32 × Bool) : U32 :=
  if config.2 then mask ||| 1#32 <<< config.1 else mask &&& ~~~(1#32 <<< config.1)

/-- The line that a request configures, and whether as an output, if the service takes it. -/
def PeriphRequest.config (spiProfile : Bool) (req : PeriphRequest) : Option (U32 × Bool) :=
  if PeriphOp.ofCode req.op = some .gpioConfig ∧ req.length ≤ 8 ∧ spiProfile = false ∧
      req.arg1 ≤ 1 ∧ req.arg2 ≤ 1 ∧ lineIsOwned req.arg0 = true then some (req.arg0, req.arg1 ≠ 0)
  else none

def configOf (spiProfile : Bool) (request : Message) : Option (U32 × Bool) :=
  if request.type = msgPeripheralRequest ∧ request.length = 28 then
    (decodeRequest request.payload).config spiProfile
  else none

theorem filter_some_of_mem {α : Type} {p : α → Bool} {device : Option α} {d d' : α}
    (h : d ∈ device.filter p) (hp : p d' = p d) : (some d').filter p = some d' := by
  rw [Option.filter_some, hp, if_pos (Option.mem_filter_iff.mp h).2]

theorem spiSetMode_base (device : Option Spi) (mode : U32) :
    (spiSetMode device mode).Returns fun r =>
      (r.2.filter (·.ops)).map (·.base) = (device.filter (·.ops)).map (·.base) := by
  refine (spiSetMode_calls device mode).returns (fun _ => rfl) ?_
  rintro spi hspi - gaveUp _ ⟨-, ctrlr0, rfl⟩
  have hsome : (some { spi with ctrlr0 := ctrlr0 }).filter (·.ops) =
    some { spi with ctrlr0 := ctrlr0 } := filter_some_of_mem hspi rfl
  rw [hsome, Option.mem_def.mp hspi]
  rfl

namespace PeripheralService

variable {service : PeripheralService} {req : PeriphRequest}

/-- What requests leave of the service: the GPIO lines are configured as they asked, SPI0 may have
another mode, and the rest is as it was. -/
structure Retuned (service : PeripheralService) (configs : List (U32 × Bool))
    (service' : PeripheralService) : Prop where
  gpio : service'.gpio.filter (·.ops) = (service.gpio.filter (·.ops)).map fun gpio =>
    { gpio with outputMask := configs.foldl setDirection gpio.outputMask }
  spi0 : (service'.spi0.filter (·.ops)).map (·.base) = (service.spi0.filter (·.ops)).map (·.base)
  rest : service' = { service with gpio := service'.gpio, spi0 := service'.spi0 }

theorem Retuned.refl (service : PeripheralService) : service.Retuned [] service where
  gpio := by simp
  spi0 := rfl
  rest := rfl

theorem Retuned.trans {s₁ s₂ s₃ : PeripheralService} {configs configs' : List (U32 × Bool)}
    (h : s₁.Retuned configs s₂) (h' : s₂.Retuned configs' s₃) :
    s₁.Retuned (configs ++ configs') s₃ where
  gpio := by simp [h'.gpio, h.gpio, List.foldl_append, Function.comp_def]
  spi0 := h'.spi0.trans h.spi0
  rest := by
    rw [h'.rest, h.rest]

theorem Retuned.spiProfile {service' : PeripheralService} {configs : List (U32 × Bool)}
    (h : service.Retuned configs service') : service'.spiProfile = service.spiProfile := by
  rw [h.rest]

theorem Retuned.wired {service' : PeripheralService} {configs : List (U32 × Bool)}
    (h : service.Retuned configs service') (hw : service.Wired map) : service'.Wired map := by
  rw [h.rest]
  refine { hw with gpio := fun gpio' hgpio' => ?_, spi0 := fun spi' hspi' => ?_ }
  · rw [h.gpio] at hgpio'
    obtain ⟨gpio, hgpio, rfl⟩ := Option.mem_map.mp hgpio'
    exact hw.gpio gpio hgpio
  · have hbase : spi'.base ∈ (service.spi0.filter (·.ops)).map (·.base) := by
      rw [← h.spi0]
      exact Option.mem_map_of_mem _ hspi'
    obtain ⟨spi, hspi, heq⟩ := Option.mem_map.mp hbase
    rw [← heq]
    exact hw.spi0 spi hspi

theorem keep_retuned (reply : Mmio PeriphReply) :
    (service.keep reply).Returns fun r => service.Retuned [] r.2 :=
  .after fun _ => returns_pure (.refl service)

theorem retuned_gpio {line : U32} {output : Bool} {ok : Gpio3 → U32 → U64 → Prop}
    {p : Mmio (Int × Option Gpio3)}
    (h : Calls (service.gpio.filter (·.ops)) (fun _ => lineIsOwned line = true)
      (gpio3Invalid, service.gpio) ok (fun gpio gaveUp r => ¬ gaveUp ∧
        r = (0, some { gpio with outputMask := setDirection gpio.outputMask (line, output) })) p) :
    p.Returns fun r => service.Retuned (if lineIsOwned line then [(line, output)] else [])
      { service with gpio := r.2 } := by
  refine h.returns (fun hnone => ⟨?_, rfl, rfl⟩) ?_
  · -- Nothing is done for a line of Linux, and there is nothing to do without a device.
    split_ifs with hline
    · have hdevice : service.gpio.filter (·.ops) = none :=
        Option.eq_none_iff_forall_not_mem.mpr fun gpio hgpio => hnone gpio hgpio hline
      simp [hdevice]
    · simp
  · rintro gpio hgpio hline gaveUp _ ⟨-, rfl⟩
    refine ⟨?_, rfl, rfl⟩
    have hsome : (some { gpio with
          outputMask := setDirection gpio.outputMask (line, output) }).filter (·.ops) =
        some { gpio with outputMask := setDirection gpio.outputMask (line, output) } :=
      filter_some_of_mem hgpio rfl
    rw [hsome, Option.mem_def.mp hgpio, if_pos hline]
    rfl

theorem gpioConfig_retuned (hop : PeriphOp.ofCode req.op = some .gpioConfig)
    (hlen : req.length ≤ 8) : (service.gpioConfig req).Returns fun r =>
      service.Retuned (req.config service.spiProfile).toList r.2 := by
  have hconfig (hargs : ¬ (1#32 < req.arg1 ∨ 1#32 < req.arg2)) (hspi : ¬ service.spiProfile = true) :
      (req.config service.spiProfile).toList =
        if lineIsOwned req.arg0 then [(req.arg0, decide (req.arg1 ≠ 0))] else [] := by
    simp only [not_or, BitVec.not_lt] at hargs
    unfold PeriphRequest.config
    split_ifs <;> simp_all
  unfold gpioConfig
  split_ifs with hargs hspi hout
  · have hnone : req.config service.spiProfile = none := by
      refine if_neg fun h => ?_
      obtain ⟨-, -, -, harg1, harg2, -⟩ := h
      exact hargs.elim (BitVec.not_lt.mpr harg1) (BitVec.not_lt.mpr harg2)
    rw [hnone]
    exact returns_pure (.refl service)
  · have hnone : req.config service.spiProfile = none := by simp [PeriphRequest.config, hspi]
    rw [hnone]
    exact returns_pure (.refl service)
  · rw [hconfig hargs hspi, decide_eq_true hout]
    exact .bind (retuned_gpio (gpio3ConfigureOutput_calls _ _ _)) fun r hr => returns_pure hr
  · rw [hconfig hargs hspi, decide_eq_false hout]
    exact .bind (retuned_gpio (gpio3ConfigureInput_calls _ _)) fun r hr => returns_pure hr

theorem spiTransfer_retuned :
    (service.spiTransfer req).Returns fun r => service.Retuned [] r.2 := by
  unfold spiTransfer
  split_ifs
  · exact returns_pure (.refl service)
  · exact returns_pure (.refl service)
  · refine .bind (spiSetMode_base _ _) fun r hr => ?_
    have hspi : service.Retuned [] { service with spi0 := r.2 } := ⟨by simp, hr, rfl⟩
    dsimp only
    split_ifs
    · exact returns_pure hspi
    · exact .after fun _ => returns_pure hspi

theorem config_eq_none {op : Option PeriphOp} (hop : PeriphOp.ofCode req.op = op)
    (hne : op ≠ some .gpioConfig) (spiProfile : Bool) : req.config spiProfile = none :=
  if_neg fun h => hne (hop.symm.trans h.1)

theorem reply_retuned (service : PeripheralService) (req : PeriphRequest) :
    (service.reply req).Returns fun r =>
      service.Retuned (req.config service.spiProfile).toList r.2 := by
  unfold reply dispatch
  split_ifs with hlen
  · have hnone : req.config service.spiProfile = none :=
      if_neg fun h => absurd hlen (BitVec.not_lt.mpr h.2.1)
    rw [hnone]
    exact returns_pure (.refl service)
  · split
    · exact gpioConfig_retuned ‹_› (BitVec.not_lt.mp hlen)
    all_goals
      rename_i hop
      rw [config_eq_none hop (by decide)]
    any_goals exact keep_retuned _
    · exact spiTransfer_retuned
    · exact returns_pure (.refl service)

theorem execute_retuned (service : PeripheralService) (request : Message) :
    (service.execute request).Returns fun r =>
      service.Retuned (configOf service.spiProfile request).toList r.2 := by
  by_cases hframe : request.type = msgPeripheralRequest ∧ request.length = 28
  · rw [execute, configOf, if_pos hframe, if_neg (by simp [hframe])]
    exact .bind (reply_retuned service _) fun r hr => returns_pure hr
  · rw [execute, configOf, if_neg hframe, if_pos (by tauto)]
    exact returns_pure (.refl service)

/-- The service after a list of requests. -/
def executeAll (service : PeripheralService) : List Message → Mmio PeripheralService
  | [] => pure service
  | request :: requests => do
    let (_, service) ← service.execute request
    executeAll service requests

theorem executeAll_retuned (service : PeripheralService) (requests : List Message) :
    (service.executeAll requests).Returns fun service' =>
      service.Retuned (requests.filterMap (configOf service.spiProfile)) service' := by
  induction requests generalizing service with
  | nil => exact returns_pure (.refl service)
  | cons request requests ih =>
    refine .bind (execute_retuned service request) fun r hr => (ih r.2).mono fun _ service' h => ?_
    rw [hr.spiProfile] at h
    have hconfigs : (request :: requests).filterMap (configOf service.spiProfile) =
        (configOf service.spiProfile request).toList ++
          requests.filterMap (configOf service.spiProfile) := by
      rw [List.filterMap_cons]
      cases configOf service.spiProfile request <;> rfl
    rw [hconfigs]
    exact hr.trans h

end PeripheralService

/-- The service as `peripherals_initialize` leaves it: the devices of the other pin profile stay
zero. -/
def PeripheralService.initial (map : MemoryMap) (spiProfile : Bool) : PeripheralService where
  gpio := some (if spiProfile then ⟨0, 0, false, 0⟩
    else ⟨map.base .gpio3, map.base .ioc, true, 0⟩)
  uart5 := some ⟨map.base .uart5, true⟩
  uart7 := some ⟨map.base .uart7, true⟩
  i2c7 := some (if spiProfile then ⟨0, false⟩ else ⟨map.base .i2c7, true⟩)
  spi0 := some (if spiProfile then ⟨map.base .spi0, true, 1#32 <<< 0 ||| 1#32 <<< 13, 24⟩
    else ⟨0, false, 0, 0⟩)
  pwm7 := some ⟨map.base .pwm7, true, 24000000⟩
  saradc := some ⟨map.base .saradc, true⟩
  reset := some ⟨map.base .cru, true⟩
  spiProfile := spiProfile

theorem PeripheralService.initial_wired (map : MemoryMap) (spiProfile : Bool) :
    (PeripheralService.initial map spiProfile).Wired map := by
  cases spiProfile <;> constructor <;> simp [initial]

/-- A write that a request about `line` may make under the profile. -/
def ProfileWrite (map : MemoryMap) (spiProfile : Bool) (line : ℕ) (value : U32) (addr : U64) :
    Prop :=
  ∃ c : Controller, c.InProfile spiProfile ∧ Permitted map line c value addr

theorem maskedBit_mask {line : U32} (h : lineIsOwned line = true) (value : Bool) :
    maskedBit line value >>> 16 = 1#32 <<< (line.toNat - 16) := by
  simp only [lineIsOwned, Bool.or_eq_true, decide_eq_true_eq] at h
  rcases h with (rfl | rfl) | rfl <;> cases value <;> decide

theorem iomuxField_layout {line : U32} (h : lineIsOwned line = true) :
    (iomuxField line).1.toNat = 0x8078 + (line.toNat - 24) / 4 * 4 ∧
      (0xf#32 <<< ((iomuxField line).2 + 16)) >>> 16 = 0xf#32 <<< (line.toNat % 4 * 4) ∧
      0xf#32 <<< ((iomuxField line).2 + 16) &&& 0xffff = 0 := by
  simp only [lineIsOwned, Bool.or_eq_true, decide_eq_true_eq] at h
  rcases h with (rfl | rfl) | rfl <;> decide

theorem profileWrite_gpio {gpio : Gpio3} {line value : U32} {addr : U64}
    (hbase : gpio.gpioBase = map.base .gpio3) (hioc : gpio.iocBase = map.base .ioc)
    (hline : lineIsOwned line = true) (h : GpioWrite gpio line value addr) :
    ProfileWrite map false line.toNat value addr := by
  cases h with
  | level value =>
    rw [hbase]
    exact ⟨.gpio3, rfl, .gpio (.inl rfl) (maskedBit_mask hline value)⟩
  | direction value =>
    rw [hbase]
    exact ⟨.gpio3, rfl, .gpio (.inr rfl) (maskedBit_mask hline value)⟩
  | mux =>
    obtain ⟨hoffset, hmask, hvalue⟩ := iomuxField_layout hline
    rw [hioc]
    exact ⟨.ioc, rfl, .iomux hoffset hmask hvalue⟩

theorem profileWrite_registers {spiProfile : Bool} {line : ℕ} {c : Controller} {base addr : U64}
    {value : U32} (hc : c.InProfile spiProfile) (hbase : base = map.base c)
    (h : c.At base value addr) : ProfileWrite map spiProfile line value addr := by
  obtain ⟨offset, hoffset, rfl⟩ := h
  rw [hbase]
  exact ⟨c, hc, .device hoffset value⟩

namespace PeripheralService

variable {service : PeripheralService} {req : PeriphRequest}

def lineOf (req : PeriphRequest) : ℕ := if lineIsOwned req.arg0 then req.arg0.toNat else 25

theorem lineOf_mem (req : PeriphRequest) : lineOf req ∈ directGpioLines := by
  unfold lineOf
  split_ifs with h
  · exact lineIsOwned_iff.mp h
  · decide

theorem gpioWrite_of_wired (hw : service.Wired map) (hspi : service.spiProfile = false)
    (req : PeriphRequest) :
    ∀ gpio ∈ service.gpio.filter (·.ops), lineIsOwned req.arg0 = true → ∀ value addr,
      GpioWrite gpio req.arg0 value addr →
        ProfileWrite map service.spiProfile (lineOf req) value addr := by
  intro gpio hgpio hline value addr h
  obtain ⟨hbase, hioc⟩ := hw.gpio gpio hgpio
  rw [lineOf, if_pos hline, hspi]
  exact profileWrite_gpio hbase hioc hline h

theorem keep_writes {ok : U32 → U64 → Prop} {reply : Mmio PeriphReply} (h : reply.WritesOnly ok) :
    (service.keep reply).WritesOnly ok :=
  .bind h fun _ => writesOnly_pure _

theorem gpioConfig_writes (hw : service.Wired map) :
    (service.gpioConfig req).WritesOnly (ProfileWrite map service.spiProfile (lineOf req)) := by
  unfold gpioConfig
  split_ifs with hargs hspi hout
  · simp
  · simp
  · have hok := gpioWrite_of_wired hw (by simpa using hspi) req
    exact .bind ((gpio3ConfigureOutput_calls _ _ _).writesOnly hok) fun _ => writesOnly_pure _
  · have hok := gpioWrite_of_wired hw (by simpa using hspi) req
    exact .bind ((gpio3ConfigureInput_calls _ _).writesOnly hok) fun _ => writesOnly_pure _

theorem gpioWrite_writes (hw : service.Wired map) :
    (service.gpioWrite req).WritesOnly (ProfileWrite map service.spiProfile (lineOf req)) := by
  unfold gpioWrite
  split_ifs with harg hspi
  · simp
  · simp
  · have hok := gpioWrite_of_wired hw (by simpa using hspi) req
    exact .bind ((gpio3Set_calls _ _ _).writesOnly hok) fun _ => writesOnly_pure _

theorem gpioRead_writes {ok : U32 → U64 → Prop} : (service.gpioRead req).WritesOnly ok := by
  unfold gpioRead
  split_ifs
  · simp
  · exact .bind ((gpio3Get_calls _ _).writesOnly fun _ _ _ _ _ h => h.elim) fun _ =>
      writesOnly_pure _

theorem uartWrite_writes (hw : service.Wired map) (line : ℕ) :
    (service.uartWrite req).WritesOnly (ProfileWrite map service.spiProfile line) := by
  have hok : ∀ uart ∈ service.uart req, uart.ops → ∀ value,
      ProfileWrite map service.spiProfile line value (uart.base + uartRbrThrDll) := by
    intro uart huart hops value
    unfold PeripheralService.uart at huart
    split_ifs at huart
    · have hbase := hw.uart5 uart (Option.mem_filter_iff.mpr ⟨huart, hops⟩)
      exact profileWrite_registers (c := .uart5) trivial hbase (Controller.at_add (by decide) _ _)
    · have hbase := hw.uart7 uart (Option.mem_filter_iff.mpr ⟨huart, hops⟩)
      exact profileWrite_registers (c := .uart7) trivial hbase (Controller.at_add (by decide) _ _)
    · simp at huart
  unfold uartWrite
  split
  · simp
  · rename_i uart huart
    refine .bind ((uartWrite_calls _ _ _).writesOnly ?_) fun _ => writesOnly_pure _
    rintro uart' huart' - value _ rfl
    obtain ⟨heq, hops⟩ := Option.mem_filter_iff.mp huart'
    obtain rfl := Option.mem_some_iff.mp heq
    exact hok uart huart hops value

theorem uartRead_writes {ok : U32 → U64 → Prop} : (service.uartRead req).WritesOnly ok := by
  unfold uartRead
  split
  · simp
  · split_ifs
    · simp
    · exact .bind ((uartRead_calls _ _ _).writesOnly fun _ _ _ _ _ h => h.elim) fun _ =>
        writesOnly_pure _

theorem i2c_of_wired (hw : service.Wired map) (hspi : service.spiProfile = false) (line : ℕ)
    {P : Prop} : ∀ i2c ∈ service.i2c7.filter (·.ops), P → ∀ value addr,
      Controller.i2c7.At i2c.base value addr →
        ProfileWrite map service.spiProfile line value addr :=
  fun i2c hi2c _ _ _ => profileWrite_registers hspi (hw.i2c7 i2c hi2c)

theorem i2cWrite_writes (hw : service.Wired map) (line : ℕ) :
    (service.i2cWrite req).WritesOnly (ProfileWrite map service.spiProfile line) := by
  unfold i2cWrite
  split_ifs with hspi
  · simp
  · simp
  · have hok {P : Prop} := i2c_of_wired hw (by simpa using hspi) line (P := P)
    exact .bind ((i2cWrite_calls _ _ _ _).writesOnly hok) fun _ => writesOnly_pure _

theorem i2cRead_writes (hw : service.Wired map) (line : ℕ) :
    (service.i2cRead req).WritesOnly (ProfileWrite map service.spiProfile line) := by
  unfold i2cRead
  split_ifs with hspi
  · simp
  · simp
  · have hok {P : Prop} := i2c_of_wired hw (by simpa using hspi) line (P := P)
    exact .bind ((readCommon_calls _ _ _ _ _).writesOnly hok) fun _ => writesOnly_pure _

theorem i2cWriteRead_writes (hw : service.Wired map) (line : ℕ) :
    (service.i2cWriteRead req).WritesOnly (ProfileWrite map service.spiProfile line) := by
  unfold i2cWriteRead
  split_ifs with hspi
  · simp
  · simp
  · have hok {P : Prop} := i2c_of_wired hw (by simpa using hspi) line (P := P)
    refine .bind ?_ fun _ => writesOnly_pure _
    unfold Cpu3.i2cWriteRead
    split_ifs
    · simp
    · exact (readCommon_calls _ _ _ _ _).writesOnly hok

theorem spiTransfer_writes (hw : service.Wired map) (line : ℕ) :
    (service.spiTransfer req).WritesOnly (ProfileWrite map service.spiProfile line) := by
  unfold spiTransfer
  split_ifs with hspi
  · simp
  · simp
  · have hok {base : U64} (hbase : base = map.base .spi0) (value : U32) (addr : U64) :
        Controller.spi0.At base value addr →
          ProfileWrite map service.spiProfile line value addr :=
      profileWrite_registers (by simpa [Controller.InProfile] using hspi) hbase
    have hmode := (spiSetMode_calls service.spi0 req.arg1).writesOnly fun spi hmem _ =>
      hok (hw.spi0 spi hmem)
    refine .bind_of hmode (spiSetMode_base _ _) fun r hr => ?_
    have hbase : ∀ spi ∈ r.2.filter (·.ops), spi.base = map.base .spi0 := by
      intro spi' hspi'
      have hmem : spi'.base ∈ (service.spi0.filter (·.ops)).map (·.base) :=
        hr ▸ Option.mem_map_of_mem _ hspi'
      obtain ⟨spi, hmem, heq⟩ := Option.mem_map.mp hmem
      exact heq.symm.trans (hw.spi0 spi hmem)
    dsimp only
    split_ifs
    · simp
    · exact .bind ((spiTransfer_calls _ _ _ _).writesOnly fun spi hmem _ => hok (hbase spi hmem))
        fun _ => writesOnly_pure _

theorem pwm_of_wired (hw : service.Wired map) (line : ℕ) {accepts : Pwm → Prop} :
    ∀ pwm ∈ service.pwm7.filter (·.ops), accepts pwm → ∀ value addr,
      Controller.pwm7.At pwm.base value addr →
        ProfileWrite map service.spiProfile line value addr :=
  fun pwm hpwm _ _ _ => profileWrite_registers trivial (hw.pwm7 pwm hpwm)

theorem pwmSet_writes (hw : service.Wired map) (line : ℕ) :
    (service.pwmSet req).WritesOnly (ProfileWrite map service.spiProfile line) := by
  unfold pwmSet
  split_ifs
  · simp
  · exact .bind ((pwmSet_calls _ _ _ _).writesOnly (pwm_of_wired hw line)) fun _ =>
      writesOnly_pure _

theorem pwmStop_writes (hw : service.Wired map) (line : ℕ) :
    service.pwmStop.WritesOnly (ProfileWrite map service.spiProfile line) :=
  .bind ((pwmStop_calls _).writesOnly (pwm_of_wired hw line)) fun _ => writesOnly_pure _

theorem adcRead_writes (hw : service.Wired map) (line : ℕ) :
    (service.adcRead req).WritesOnly (ProfileWrite map service.spiProfile line) := by
  refine .bind ((resetPulse_calls _ _).writesOnly ?_) fun status => ?_
  · rintro reset hreset - value addr ⟨lines, hlines, l, hl, asserted, rfl, rfl⟩
    obtain rfl : [⟨11, 14⟩] = lines := Option.mem_some_iff.mp hlines
    obtain rfl := List.mem_singleton.mp hl
    rw [hw.reset reset hreset]
    exact ⟨.cru, trivial, .saradcReset (by cases asserted <;> decide)⟩
  · split_ifs
    · simp
    · refine .bind ((saradcRead_calls _ _ _).writesOnly fun adc hadc _ value addr => ?_) fun _ =>
        writesOnly_pure _
      exact profileWrite_registers trivial (hw.saradc adc hadc)

theorem execute_writes (hw : service.Wired map) (request : Message) :
    (service.execute request).WritesOnly
      (ProfileWrite map service.spiProfile (lineOf (decodeRequest request.payload))) := by
  unfold execute
  split_ifs
  · simp
  refine .bind ?_ fun _ => writesOnly_pure _
  unfold reply
  split_ifs
  · simp
  unfold dispatch
  split
  · exact gpioConfig_writes hw
  · exact keep_writes (gpioWrite_writes hw)
  · exact keep_writes gpioRead_writes
  · exact keep_writes (uartWrite_writes hw _)
  · exact keep_writes uartRead_writes
  · exact keep_writes (i2cWrite_writes hw _)
  · exact keep_writes (i2cRead_writes hw _)
  · exact keep_writes (i2cWriteRead_writes hw _)
  · exact spiTransfer_writes hw _
  · exact keep_writes (pwmSet_writes hw _)
  · exact keep_writes (pwmStop_writes hw _)
  · exact keep_writes (adcRead_writes hw _)
  · simp

/-- Whatever requests come, in whatever order and whatever the devices answer, each write of a
request is one that Zephyr may make, with a single GPIO line for the request, and it stays out of
the controllers that the pin profile does not have. -/
theorem writes_stay_in_owned_hardware (map : MemoryMap) (service : PeripheralService)
    (hw : service.Wired map) (earlier : List Message) (request : Message)
    (reads later : Stream' U32) :
    ∃ line ∈ directGpioLines, ∀ value addr,
      .write value addr ∈
        ((((service.executeAll earlier).run reads).value.execute request).run later).events →
      (∃ c, Permitted map line c value addr ∧ map.Reaches c addr) ∧
        (service.spiProfile = true →
          ¬ map.Reaches .gpio3 addr ∧ ¬ map.Reaches .ioc addr ∧ ¬ map.Reaches .i2c7 addr) ∧
        (service.spiProfile = false → ¬ map.Reaches .spi0 addr) := by
  have hretuned := executeAll_retuned service earlier reads
  refine ⟨_, lineOf_mem (decodeRequest request.payload), fun value addr hmem => ?_⟩
  obtain ⟨c, hc, hpermitted⟩ := execute_writes (hretuned.wired hw) request later value addr hmem
  rw [hretuned.spiProfile] at hc
  have hreach := hpermitted.reaches (lineOf_mem _)
  -- A write reaches only the window of `c`, and `c` is in the profile.
  refine ⟨⟨c, hpermitted, hreach⟩, fun hspi => ⟨?_, ?_, ?_⟩, fun hspi => ?_⟩
  all_goals
    intro hother
    obtain rfl := hreach.unique hother
    rw [hspi] at hc
    cases hc

def driveLine25 : Message := { Message.zero with
  type := msgPeripheralRequest
  length := 28
  payload := fun i => [1, 0, 0, 0, 25, 0, 0, 0, 1, 0, 0, 0, 1].getD i.val 0 }

/-- On the board, configuring line 25 makes three writes, and they are all permitted. -/
theorem writes_stay_in_owned_hardware_line25 :
    ((initial .physical false).execute driveLine25 |>.run (Stream'.const 0)).events =
        [.write 0x00f00000 0xfd5f8078, .write 0x02000200 0xfec40004, .write 0x02000200 0xfec4000c] ∧
      ∃ line ∈ directGpioLines, ∀ value addr,
        .write value addr ∈
          ((initial .physical false).execute driveLine25 |>.run (Stream'.const 0)).events →
        (∃ c, Permitted .physical line c value addr ∧ MemoryMap.physical.Reaches c addr) ∧
          (false = true → ¬ MemoryMap.physical.Reaches .gpio3 addr ∧
            ¬ MemoryMap.physical.Reaches .ioc addr ∧ ¬ MemoryMap.physical.Reaches .i2c7 addr) ∧
          (false = false → ¬ MemoryMap.physical.Reaches .spi0 addr) :=
  ⟨by decide +kernel, writes_stay_in_owned_hardware .physical (initial .physical false)
    (initial_wired _ _) [] driveLine25 (Stream'.const 0) (Stream'.const 0)⟩

end PeripheralService

end Lzamp.Cpu3
