import Lzamp.Cpu3.HardwareOwnership

namespace Lzamp.Cpu3
open Mailmsg Lib Lib.Bus

/-- The devices of the profile are there, with the PWM at 24 MHz. -/
structure PeripheralService.Usable (service : PeripheralService) : Prop where
  gpio : service.spiProfile = false → (service.gpio.filter (·.ops)).isSome
  uart5 : (service.uart5.filter (·.ops)).isSome
  uart7 : (service.uart7.filter (·.ops)).isSome
  i2c7 : service.spiProfile = false → (service.i2c7.filter (·.ops)).isSome
  spi0 : service.spiProfile = true → (service.spi0.filter (·.ops)).isSome
  pwm7 : ∃ pwm, service.pwm7.filter (·.ops) = some pwm ∧ pwm.clockHz = 24000000
  saradc : (service.saradc.filter (·.ops)).isSome
  reset : (service.reset.filter (·.ops)).isSome

namespace PeripheralService

theorem Retuned.usable {service service' : PeripheralService} {configs : List (U32 × Bool)}
    (h : service.Retuned configs service') (hu : service.Usable) : service'.Usable := by
  have hspi : (service'.spi0.filter (·.ops)).isSome = (service.spi0.filter (·.ops)).isSome := by
    simpa using congrArg Option.isSome h.spi0
  rw [h.rest]
  refine { hu with gpio := fun hprofile => ?_, spi0 := fun hprofile => ?_ }
  · rw [h.gpio, Option.isSome_map]
    exact hu.gpio hprofile
  · exact hspi.trans (hu.spi0 hprofile)

theorem initial_usable (map : MemoryMap) (spiProfile : Bool) :
    (initial map spiProfile).Usable := by
  cases spiProfile <;> constructor <;> simp [initial]

end PeripheralService

/-- The line was last configured as an output.  Every line starts as an input. -/
def isOutput (requests : List Message) (line : U32) : Bool :=
  (requests.filterMap (configOf false)).foldl
    (fun output config => if config.1 = line then config.2 else output) false

theorem and_bit_eq_zero (mask line : U32) :
    mask &&& 1#32 <<< line = 0 ↔ mask.getLsbD line.toNat = false := by
  have hbit : 1#32 <<< line = BitVec.twoPow 32 line.toNat := by
    rw [BitVec.shiftLeft_eq', BitVec.twoPow]
  rw [hbit, BitVec.and_twoPow]
  by_cases hlt : line.toNat < 32
  · have hne : BitVec.twoPow 32 line.toNat ≠ 0#32 := by
      intro h
      have hget := congrArg (·.getLsbD line.toNat) h
      simp [hlt] at hget
    split_ifs with hget
    · simpa [hget] using hne
    · simp [hget]
  · simp [BitVec.getLsbD_of_ge _ _ (not_lt.mp hlt)]

theorem setDirection_bit (mask : U32) {config : U32 × Bool} (hconfig : lineIsOwned config.1 = true)
    (line : U32) : (setDirection mask config).getLsbD line.toNat =
      if config.1 = line then config.2 else mask.getLsbD line.toNat := by
  have hlt : config.1.toNat < 32 := by
    have hmem := lineIsOwned_iff.mp hconfig
    simp only [directGpioLines, List.mem_cons, List.not_mem_nil, or_false] at hmem
    omega
  have hbit : (1#32 <<< config.1).getLsbD line.toNat = decide (config.1 = line) := by
    rw [BitVec.shiftLeft_eq', ← BitVec.twoPow, BitVec.getLsbD_twoPow]
    simp [hlt, ← BitVec.toNat_inj, eq_comm]
  obtain ⟨line', output⟩ := config
  cases output with
  | true =>
    rw [setDirection, if_pos rfl, BitVec.getLsbD_or, hbit]
    by_cases heq : line' = line <;> simp [heq]
  | false =>
    rw [setDirection, if_neg (Bool.false_ne_true), BitVec.getLsbD_and, BitVec.getLsbD_not, hbit]
    by_cases heq : line' = line
    · simp [heq]
    · by_cases hline : line.toNat < 32
      · simp [heq, hline]
      · simp [heq, BitVec.getLsbD_of_ge _ _ (not_lt.mp hline)]

theorem foldl_setDirection_bit {configs : List (U32 × Bool)}
    (hconfigs : ∀ config ∈ configs, lineIsOwned config.1 = true) (mask line : U32) :
    (configs.foldl setDirection mask).getLsbD line.toNat =
      configs.foldl (fun output config => if config.1 = line then config.2 else output)
        (mask.getLsbD line.toNat) := by
  induction configs generalizing mask with
  | nil => rfl
  | cons config configs ih =>
    rw [List.foldl_cons, List.foldl_cons, ih fun c hc => hconfigs c (List.mem_cons_of_mem _ hc),
      setDirection_bit mask (hconfigs config List.mem_cons_self)]

theorem owned_of_configOf {spiProfile : Bool} {request : Message} {config : U32 × Bool}
    (h : configOf spiProfile request = some config) : lineIsOwned config.1 = true := by
  unfold configOf PeriphRequest.config at h
  split_ifs at h with _ hconfig
  cases h
  exact hconfig.2.2.2.2.2

/-- The output mask of the driver says which lines are outputs. -/
theorem outputMask_executeAll (map : MemoryMap) (requests : List Message) (reads : Stream' U32) :
    ∃ gpio : Gpio3, (((PeripheralService.initial map false).executeAll requests).run
        reads).value.gpio.filter (·.ops) = some gpio ∧
      ∀ line, gpio.outputMask &&& 1#32 <<< line = 0 ↔ isOutput requests line = false := by
  have hretuned := (PeripheralService.initial map false).executeAll_retuned requests reads
  refine ⟨_, hretuned.gpio, fun line => ?_⟩
  have hconfigs : ∀ config ∈ requests.filterMap (configOf false), lineIsOwned config.1 = true := by
    intro config hmem
    obtain ⟨request, -, hconfig⟩ := List.mem_filterMap.mp hmem
    exact owned_of_configOf hconfig
  rw [and_bit_eq_zero, isOutput]
  dsimp only [PeripheralService.initial]
  rw [foldl_setDirection_bit hconfigs]
  simp

/-- At 24 MHz a period is too short up to 20 ns, and never too long. -/
theorem pwmAccepts_24MHz {periodNs dutyNs : U32} (hperiod : periodNs ≠ 0)
    (hduty : dutyNs ≤ periodNs) :
    PwmAccepts 24000000 periodNs dutyNs ↔ 20 < periodNs.toNat := by
  have hticks := toNat_pwmTicks 24000000 periodNs
  have hclock : (24000000 : U32).toNat = 24000000 := rfl
  have hlt := periodNs.isLt
  rw [hclock] at hticks
  rw [PwmAccepts, ticksOf_eq, hticks]
  constructor
  · rintro ⟨-, -, hlow, -⟩
    omega
  · intro hlong
    exact ⟨hperiod, hduty, by omega, by omega⟩

end Lzamp.Cpu3
