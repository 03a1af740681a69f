import Lzamp.Agent.Frames
import Lzamp.Cpu3.HardwareOwnership
import Lzamp.Cpu3.PeripheralResults

namespace Lzamp.System
open Mailmsg Cpu3 Lib Lib.Bus

def controllers : PeriphOp → List Controller
  | .gpioConfig | .gpioWrite | .gpioRead => [.gpio3]
  | .uartWrite | .uartRead => [.uart5, .uart7]
  | .i2cWrite | .i2cRead | .i2cWriteRead => [.i2c7]
  | .spiTransfer => [.spi0]
  | .pwmSet | .pwmStop => [.pwm7]
  | .adcRead => [.saradc]

/-- A GPIO write to an owned line that is not an output. -/
def WritesInput (service : PeripheralService) (req : PeriphRequest) : Prop :=
  PeriphOp.ofCode req.op = some .gpioWrite ∧ req.arg1 ≤ 1 ∧ service.spiProfile = false ∧
    lineIsOwned req.arg0 = true ∧
    ∃ gpio ∈ service.gpio.filter (·.ops), gpio.outputMask &&& 1#32 <<< req.arg0 = 0

/-- An I2C request that reaches a usable controller. -/
structure ReachesI2c (service : PeripheralService) (req : PeriphRequest) : Prop where
  profile : service.spiProfile = false
  address : req.arg0 ≤ 0x7f
  device : ∃ i2c, service.i2c7.filter (·.ops) = some i2c

/-- The requests that start an I2C transfer, with the bit that the transfer waits for and the number
of data words it reads. -/
inductive StartsTransfer (service : PeripheralService) (req : PeriphRequest) : U32 → ℕ → Prop
  | write (hop : PeriphOp.ofCode req.op = some .i2cWrite) (hreach : ReachesI2c service req)
      (hlength : req.length ≠ 0) : StartsTransfer service req intMbtf 0
  | read (hop : PeriphOp.ofCode req.op = some .i2cRead) (hreach : ReachesI2c service req)
      (hcount : req.arg1 ≠ 0 ∧ req.arg1 ≤ 8) :
      StartsTransfer service req intMbrf ((req.arg1.toNat + 3) / 4)
  | writeRead (hop : PeriphOp.ofCode req.op = some .i2cWriteRead) (hreach : ReachesI2c service req)
      (hlength : req.length ≠ 0 ∧ req.length ≤ 3) (hcount : req.arg1 ≠ 0 ∧ req.arg1 ≤ 8) :
      StartsTransfer service req intMbrf ((req.arg1.toNat + 3) / 4)

/-- An I2C request whose bytes go through and which then sees a NAK while the bus stops. -/
def NakOnStop (service : PeripheralService) (req : PeriphRequest) (reads : Stream' U32) : Prop :=
  ∃ desired words, StartsTransfer service req desired words ∧
    NakWhileStopping desired words serviceTimeoutUs reads

/-- The status is -2 and nothing timed out. -/
def FalseTimeout (service : PeripheralService) (req : PeriphRequest) (reads : Stream' U32) : Prop :=
  WritesInput service req ∨ NakOnStop service req reads

/-- What a reply says about the run that led to it. -/
structure Answer (service : PeripheralService) (req : PeriphRequest) (reads : Stream' U32)
    (es : List (BusEvent U64 U32)) (reply : PeriphReply) : Prop where
  low : -22 ≤ reply.status
  high : reply.status ≤ 0
  fits : reply.data.length ≤ 8
  unavailable : reply.status = -19 → ∃ op, PeriphOp.ofCode req.op = some op ∧
    ∀ c ∈ controllers op, ¬ c.InProfile service.spiProfile
  timeout : ¬ FalseTimeout service req reads → reply.status = -2 → .expire ∈ es
  falseTimeout : FalseTimeout service req reads → reply.status = -2 ∧ .expire ∉ es

section Answers

variable {service : PeripheralService} {req : PeriphRequest} {reads : Stream' U32}
  {es : List (BusEvent U64 U32)}

theorem not_nakOnStop {op : PeriphOp} (hop : PeriphOp.ofCode req.op = some op)
    (hne : op ≠ .i2cWrite ∧ op ≠ .i2cRead ∧ op ≠ .i2cWriteRead) :
    ¬ NakOnStop service req reads := by
  rintro ⟨desired, words, hstart, -⟩
  cases hstart with
  | write hop' => exact hne.1 (Option.some.inj (hop.symm.trans hop'))
  | read hop' => exact hne.2.1 (Option.some.inj (hop.symm.trans hop'))
  | writeRead hop' => exact hne.2.2 (Option.some.inj (hop.symm.trans hop'))

theorem not_writesInput {op : PeriphOp} (hop : PeriphOp.ofCode req.op = some op)
    (hne : op ≠ .gpioWrite) : ¬ WritesInput service req := by
  rintro ⟨hop', -⟩
  exact hne (Option.some.inj (hop.symm.trans hop'))

theorem Answer.of_honest {reply : PeriphReply} (hno : ¬ FalseTimeout service req reads)
    (h : Honest (.expire ∈ es) reply.status) (hfits : reply.data.length ≤ 8) :
    Answer service req reads es reply where
  low := by have := h.low; omega
  high := h.high
  fits := hfits
  unavailable hs := by have := h.low; omega
  timeout _ := h.timeout
  falseTimeout hf := absurd hf hno

theorem Answer.of_false {reply : PeriphReply} (hf : FalseTimeout service req reads)
    (hstatus : reply.status = -2) (hes : .expire ∉ es) (hfits : reply.data.length ≤ 8) :
    Answer service req reads es reply where
  low := by omega
  high := by omega
  fits := hfits
  unavailable hs := by omega
  timeout hno := absurd hf hno
  falseTimeout _ := ⟨hstatus, hes⟩

theorem Answer.invalid (hno : ¬ FalseTimeout service req reads) :
    Answer service req reads es (.ofStatus serviceInvalid) where
  low := by decide
  high := by decide
  fits := Nat.zero_le _
  unavailable hs := absurd hs (by decide)
  timeout _ hs := absurd hs (by decide)
  falseTimeout hf := absurd hf hno

theorem Answer.unavailable' {op : PeriphOp} (hno : ¬ FalseTimeout service req reads)
    (hop : PeriphOp.ofCode req.op = some op)
    (hc : ∀ c ∈ controllers op, ¬ c.InProfile service.spiProfile) :
    Answer service req reads es (.ofStatus serviceUnavailable) where
  low := by decide
  high := by decide
  fits := Nat.zero_le _
  unavailable _ := ⟨op, hop, hc⟩
  timeout _ hs := absurd hs (by decide)
  falseTimeout hf := absurd hf hno

theorem not_falseTimeout {op : PeriphOp} (hop : PeriphOp.ofCode req.op = some op)
    (hne : op ≠ .gpioWrite ∧ op ≠ .i2cWrite ∧ op ≠ .i2cRead ∧ op ≠ .i2cWriteRead) :
    ¬ FalseTimeout service req reads := fun h =>
  h.elim (not_writesInput hop hne.1) (not_nakOnStop hop hne.2)

/-- Every run of a program that answers `req` gives a right answer. -/
def Answers (service : PeripheralService) (req : PeriphRequest) (p : Mmio PeriphReply) : Prop :=
  ∀ reads, Answer service req reads (p.run reads).events (p.run reads).value

theorem gpioWrite_answers (hop : PeriphOp.ofCode req.op = some .gpioWrite) :
    Answers service req (service.gpioWrite req) := by
  intro reads
  have hnak : ¬ NakOnStop service req reads := not_nakOnStop hop (by decide)
  unfold PeripheralService.gpioWrite
  split_ifs with harg hspi
  · refine .invalid fun hf => hf.elim (fun h => ?_) hnak
    exact absurd h.2.1 (by simpa using harg)
  · refine .unavailable' (fun hf => hf.elim (fun h => ?_) hnak) hop ?_
    · exact absurd h.2.2.1 (by simp [hspi])
    · simp [controllers, Controller.InProfile, hspi]
  have hwrites : WritesInput service req → lineIsOwned req.arg0 = true ∧
      ∃ gpio ∈ service.gpio.filter (·.ops), gpio.outputMask &&& 1#32 <<< req.arg0 = 0 :=
    fun h => h.2.2.2
  simp only [run_bind, run_pure, List.append_nil]
  refine (gpio3Set_calls service.gpio req.arg0 (req.arg1 ≠ 0)).ensures
    (Q := fun gaveUp status => ∀ es, (.expire ∈ es ↔ gaveUp) →
      Answer service req reads es (.ofStatus status)) ?_ ?_ reads _ Iff.rfl
  · intro hnone es _
    refine .of_honest (fun hf => hf.elim (fun h => ?_) hnak) (honest_invalid _) (Nat.zero_le _)
    obtain ⟨hline, gpio, hgpio, -⟩ := hwrites h
    exact hnone gpio hgpio hline
  · rintro gpio hgpio hline gaveUp _ ⟨hno, rfl⟩ es hes
    split_ifs with hmask
    · -- the driver's own -2
      have hbad : WritesInput service req :=
        ⟨hop, by simpa using harg, by simpa using hspi, hline, gpio, hgpio, hmask⟩
      exact .of_false (.inl hbad) rfl (fun h => hno (hes.mp h)) (Nat.zero_le _)
    · refine .of_honest (fun hf => hf.elim (fun h => ?_) hnak) (honest_ok _) (Nat.zero_le _)
      obtain ⟨-, gpio', hgpio', hmask'⟩ := hwrites h
      obtain rfl := Option.some.inj ((Option.mem_def.mp hgpio).symm.trans hgpio')
      exact hmask hmask'

theorem StartsTransfer.unique {desired desired' : U32} {words words' : ℕ}
    (h : StartsTransfer service req desired words) (h' : StartsTransfer service req desired' words') :
    desired = desired' ∧ words = words' := by
  cases h <;> cases h' <;> simp_all

theorem StartsTransfer.not_writesInput {desired : U32} {words : ℕ}
    (h : StartsTransfer service req desired words) : ¬ WritesInput service req := by
  cases h with
  | write hop => exact System.not_writesInput hop (by decide)
  | read hop => exact System.not_writesInput hop (by decide)
  | writeRead hop => exact System.not_writesInput hop (by decide)

theorem Answer.of_transfer {desired : U32} {words : ℕ} {reply : PeriphReply}
    (hstart : StartsTransfer service req desired words)
    (h : TransferEnd desired words serviceTimeoutUs reads es reply.status)
    (hfits : reply.data.length ≤ 8) : Answer service req reads es reply := by
  rcases h with ⟨hnak, hstatus, hes⟩ | ⟨hnak, hhonest⟩
  · exact .of_false (.inr ⟨desired, words, hstart, hnak⟩) hstatus hes hfits
  · refine .of_honest (fun hf => hf.elim hstart.not_writesInput ?_) hhonest hfits
    rintro ⟨desired', words', hstart', hnak'⟩
    obtain ⟨rfl, rfl⟩ := hstart.unique hstart'
    exact hnak hnak'

theorem not_falseTimeout_of_noTransfer {op : PeriphOp} (hop : PeriphOp.ofCode req.op = some op)
    (hne : op ≠ .gpioWrite) (hno : ∀ desired words, ¬ StartsTransfer service req desired words) :
    ¬ FalseTimeout service req reads := by
  rintro (h | ⟨desired, words, h, -⟩)
  · exact not_writesInput hop hne h
  · exact hno desired words h

theorem StartsTransfer.reaches {desired : U32} {words : ℕ}
    (h : StartsTransfer service req desired words) : ReachesI2c service req := by
  cases h <;> assumption

theorem address_ok {arg0 : U32} (h : ¬ 0x7f#32 < arg0) : ¬ 0x7f#8 < arg0.setWidth 8 := by
  simp only [BitVec.lt_def, BitVec.toNat_setWidth, BitVec.toNat_ofNat] at h ⊢
  omega

theorem noTransfer_of_noDevice (h : service.i2c7.filter (·.ops) = none) (desired : U32)
    (words : ℕ) : ¬ StartsTransfer service req desired words := by
  intro hstart
  obtain ⟨i2c, hi2c⟩ := hstart.reaches.device
  rw [h] at hi2c
  cases hi2c

theorem i2cUnavailable {op : PeriphOp} (hop : PeriphOp.ofCode req.op = some op)
    (hi2c : controllers op = [.i2c7]) (hspi : service.spiProfile = true) :
    Answer service req reads es (.ofStatus serviceUnavailable) := by
  have hne : op ≠ .gpioWrite := by
    rintro rfl
    cases hi2c
  refine .unavailable' (not_falseTimeout_of_noTransfer hop hne fun desired words h => ?_) hop ?_
  · simpa [hspi] using h.reaches.profile
  · simp [hi2c, Controller.InProfile, hspi]

theorem i2cWrite_answers (hop : PeriphOp.ofCode req.op = some .i2cWrite)
    (hdata : req.data.length = req.length.toNat) (hlen : req.length ≤ 8) :
    Answers service req (service.i2cWrite req) := by
  intro reads
  unfold PeripheralService.i2cWrite
  split_ifs with hspi haddr
  · exact i2cUnavailable hop rfl hspi
  · refine .invalid (not_falseTimeout_of_noTransfer hop (by decide) fun desired words h => ?_)
    exact absurd h.reaches.address (by simpa using haddr)
  simp only [run_bind, run_pure, List.append_nil]
  cases hdevice : service.i2c7.filter (·.ops) with
  | none =>
    simp only [i2cWrite, hdevice]
    exact .of_honest (not_falseTimeout_of_noTransfer hop (by decide) (noTransfer_of_noDevice hdevice))
      (honest_invalid _) (Nat.zero_le _)
  | some i2c =>
    by_cases hzero : req.length = 0
    · have hargs : 0x7f#8 < req.arg0.setWidth 8 ∨ req.data.length = 0 ∨ 31 < req.data.length :=
        .inr (.inl (by rw [hdata, hzero]; rfl))
      simp only [i2cWrite, hdevice, if_pos hargs]
      refine .of_honest (not_falseTimeout_of_noTransfer hop (by decide) fun desired words h => ?_)
        (honest_invalid _) (Nat.zero_le _)
      cases h with
      | write _ _ hlength => exact hlength hzero
      | read hop' => simp [hop] at hop'
      | writeRead hop' => simp [hop] at hop'
    · have hle : req.length.toNat ≤ 8 := hlen
      have hpos : req.length.toNat ≠ 0 := fun h => hzero (BitVec.eq_of_toNat_eq h)
      have hargs : ¬ (0x7f#8 < req.arg0.setWidth 8 ∨ req.data.length = 0 ∨ 31 < req.data.length) := by
        have := address_ok haddr
        rw [hdata]
        simp only [this, false_or]
        omega
      refine .of_transfer (.write hop ⟨by simpa using hspi, by simpa using haddr, i2c, hdevice⟩ hzero)
        (i2cWrite_run hdevice hargs _ reads) (Nat.zero_le _)

theorem readCommon_answers {op : PeriphOp} (hop : PeriphOp.ofCode req.op = some op)
    (hi2c : controllers op = [.i2c7]) {prefixBytes : List U8} (hhead : prefixBytes.length ≤ 3)
    (haddr : ¬ 0x7f#32 < req.arg0) (hcount : req.arg1 ≠ 0 ∧ req.arg1 ≤ 8)
    (hstart : ∀ i2c, service.i2c7.filter (·.ops) = some i2c →
      StartsTransfer service req intMbrf ((req.arg1.toNat + 3) / 4)) :
    Answers service req (readCommon service.i2c7 (req.arg0.setWidth 8) prefixBytes req.arg1.toNat
      serviceTimeoutUs >>= fun result => pure (.ofData result)) := by
  intro reads
  have hne : op ≠ .gpioWrite := by
    rintro rfl
    cases hi2c
  have hle : req.arg1.toNat ≤ 8 := hcount.2
  have hpos : req.arg1.toNat ≠ 0 := fun h => hcount.1 (BitVec.eq_of_toNat_eq h)
  simp only [run_bind, run_pure, List.append_nil]
  cases hdevice : service.i2c7.filter (·.ops) with
  | none =>
    simp only [readCommon, hdevice]
    exact .of_honest (not_falseTimeout_of_noTransfer hop hne (noTransfer_of_noDevice hdevice))
      (honest_invalid _) (Nat.zero_le _)
  | some i2c =>
    have hargs : ¬ (0x7f#8 < req.arg0.setWidth 8 ∨ req.arg1.toNat = 0 ∨ 32 < req.arg1.toNat ∨
        3 < prefixBytes.length) := by
      have := address_ok haddr
      simp only [this, false_or]
      omega
    have hlength := ((readCommon_calls service.i2c7 (req.arg0.setWidth 8) prefixBytes req.arg1.toNat
      serviceTimeoutUs).accepted i2c hdevice hargs).returns (fun _ _ h => h.2) reads
    refine .of_transfer (hstart i2c hdevice) (readCommon_run hdevice hargs _ reads) ?_
    unfold PeriphReply.ofData
    dsimp only
    split_ifs
    · exact Nat.zero_le _
    · exact hlength.trans hle

theorem i2cRead_answers (hop : PeriphOp.ofCode req.op = some .i2cRead) :
    Answers service req (service.i2cRead req) := by
  unfold PeripheralService.i2cRead
  split_ifs with hspi hargs
  · exact fun reads => i2cUnavailable hop rfl hspi
  · refine fun reads => .invalid
      (not_falseTimeout_of_noTransfer hop (by decide) fun desired words h => ?_)
    cases h with
    | write hop' => simp [hop] at hop'
    | read _ hreach hcount =>
      obtain ⟨hzero, height⟩ := hcount
      have haddr := hreach.address
      bv_omega
    | writeRead hop' => simp [hop] at hop'
  · simp only [not_or, BitVec.not_lt] at hargs
    refine readCommon_answers hop rfl (Nat.zero_le _) (by simpa using hargs.1) hargs.2 ?_
    exact fun i2c hdevice => .read hop ⟨by simpa using hspi, hargs.1, i2c, hdevice⟩ hargs.2

theorem i2cWriteRead_answers (hop : PeriphOp.ofCode req.op = some .i2cWriteRead)
    (hdata : req.data.length = req.length.toNat) :
    Answers service req (service.i2cWriteRead req) := by
  unfold PeripheralService.i2cWriteRead
  split_ifs with hspi hargs
  · exact fun reads => i2cUnavailable hop rfl hspi
  · refine fun reads => .invalid
      (not_falseTimeout_of_noTransfer hop (by decide) fun desired words h => ?_)
    cases h with
    | write hop' => simp [hop] at hop'
    | read hop' => simp [hop] at hop'
    | writeRead _ hreach hlength hcount =>
      obtain ⟨hempty, hthree⟩ := hlength
      obtain ⟨hzero, height⟩ := hcount
      have haddr := hreach.address
      bv_omega
  · simp only [not_or, BitVec.not_lt] at hargs
    obtain ⟨haddr, hzero, hthree, hcount⟩ := hargs
    have hpos : req.length.toNat ≠ 0 := fun h => hzero (BitVec.eq_of_toNat_eq h)
    have hle : req.length.toNat ≤ 3 := hthree
    have hne : req.data.length ≠ 0 := by omega
    simp only [i2cWriteRead, if_neg hne]
    refine readCommon_answers hop rfl (by omega) (by simpa using haddr) hcount ?_
    exact fun i2c hdevice => .writeRead hop ⟨by simpa using hspi, haddr, i2c, hdevice⟩
      ⟨hzero, hthree⟩ hcount

theorem Answer.of_does {β : Type} {p : Mmio β} {W : U32 → U64 → Prop} {f : β → PeriphReply}
    (hno : ¬ FalseTimeout service req reads)
    (h : p.Does W fun gaveUp b => HonestReply gaveUp (f b)) :
    Answer service req reads (p.run reads).events (f (p.run reads).value) :=
  .of_honest hno (h.ensures reads).honest (h.ensures reads).fits

theorem answers_of_honest {α : Type} {p : Mmio α} {f : α → PeriphReply}
    {W : U32 → U64 → Prop} {Q : Prop → α → Prop}
    (hno : ∀ reads, ¬ FalseTimeout service req reads) (h : p.Does W Q)
    (hf : ∀ gaveUp a, Q gaveUp a → HonestReply gaveUp (f a)) :
    Answers service req (p >>= fun a => pure (f a)) := by
  refine fun reads => .of_does (f := id) (W := W) (hno reads) (h.bind fun gaveUp a ha => ?_)
  rw [does_pure, or_false]
  exact hf gaveUp a ha

theorem gpioUnavailable {op : PeriphOp} (hop : PeriphOp.ofCode req.op = some op)
    (hgpio : controllers op = [.gpio3]) (hno : ¬ FalseTimeout service req reads)
    (hspi : service.spiProfile = true) :
    Answer service req reads es (.ofStatus serviceUnavailable) :=
  .unavailable' hno hop (by simp [hgpio, Controller.InProfile, hspi])

theorem gpioConfig_answers (hop : PeriphOp.ofCode req.op = some .gpioConfig) (reads : Stream' U32) :
    Answer service req reads ((service.gpioConfig req).run reads).events
      ((service.gpioConfig req).run reads).value.1 := by
  have hno : ¬ FalseTimeout service req reads := not_falseTimeout hop (by decide)
  unfold PeripheralService.gpioConfig
  split_ifs with hargs hspi hout
  · exact .invalid hno
  · exact gpioUnavailable hop rfl hno hspi
  · refine .of_does hno (((gpio3ConfigureOutput_calls _ _ _).honest (f := Prod.fst) rfl
      fun _ gaveUp _ h => h.2 ▸ honest_ok gaveUp).bind fun gaveUp r hr => ?_)
    rw [does_pure, or_false]
    exact .ofStatus hr
  · refine .of_does hno (((gpio3ConfigureInput_calls _ _).honest (f := Prod.fst) rfl
      fun _ gaveUp _ h => h.2 ▸ honest_ok gaveUp).bind fun gaveUp r hr => ?_)
    rw [does_pure, or_false]
    exact .ofStatus hr

theorem gpioRead_answers (hop : PeriphOp.ofCode req.op = some .gpioRead) :
    Answers service req (service.gpioRead req) := by
  have hno (reads : Stream' U32) : ¬ FalseTimeout service req reads :=
    not_falseTimeout hop (by decide)
  unfold PeripheralService.gpioRead
  split_ifs with hspi
  · exact fun reads => gpioUnavailable hop rfl (hno reads) hspi
  · refine answers_of_honest hno ((gpio3Get_calls _ _).honest (f := Prod.fst) rfl ?_)
      fun gaveUp r hr => ⟨hr, Nat.zero_le _⟩
    exact fun gpio gaveUp r hr => hr.2.1 ▸ honest_ok gaveUp

theorem uartWrite_answers (hop : PeriphOp.ofCode req.op = some .uartWrite) :
    Answers service req (service.uartWrite req) := by
  have hno (reads : Stream' U32) : ¬ FalseTimeout service req reads :=
    not_falseTimeout hop (by decide)
  unfold PeripheralService.uartWrite
  split
  · exact fun reads => .invalid (hno reads)
  · exact answers_of_honest hno ((uartWrite_calls _ _ _).honest (f := id) rfl
      fun _ _ _ h => h.honest) fun _ _ => .ofStatus

theorem uartRead_answers (hop : PeriphOp.ofCode req.op = some .uartRead) :
    Answers service req (service.uartRead req) := by
  have hno (reads : Stream' U32) : ¬ FalseTimeout service req reads :=
    not_falseTimeout hop (by decide)
  unfold PeripheralService.uartRead
  split
  · exact fun reads => .invalid (hno reads)
  · split_ifs with hargs
    · exact fun reads => .invalid (hno reads)
    · have hle : req.arg1.toNat ≤ 8 := by bv_omega
      exact answers_of_honest (Q := fun gaveUp r => Honest gaveUp r.1 ∧ r.2.length ≤ 8) hno
        ((uartRead_calls _ _ _).does (W := fun _ _ => True) (fun _ _ _ _ _ _ => trivial)
          (fun _ => ⟨honest_invalid False, Nat.zero_le _⟩)
          fun _ _ _ _ _ h => ⟨h.waited.honest, h.ok.trans hle⟩) fun _ _ h => ⟨h.1, h.2⟩

theorem spiTransfer_answers (hop : PeriphOp.ofCode req.op = some .spiTransfer)
    (hdata : req.data.length ≤ 8) (reads : Stream' U32) :
    Answer service req reads ((service.spiTransfer req).run reads).events
      ((service.spiTransfer req).run reads).value.1 := by
  have hno : ¬ FalseTimeout service req reads := not_falseTimeout hop (by decide)
  unfold PeripheralService.spiTransfer
  split_ifs with hspi hargs
  · refine .unavailable' hno hop ?_
    simpa [controllers, Controller.InProfile] using hspi
  · exact .invalid hno
  refine .of_does (W := fun _ _ => True) hno ?_
  have hmode : (spiSetMode service.spi0 req.arg1).Does (fun _ _ => True)
      fun gaveUp r => Honest gaveUp r.1 := by
    refine (spiSetMode_calls _ _).honest rfl ?_
    rintro spi gaveUp _ ⟨-, ctrlr0, rfl⟩
    exact honest_ok gaveUp
  refine hmode.bind fun gaveUp r hr => ?_
  dsimp only
  split_ifs
  · rw [does_pure, or_false]
    exact .ofStatus hr
  · have htransfer : (Cpu3.spiTransfer r.2 req.arg0 req.data serviceTimeoutUs).Does
        (fun _ _ => True) fun gaveUp r => HonestReply gaveUp (.ofData r) :=
      (spiTransfer_calls _ _ _ _).does (fun _ _ _ _ _ _ => trivial)
        (fun _ => .ofData (honest_invalid False) (Nat.zero_le _))
        fun _ _ _ _ _ h => .ofData h.waited.honest (h.ok.trans hdata)
    refine htransfer.bind fun later r hr => ?_
    rw [does_pure, or_false]
    exact ⟨hr.honest.mono .inr, hr.fits⟩

theorem pwmSet_answers (hop : PeriphOp.ofCode req.op = some .pwmSet) :
    Answers service req (service.pwmSet req) := by
  have hno (reads : Stream' U32) : ¬ FalseTimeout service req reads :=
    not_falseTimeout hop (by decide)
  unfold PeripheralService.pwmSet
  split_ifs
  · exact fun reads => .invalid (hno reads)
  · exact answers_of_honest hno ((pwmSet_calls _ _ _ _).honest (f := id) rfl
      fun _ gaveUp _ h => h.2 ▸ honest_ok gaveUp) fun _ _ => .ofStatus

theorem pwmStop_answers (hop : PeriphOp.ofCode req.op = some .pwmStop) :
    Answers service req service.pwmStop :=
  answers_of_honest (fun _ => not_falseTimeout hop (by decide))
    ((pwmStop_calls _).honest (f := id) rfl fun _ gaveUp _ h => h.2 ▸ honest_ok gaveUp)
    fun _ _ => .ofStatus

theorem adcRead_answers (hop : PeriphOp.ofCode req.op = some .adcRead) :
    Answers service req (service.adcRead req) := by
  intro reads
  refine .of_does (f := id) (W := fun _ _ => True) (not_falseTimeout hop (by decide)) ?_
  refine ((resetPulse_calls service.reset .saradc).honest (f := id) rfl
    fun _ gaveUp _ h => h.2 ▸ honest_ok gaveUp).bind fun gaveUp status hstatus => ?_
  split_ifs
  · rw [does_pure, or_false]
    exact .ofStatus hstatus
  · refine ((saradcRead_calls _ _ _).honest (f := Prod.fst) rfl
      fun _ _ _ h => h.waited.honest).bind fun later r hr => ?_
    rw [does_pure, or_false]
    exact ⟨hr.mono .inr, Nat.zero_le _⟩

theorem keep_answers {p : Mmio PeriphReply} (h : Answers service req p) (reads : Stream' U32) :
    Answer service req reads ((service.keep p).run reads).events
      ((service.keep p).run reads).value.1 := by
  simp only [PeripheralService.keep, run_bind, run_pure, List.append_nil]
  exact h reads

theorem dispatch_answers (service : PeripheralService)
    (hdata : req.data.length = req.length.toNat) (hlen : req.length ≤ 8)
    (reads : Stream' U32) :
    Answer service req reads ((service.dispatch req).run reads).events
      ((service.dispatch req).run reads).value.1 := by
  have hle : req.data.length ≤ 8 := hdata.trans_le hlen
  unfold PeripheralService.dispatch
  split
  · exact gpioConfig_answers ‹_› reads
  · exact keep_answers (gpioWrite_answers ‹_›) reads
  · exact keep_answers (gpioRead_answers ‹_›) reads
  · exact keep_answers (uartWrite_answers ‹_›) reads
  · exact keep_answers (uartRead_answers ‹_›) reads
  · exact keep_answers (i2cWrite_answers ‹_› hdata hlen) reads
  · exact keep_answers (i2cRead_answers ‹_›) reads
  · exact keep_answers (i2cWriteRead_answers ‹_› hdata) reads
  · exact spiTransfer_answers ‹_› hle reads
  · exact keep_answers (pwmSet_answers ‹_›) reads
  · exact keep_answers (pwmStop_answers ‹_›) reads
  · exact keep_answers (adcRead_answers ‹_›) reads
  · rename_i hop
    refine .invalid ?_
    rintro (⟨hop', -⟩ | ⟨desired, words, hstart, -⟩)
    · simp [hop] at hop'
    · cases hstart <;> simp_all

end Answers

theorem length_decodeRequest_data {payload : Fin 28 → U8} (h : (decodeRequest payload).length ≤ 8) :
    (decodeRequest payload).data.length = (decodeRequest payload).length.toNat := by
  have hle : (decodeRequest payload).length.toNat ≤ 8 := h
  simp only [decodeRequest, List.length_take, List.length_drop, List.length_ofFn] at hle ⊢
  omega

/-- The signed status word of a result record, as the agent decodes it. -/
def resultStatus (record : List U8) : ℤ := Agent.signedU32 (Agent.unpackU32 record 4)

theorem resultStatus_resultRecord {reply : PeriphReply} (hlow : -22 ≤ reply.status)
    (hhigh : reply.status ≤ 0) (sequence op : U32) :
    resultStatus (resultRecord sequence op reply) = reply.status := by
  have hword : Agent.unpackU32 (resultRecord sequence op reply) 4 =
      leNat (storePayloadU32 (BitVec.ofInt 32 reply.status)) := rfl
  rw [resultStatus, hword, Agent.leNat_storePayloadU32]
  exact Agent.signedU32_ofInt (by omega) (by omega)

/-- The error that the agent makes of a status tells the truth about the execution: a timeout is a
polling loop that gave up, and an unavailable peripheral is one the pin profile does not have. -/
def StatusTruthful (service : PeripheralService) (request : Message) (reads : Stream' U32) : Prop :=
  ∀ record, ((service.execute request).run reads).value.1 = some record →
    ((Agent.peripheralStatusError (resultStatus record)).code = "peripheral_timeout" →
      .expire ∈ ((service.execute request).run reads).events) ∧
    ((Agent.peripheralStatusError (resultStatus record)).code = "peripheral_unavailable" →
      ∃ op, PeriphOp.ofCode (decodeRequest request.payload).op = some op ∧
        ∀ c ∈ controllers op, ¬ c.InProfile service.spiProfile)

/-- The requests and reads for which it does not. -/
def Misreported (service : PeripheralService) (request : Message) (reads : Stream' U32) : Prop :=
  request.type = msgPeripheralRequest ∧ request.length = 28 ∧
    (decodeRequest request.payload).length ≤ 8 ∧
    FalseTimeout service (decodeRequest request.payload) reads

theorem execute_run (service : PeripheralService) {request : Message}
    (hform : ¬ (request.type ≠ msgPeripheralRequest ∨ request.length ≠ 28)) (reads : Stream' U32) :
    ((service.execute request).run reads).value.1 =
        some (resultRecord request.sequence (decodeRequest request.payload).op
          ((service.reply (decodeRequest request.payload)).run reads).value.1) ∧
      ((service.execute request).run reads).events =
        ((service.reply (decodeRequest request.payload)).run reads).events := by
  rw [PeripheralService.execute, if_neg hform]
  simp only [run_bind, run_pure, List.append_nil, and_self]

theorem reply_of_long {service : PeripheralService} {req : PeriphRequest} (h : ¬ req.length ≤ 8) :
    service.reply req = pure (.ofStatus serviceInvalid, service) := by
  rw [PeripheralService.reply, if_pos (by simpa using h)]

theorem reply_of_short {service : PeripheralService} {req : PeriphRequest} (h : req.length ≤ 8) :
    service.reply req = service.dispatch req := by
  rw [PeripheralService.reply, if_neg (by simpa using h)]

theorem status_truthful_iff (service : PeripheralService) (request : Message)
    (reads : Stream' U32) :
    StatusTruthful service request reads ↔ ¬ Misreported service request reads := by
  unfold StatusTruthful Misreported
  by_cases hform : request.type ≠ msgPeripheralRequest ∨ request.length ≠ 28
  · -- no result
    refine iff_of_true (fun record h => ?_) fun h => ?_
    · rw [PeripheralService.execute, if_pos hform] at h
      cases h
    · exact hform.elim (fun h' => h' h.1) fun h' => h' h.2.1
  obtain ⟨hvalue, hevents⟩ := execute_run service hform reads
  rw [hvalue, hevents]
  simp only [Option.some.injEq, forall_eq']
  by_cases hlen : (decodeRequest request.payload).length ≤ 8
  · have ha := dispatch_answers service (length_decodeRequest_data hlen) hlen reads
    rw [reply_of_short hlen, resultStatus_resultRecord ha.low ha.high,
      Agent.peripheralStatusError_timeout, Agent.peripheralStatusError_unavailable]
    constructor
    · rintro ⟨htimeout, -⟩ ⟨-, -, -, hfalse⟩
      obtain ⟨hstatus, hno⟩ := ha.falseTimeout hfalse
      exact hno (htimeout hstatus)
    · intro hgood
      simp only [not_or, not_not] at hform
      exact ⟨ha.timeout fun hf => hgood ⟨hform.1, hform.2, hlen, hf⟩, ha.unavailable⟩
  · -- a length out of range is refused before the operation is looked at
    refine iff_of_true ?_ fun h => hlen h.2.2.1
    have hstatus : resultStatus (resultRecord request.sequence (decodeRequest request.payload).op
        (.ofStatus serviceInvalid)) = serviceInvalid :=
      resultStatus_resultRecord (by decide) (by decide) _ _
    rw [reply_of_long hlen, run_pure]
    dsimp only
    rw [hstatus]
    exact ⟨fun h => absurd h (by decide), fun h => absurd h (by decide)⟩

def writeLine25 : Message := { Message.zero with
  type := msgPeripheralRequest
  length := 28
  payload := fun i => [2, 0, 0, 0, 25, 0, 0, 0, 1].getD i.val 0 }

/-- After boot line 25 is an input, so a write to it fails with the driver's own -2, which the agent
reports as a timeout although nothing was polled. -/
theorem write_to_input_reported_as_timeout :
    ¬ StatusTruthful (.initial .physical false) writeLine25 (Stream'.const 0) := by
  intro h
  have hrecord : ((PeripheralService.execute (.initial .physical false) writeLine25).run
      (Stream'.const 0)).value.1 = some (resultRecord 0 2 (.ofStatus (-2))) := by decide +kernel
  have hexpire := (h _ hrecord).1 (by decide +kernel)
  revert hexpire
  decide +kernel

end Lzamp.System
