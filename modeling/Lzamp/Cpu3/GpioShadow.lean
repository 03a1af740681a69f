import Lzamp.Lib.Trace
import Lzamp.Lib.Hiword
import Lzamp.Cpu3.Drivers

namespace Lzamp.Cpu3
open Lib Lib.Bus Lib.Hiword

/-- `gpio3_prepare_owned_lines_as_inputs`, without its checkpoints. -/
def gpio3PrepareOwnedLinesAsInputs (device : Option Gpio3) (gpioBase iocBase : U64) :
    Mmio (Option Gpio3) :=
  let (ret, device) := gpio3Init device gpioBase iocBase true
  if ret ≠ gpio3Ok then pure device
  else do
    let (_, device) ← gpio3ConfigureInput device gpio3Pd1
    let (_, device) ← gpio3ConfigureInput device gpio3Pd4
    let (_, device) ← gpio3ConfigureInput device gpio3Pd5
    pure device

inductive Gpio3Call
  | configureInput (line : U32)
  | configureOutput (line : U32) (initialValue : Int)
  | set (line : U32) (value : Int)
  | get (line : U32)

def Gpio3Call.exec (device : Option Gpio3) : Gpio3Call → Mmio (Int × Option Gpio3)
  | .configureInput line => gpio3ConfigureInput device line
  | .configureOutput line initialValue => gpio3ConfigureOutput device line (initialValue ≠ 0)
  | .set line value => do
    let ret ← gpio3Set device line (value ≠ 0)
    pure (ret, device)
  | .get line => do
    let (ret, _) ← gpio3Get device line
    pure (ret, device)

inductive GpioRegister
  | drHigh
  | ddrHigh
  | iomuxLow
  | iomuxHigh
  deriving DecidableEq

def GpioRegister.address (gpioBase iocBase : U64) : GpioRegister → U64
  | .drHigh => gpioBase + gpioDrHigh
  | .ddrHigh => gpioBase + gpioDdrHigh
  | .iomuxLow => iocBase + gpio3DIomuxLow
  | .iomuxHigh => iocBase + gpio3DIomuxHigh

/-- The bits of a line in each register. -/
def lineBit (line : U32) : GpioRegister → ℕ → Bool
  | .drHigh, i => i + 16 = line.toNat
  | .ddrHigh, i => i + 16 = line.toNat
  | .iomuxLow, i => line = gpio3Pd1 && 4 ≤ i && i < 8
  | .iomuxHigh, i => line = gpio3Pd4 && i < 4 || line = gpio3Pd5 && 4 ≤ i && i < 8

theorem lineIsOwned_cases {line : U32} (howned : lineIsOwned line = true) :
    line = gpio3Pd1 ∨ line = gpio3Pd4 ∨ line = gpio3Pd5 := by
  simpa [lineIsOwned, or_assoc] using howned

theorem lineBit_lt {line : U32} (howned : lineIsOwned line = true) : line.toNat - 16 < 16 := by
  obtain rfl | rfl | rfl := lineIsOwned_cases howned <;> decide

theorem lineBit_drHigh {line : U32} (howned : lineIsOwned line = true) (l : U32) :
    lineBit l .drHigh (line.toNat - 16) = decide (l = line) := by
  have hge : 16 ≤ line.toNat := by
    obtain rfl | rfl | rfl := lineIsOwned_cases howned <;> decide
  simp [lineBit, Nat.sub_add_cancel hge, BitVec.toNat_inj, eq_comm]

theorem lineBit_ddrHigh {line : U32} (howned : lineIsOwned line = true) (l : U32) :
    lineBit l .ddrHigh (line.toNat - 16) = decide (l = line) := lineBit_drHigh howned l

theorem given_maskedBit {line : U32} (howned : lineIsOwned line = true) (value : Bool) {i : ℕ}
    (hi : i < 16) (addr : U64) : given addr i (.write (maskedBit line value) addr) =
      if i + 16 = line.toNat then some value else none := by
  rw [given_write]
  have h : ∀ i < 16, (if (maskedBit line value).getLsbD (16 + i) then
      some ((maskedBit line value).getLsbD i) else none) =
      if i + 16 = line.toNat then some value else none := by
    obtain rfl | rfl | rfl := lineIsOwned_cases howned <;> cases value <;> decide
  exact h i hi

def iomuxRegister (line : U32) : GpioRegister := if line < gpio3Pd4 then .iomuxLow else .iomuxHigh

theorem iomuxRegister_address (gpioBase iocBase : U64) (line : U32) :
    (iomuxRegister line).address gpioBase iocBase = iocBase + (iomuxField line).1 := by
  unfold iomuxRegister iomuxField
  split <;> rfl

theorem given_iomux {line : U32} (howned : lineIsOwned line = true) {i : ℕ} (hi : i < 16)
    (addr : U64) : given addr i (.write (0xf#32 <<< ((iomuxField line).2 + 16)) addr) =
      if lineBit line (iomuxRegister line) i then some false else none := by
  rw [given_write]
  have h : ∀ i < 16, (if (0xf#32 <<< ((iomuxField line).2 + 16)).getLsbD (16 + i) then
      some ((0xf#32 <<< ((iomuxField line).2 + 16)).getLsbD i) else none) =
      if lineBit line (iomuxRegister line) i then some false else none := by
    obtain rfl | rfl | rfl := lineIsOwned_cases howned <;> decide
  exact h i hi

section Places

variable {gpioBase iocBase : U64}
  (hinj : Function.Injective (GpioRegister.address gpioBase iocBase)) {line : U32}
  (howned : lineIsOwned line = true) (r : GpioRegister) {i : ℕ} (hi : i < 16)

include hinj howned hi

theorem given_drHigh (value : Bool) :
    given (r.address gpioBase iocBase) i (.write (maskedBit line value) (gpioBase + gpioDrHigh)) =
      if r = .drHigh ∧ lineBit line r i then some value else none := by
  by_cases hr : r = .drHigh
  · subst hr
    rw [GpioRegister.address, given_maskedBit howned value hi]
    simp [lineBit]
  · rw [if_neg fun h => hr h.1]
    exact given_write_of_ne (hinj.ne (Ne.symm hr)) i _

theorem given_ddrHigh (value : Bool) :
    given (r.address gpioBase iocBase) i (.write (maskedBit line value) (gpioBase + gpioDdrHigh)) =
      if r = .ddrHigh ∧ lineBit line r i then some value else none := by
  by_cases hr : r = .ddrHigh
  · subst hr
    rw [GpioRegister.address, given_maskedBit howned value hi]
    simp [lineBit]
  · rw [if_neg fun h => hr h.1]
    exact given_write_of_ne (hinj.ne (Ne.symm hr)) i _

theorem given_iomuxField :
    given (r.address gpioBase iocBase) i
        (.write (0xf#32 <<< ((iomuxField line).2 + 16)) (iocBase + (iomuxField line).1)) =
      if r ≠ .drHigh ∧ r ≠ .ddrHigh ∧ lineBit line r i then some false else none := by
  rw [← iomuxRegister_address gpioBase]
  by_cases hr : r = iomuxRegister line
  · subst hr
    rw [given_iomux howned hi]
    obtain rfl | rfl | rfl := lineIsOwned_cases howned <;> simp [iomuxRegister]
  · rw [given_write_of_ne (hinj.ne (Ne.symm hr)), eq_comm, if_neg]
    rintro ⟨hdr, hddr, hbit⟩
    obtain rfl | rfl | rfl := lineIsOwned_cases howned <;> cases r <;>
      simp_all [iomuxRegister, lineBit]

end Places

/-- What an accepted call gives to the bits of the registers. -/
def Gpio3Call.gives (r : GpioRegister) (i : ℕ) : Gpio3Call → Option Bool
  | .configureInput line => if r ≠ .drHigh ∧ lineBit line r i then some false else none
  | .configureOutput line initialValue =>
    if lineBit line r i then
      some (match r with | .drHigh => initialValue ≠ 0 | .ddrHigh => true | _ => false)
    else none
  | .set line value => if r = .drHigh ∧ lineBit line r i then some (value ≠ 0) else none
  | .get _ => none

/-- A call that is not rejected: what it does on the bus, and the mask it leaves. -/
inductive Gpio3Call.Accepted (gpio : Gpio3) :
    Gpio3Call → List (BusEvent U64 U32) → U32 → Prop
  | configureInput {line : U32} (howned : lineIsOwned line = true) :
    Accepted gpio (.configureInput line)
      [.write (0xf#32 <<< ((iomuxField line).2 + 16)) (gpio.iocBase + (iomuxField line).1),
       .write (maskedBit line false) (gpio.gpioBase + gpioDdrHigh)]
      (gpio.outputMask &&& ~~~(1#32 <<< line))
  | configureOutput {line : U32} (howned : lineIsOwned line = true) (initialValue : Int) :
    Accepted gpio (.configureOutput line initialValue)
      [.write (0xf#32 <<< ((iomuxField line).2 + 16)) (gpio.iocBase + (iomuxField line).1),
       .write (maskedBit line (initialValue ≠ 0)) (gpio.gpioBase + gpioDrHigh),
       .write (maskedBit line true) (gpio.gpioBase + gpioDdrHigh)]
      (gpio.outputMask ||| 1#32 <<< line)
  | set {line : U32} (howned : lineIsOwned line = true)
    (hout : gpio.outputMask &&& 1#32 <<< line ≠ 0) (value : Int) :
    Accepted gpio (.set line value)
      [.write (maskedBit line (value ≠ 0)) (gpio.gpioBase + gpioDrHigh)] gpio.outputMask
  | get {line : U32} (howned : lineIsOwned line = true) (port : U32) :
    Accepted gpio (.get line) [.read (gpio.gpioBase + gpioExtPort) port] gpio.outputMask

section Exec

variable {gpio : Gpio3} (hops : gpio.ops = true)

include hops

theorem filter_ops : (some gpio).filter (·.ops) = some gpio := by
  simp [hops]

theorem Gpio3Call.exec_cases (call : Gpio3Call) (reads : Stream' U32) :
    let r := (call.exec (some gpio)).run reads
    (r.value.1 ≠ gpio3Ok ∧ r.value.2 = some gpio ∧ r.events = []) ∨
      (r.value.1 = gpio3Ok ∧ ∃ mask, r.value.2 = some { gpio with outputMask := mask } ∧
        call.Accepted gpio r.events mask) := by
  have hdevice := filter_ops hops
  have hinvalid : gpio3Invalid ≠ gpio3Ok := by decide
  cases call with
  | configureInput line =>
    dsimp only [exec, gpio3ConfigureInput]
    rw [hdevice]
    cases howned : lineIsOwned line with
    | false => exact .inl ⟨hinvalid, rfl, rfl⟩
    | true => exact .inr ⟨rfl, _, rfl, .configureInput howned⟩
  | configureOutput line initialValue =>
    dsimp only [exec, gpio3ConfigureOutput]
    rw [hdevice]
    cases howned : lineIsOwned line with
    | false => exact .inl ⟨hinvalid, rfl, rfl⟩
    | true => exact .inr ⟨rfl, _, rfl, .configureOutput howned initialValue⟩
  | set line value =>
    dsimp only [exec, gpio3Set]
    rw [hdevice]
    cases howned : lineIsOwned line with
    | false => exact .inl ⟨hinvalid, rfl, rfl⟩
    | true =>
      dsimp only
      by_cases hout : gpio.outputMask &&& 1#32 <<< line = 0
      · rw [if_neg (by decide), if_pos hout]
        exact .inl ⟨(by decide : gpio3NotOutput ≠ gpio3Ok), rfl, rfl⟩
      · rw [if_neg (by decide), if_neg hout]
        exact .inr ⟨rfl, _, rfl, .set howned hout value⟩
  | get line =>
    dsimp only [exec, gpio3Get]
    rw [hdevice]
    cases howned : lineIsOwned line with
    | false => exact .inl ⟨hinvalid, rfl, rfl⟩
    | true => exact .inr ⟨rfl, _, rfl, .get howned reads.head⟩

end Exec

theorem getLsbD_one_shiftLeft (line : U32) {i : ℕ} (hi : i < 32) :
    (1#32 <<< line).getLsbD i = decide (i = line.toNat) := by
  rw [BitVec.shiftLeft_eq', BitVec.getLsbD_shiftLeft, BitVec.getLsbD_one]
  simp only [hi, decide_true, Bool.true_and]
  by_cases h : i < line.toNat
  · simp [h, h.ne]
  · simp [h]
    omega

namespace Gpio3Call.Accepted

variable {gpio : Gpio3} {call : Gpio3Call} {events : List (BusEvent U64 U32)} {mask : U32}

theorem mask_eq (h : call.Accepted gpio events mask) {line : U32}
    (howned : lineIsOwned line = true) :
    mask.getLsbD line.toNat =
      (call.gives .ddrHigh (line.toNat - 16)).getD (gpio.outputMask.getLsbD line.toNat) := by
  have hlt : line.toNat < 32 := by
    obtain rfl | rfl | rfl := lineIsOwned_cases howned <;> decide
  have hbit (l : U32) : (1#32 <<< l).getLsbD line.toNat = decide (l = line) := by
    rw [getLsbD_one_shiftLeft l hlt]
    simp [BitVec.toNat_inj, eq_comm]
  cases h with
  | @configureInput l _ =>
    rw [BitVec.getLsbD_and, BitVec.getLsbD_not, hbit l, gives, lineBit_ddrHigh howned]
    by_cases hl : l = line <;> simp [hl, hlt]
  | @configureOutput l _ _ =>
    rw [BitVec.getLsbD_or, hbit l, gives, lineBit_ddrHigh howned]
    by_cases hl : l = line <;> simp [hl]
  | set => rfl
  | get => rfl

theorem lastGiven_eq (h : call.Accepted gpio events mask)
    (hinj : Function.Injective (GpioRegister.address gpio.gpioBase gpio.iocBase))
    (r : GpioRegister) {i : ℕ} (hi : i < 16) :
    lastGiven (r.address gpio.gpioBase gpio.iocBase) i events = call.gives r i := by
  cases h with
  | configureInput howned =>
    simp only [lastGiven, given_iomuxField hinj howned r hi, given_ddrHigh hinj howned r hi, gives]
    cases r <;> simp
  | configureOutput howned v =>
    simp only [lastGiven, given_iomuxField hinj howned r hi, given_drHigh hinj howned r hi,
      given_ddrHigh hinj howned r hi, gives]
    cases r <;> simp
  | set howned _ v => simp [lastGiven, given_drHigh hinj howned r hi, gives]
  | get => rfl

theorem getLsbD_after_eq (h : call.Accepted gpio events mask)
    (hinj : Function.Injective (GpioRegister.address gpio.gpioBase gpio.iocBase))
    (regs : U64 → BitVec 16) (r : GpioRegister) {i : ℕ} (hi : i < 16) :
    (after regs events (r.address gpio.gpioBase gpio.iocBase)).getLsbD i =
      (call.gives r i).getD ((regs (r.address gpio.gpioBase gpio.iocBase)).getLsbD i) := by
  rw [getLsbD_after regs hi, h.lastGiven_eq hinj r hi]

/-- A line starts to drive at the last write of `lzamp_gpio3_configure_output`, and its level is
there by then. -/
theorem rises (h : call.Accepted gpio events mask)
    (hinj : Function.Injective (GpioRegister.address gpio.gpioBase gpio.iocBase))
    {regs : U64 → BitVec 16} {pre post : List (BusEvent U64 U32)} {e : BusEvent U64 U32}
    (hsplit : events = pre ++ e :: post) {i : ℕ} (hi : i < 16)
    (hlow : (after regs pre (gpio.gpioBase + gpioDdrHigh)).getLsbD i = false)
    (hhigh : (after regs (pre ++ [e]) (gpio.gpioBase + gpioDdrHigh)).getLsbD i = true) :
    ∃ line value, call = .configureOutput line value ∧ line.toNat = i + 16 ∧
      (after regs pre (gpio.gpioBase + gpioDrHigh)).getLsbD i = decide (value ≠ 0) := by
  -- a bit that comes up was given by this very write
  have hgiven : given (gpio.gpioBase + gpioDdrHigh) i e = some true := by
    rw [after_append] at hhigh
    change (apply (after regs pre) e (gpio.gpioBase + gpioDdrHigh)).getLsbD i = true at hhigh
    rw [getLsbD_apply _ hi, hlow] at hhigh
    cases hg : given (gpio.gpioBase + gpioDdrHigh) i e with
    | none => simp [hg] at hhigh
    | some b => simpa [hg] using hhigh
  have hmem : e ∈ events := hsplit ▸ List.mem_append_right pre List.mem_cons_self
  cases h with
  | @configureInput line howned =>
    have hmux := given_iomuxField hinj howned .ddrHigh hi
    have hddr := given_ddrHigh hinj howned .ddrHigh hi false
    simp only [List.mem_cons, List.not_mem_nil, or_false] at hmem
    obtain rfl | rfl := hmem
    · cases hmux.symm.trans hgiven
    · by_cases hbit : GpioRegister.ddrHigh = .ddrHigh ∧ lineBit line .ddrHigh i = true
      · rw [if_pos hbit] at hddr
        cases hddr.symm.trans hgiven
      · rw [if_neg hbit] at hddr
        cases hddr.symm.trans hgiven
  | @configureOutput line howned value =>
    have hmux := given_iomuxField hinj howned .ddrHigh hi
    have hdr := given_drHigh hinj howned .ddrHigh hi (value ≠ 0)
    have hddr := given_ddrHigh hinj howned .ddrHigh hi true
    -- the order of the writes is the point: function, level, direction
    obtain _ | ⟨e₁, _ | ⟨e₂, _ | ⟨e₃, pre⟩⟩⟩ := pre <;>
      simp only [List.cons_append, List.nil_append, List.cons.injEq] at hsplit
    · obtain ⟨rfl, -⟩ := hsplit
      cases hmux.symm.trans hgiven
    · obtain ⟨-, rfl, -⟩ := hsplit
      cases hdr.symm.trans hgiven
    · obtain ⟨rfl, rfl, rfl, -⟩ := hsplit
      have hbit : lineBit line .ddrHigh i = true := by
        by_contra hne
        rw [if_neg fun h => hne h.2] at hddr
        cases hddr.symm.trans hgiven
      have hlevel : given (gpio.gpioBase + gpioDrHigh) i
          (.write (maskedBit line (value ≠ 0)) (gpio.gpioBase + gpioDrHigh)) =
            some (decide (value ≠ 0)) :=
        (given_drHigh hinj howned .drHigh hi _).trans (if_pos ⟨rfl, hbit⟩)
      refine ⟨line, value, rfl, (of_decide_eq_true hbit).symm, ?_⟩
      rw [getLsbD_after _ hi, lastGiven, lastGiven, lastGiven, hlevel]
      rfl
    · simp at hsplit
  -- a level or a read never gives the direction register a bit
  | set howned hout value =>
    have hdr := given_drHigh hinj howned .ddrHigh hi (value ≠ 0)
    simp only [List.mem_cons, List.not_mem_nil, or_false] at hmem
    subst hmem
    cases hdr.symm.trans hgiven
  | get howned port =>
    simp only [List.mem_cons, List.not_mem_nil, or_false] at hmem
    subst hmem
    cases hgiven

end Gpio3Call.Accepted

/-- The driver's record, and the registers behind it. -/
structure Gpio3Site where
  device : Option Gpio3
  regs : U64 → BitVec 16

structure Gpio3Done where
  call : Gpio3Call
  result : Int
  events : List (BusEvent U64 U32)

def Gpio3Site.Step (site : Gpio3Site) (done : Gpio3Done) (site' : Gpio3Site) : Prop :=
  ∃ reads, let r := (done.call.exec site.device).run reads
    done.result = r.value.1 ∧ done.events = r.events ∧
      site' = ⟨r.value.2, after site.regs r.events⟩

/-- The site after `gpio3_prepare_owned_lines_as_inputs`. -/
def Gpio3Site.prepared (gpio : Gpio3) (gpioBase iocBase : U64) (regs : U64 → BitVec 16) :
    Gpio3Site :=
  let r := (gpio3PrepareOwnedLinesAsInputs (some gpio) gpioBase iocBase).run (Stream'.const 0)
  ⟨r.value, after regs r.events⟩

/-- What a successful call drives a line to. -/
def Gpio3Done.drives (line : U32) (done : Gpio3Done) : Option Bool :=
  if done.result ≠ gpio3Ok then none
  else match done.call with
    | .configureOutput l value | .set l value => if l = line then some (value ≠ 0) else none
    | _ => none

/-- What a line was last driven to. -/
def lastDriven (line : U32) (history : List Gpio3Done) : Option Bool :=
  (history.filterMap (·.drives line)).getLast?

theorem lastDriven_snoc (line : U32) (history : List Gpio3Done) (done : Gpio3Done) :
    lastDriven line (history ++ [done]) = (done.drives line).or (lastDriven line history) := by
  unfold lastDriven
  rw [List.filterMap_append, List.getLast?_append]
  cases h : done.drives line <;> simp [h]

/-- The driver's record `gpio` against the registers, which held `regs₀` before. -/
structure Gpio3Site.Tracks (site : Gpio3Site) (gpioBase iocBase : U64) (regs₀ : U64 → BitVec 16)
    (history : List Gpio3Done) (gpio : Gpio3) : Prop where
  device : site.device = some gpio
  ops : gpio.ops = true
  gpioBase_eq : gpio.gpioBase = gpioBase
  iocBase_eq : gpio.iocBase = iocBase
  direction : ∀ line, lineIsOwned line = true →
    (site.regs (gpioBase + gpioDdrHigh)).getLsbD (line.toNat - 16) =
      gpio.outputMask.getLsbD line.toNat
  level : ∀ line, lineIsOwned line = true → gpio.outputMask.getLsbD line.toNat = true →
    lastDriven line history =
      some ((site.regs (gpioBase + gpioDrHigh)).getLsbD (line.toNat - 16))
  function : ∀ line r i, lineIsOwned line = true → r ≠ .drHigh → r ≠ .ddrHigh → i < 16 →
    lineBit line r i = true → (site.regs (r.address gpioBase iocBase)).getLsbD i = false
  others : ∀ (r : GpioRegister) (i : ℕ), i < 16 →
    (∀ line, lineIsOwned line = true → lineBit line r i = false) →
    (site.regs (r.address gpioBase iocBase)).getLsbD i =
      (regs₀ (r.address gpioBase iocBase)).getLsbD i

theorem Gpio3Done.drives_eq {done : Gpio3Done} (hresult : done.result = gpio3Ok) {line : U32}
    (howned : lineIsOwned line = true) :
    done.drives line = done.call.gives .drHigh (line.toNat - 16) := by
  unfold drives
  rw [if_neg (not_not.mpr hresult)]
  cases done.call <;> simp [Gpio3Call.gives, lineBit_drHigh howned]

theorem Gpio3Done.drives_eq_none {done : Gpio3Done} (hresult : done.result ≠ gpio3Ok)
    (line : U32) : done.drives line = none := if_pos hresult

theorem Gpio3Call.gives_iomux (call : Gpio3Call) {r : GpioRegister} (hdr : r ≠ .drHigh)
    (hddr : r ≠ .ddrHigh) (i : ℕ) : call.gives r i = none ∨ call.gives r i = some false := by
  cases call with
  | configureInput line => cases hbit : lineBit line r i <;> simp [gives, hdr, hbit]
  | configureOutput line value =>
    cases r with
    | drHigh => exact absurd rfl hdr
    | ddrHigh => exact absurd rfl hddr
    | iomuxLow => cases hbit : lineBit line .iomuxLow i <;> simp [gives, hbit]
    | iomuxHigh => cases hbit : lineBit line .iomuxHigh i <;> simp [gives, hbit]
  | set line value => simp [gives, hdr]
  | get line => exact .inl rfl

theorem Gpio3Call.Accepted.gives_eq_none {gpio : Gpio3} {call : Gpio3Call}
    {events : List (BusEvent U64 U32)} {mask : U32} (h : call.Accepted gpio events mask)
    {r : GpioRegister} {i : ℕ} (hnone : ∀ line, lineIsOwned line = true → lineBit line r i = false) :
    call.gives r i = none := by
  cases h with
  | configureInput howned => simp [gives, hnone _ howned]
  | configureOutput howned value => simp [gives, hnone _ howned]
  | set howned hout value => simp [gives, hnone _ howned]
  | get howned port => rfl

/-- A line that an accepted call turns into an output is driven by the same call. -/
theorem Gpio3Call.gives_drHigh {call : Gpio3Call} {i : ℕ} (h : call.gives .ddrHigh i = some true) :
    ∃ value, call.gives .drHigh i = some value := by
  cases call with
  | configureOutput line value =>
    cases hbit : lineBit line .ddrHigh i with
    | false => simp [gives, hbit] at h
    | true =>
      have hdr : lineBit line .drHigh i = true := hbit
      exact ⟨_, if_pos hdr⟩
  | configureInput line => simp [gives] at h
  | set line value => simp [gives] at h
  | get line => cases h

namespace Gpio3Site.Tracks

variable {gpioBase iocBase : U64} {regs₀ : U64 → BitVec 16} {history : List Gpio3Done}
  {gpio : Gpio3} {site site' : Gpio3Site} {done : Gpio3Done}

theorem step_rejected (htracks : site.Tracks gpioBase iocBase regs₀ history gpio)
    (hresult : done.result ≠ gpio3Ok) :
    site.Tracks gpioBase iocBase regs₀ (history ++ [done]) gpio where
  __ := htracks
  level line howned hout := by
    rw [lastDriven_snoc, Gpio3Done.drives_eq_none hresult, Option.none_or]
    exact htracks.level line howned hout

theorem step_accepted (hinj : Function.Injective (GpioRegister.address gpioBase iocBase))
    (htracks : site.Tracks gpioBase iocBase regs₀ history gpio) (hresult : done.result = gpio3Ok)
    {mask : U32} (h : done.call.Accepted gpio done.events mask) :
    Tracks ⟨some { gpio with outputMask := mask }, after site.regs done.events⟩ gpioBase iocBase
      regs₀ (history ++ [done]) { gpio with outputMask := mask } := by
  obtain ⟨hdevice, hops, rfl, rfl, hdirection, hlevel, hfunction, hothers⟩ := htracks
  have hbits := h.getLsbD_after_eq hinj site.regs
  refine ⟨rfl, hops, rfl, rfl, ?_, ?_, ?_, ?_⟩
  · intro line howned
    rw [h.mask_eq howned, ← hdirection line howned]
    exact hbits .ddrHigh (lineBit_lt howned)
  · intro line howned hout
    change _ = some ((after site.regs done.events
      (GpioRegister.drHigh.address gpio.gpioBase gpio.iocBase)).getLsbD (line.toNat - 16))
    rw [lastDriven_snoc, Gpio3Done.drives_eq hresult howned, hbits .drHigh (lineBit_lt howned)]
    cases hdr : done.call.gives .drHigh (line.toNat - 16) with
    | some value => rfl
    | none =>
      -- nothing drives the line now, so it was an output before
      refine hlevel line howned ?_
      dsimp only at hout
      rw [h.mask_eq howned] at hout
      cases hddr : done.call.gives .ddrHigh (line.toNat - 16) with
      | none => simpa [hddr] using hout
      | some value =>
        obtain rfl : value = true := by simpa [hddr] using hout
        obtain ⟨value, hvalue⟩ := Gpio3Call.gives_drHigh hddr
        cases hdr.symm.trans hvalue
  · intro line r i howned hdr hddr hi hbit
    rw [hbits r hi]
    obtain hgives | hgives := done.call.gives_iomux hdr hddr i
    · rw [hgives]
      exact hfunction line r i howned hdr hddr hi hbit
    · rw [hgives]
      rfl
  · intro r i hi hnone
    rw [hbits r hi, h.gives_eq_none hnone]
    exact hothers r i hi hnone

theorem step (hinj : Function.Injective (GpioRegister.address gpioBase iocBase))
    (htracks : site.Tracks gpioBase iocBase regs₀ history gpio) (hstep : site.Step done site') :
    ∃ gpio', site'.Tracks gpioBase iocBase regs₀ (history ++ [done]) gpio' := by
  obtain ⟨reads, hresult, hevents, rfl⟩ := hstep
  rw [htracks.device] at hresult hevents ⊢
  obtain ⟨hrejected, hdevice, hnone⟩ | ⟨hok, mask, hdevice, haccepted⟩ :=
    done.call.exec_cases htracks.ops reads
  · rw [hdevice, hnone, after_nil, ← htracks.device]
    exact ⟨gpio, htracks.step_rejected (hresult ▸ hrejected)⟩
  · rw [hdevice, ← hevents]
    exact ⟨_, htracks.step_accepted hinj (hresult.trans hok) (hevents ▸ haccepted)⟩

end Gpio3Site.Tracks

section Prepared

variable {gpioBase iocBase : U64}
  (hinj : Function.Injective (GpioRegister.address gpioBase iocBase)) (old : Gpio3)

theorem run_configureInput_initial (gpioBase iocBase : U64) {line : U32}
    (howned : lineIsOwned line = true)
    (reads : Stream' U32) :
    ∃ events mask, (gpio3ConfigureInput (some ⟨gpioBase, iocBase, true, 0⟩) line).run reads =
        ⟨events, (gpio3Ok, some ⟨gpioBase, iocBase, true, 0⟩), reads⟩ ∧
      (Gpio3Call.configureInput line).Accepted ⟨gpioBase, iocBase, true, 0⟩ events mask := by
  refine ⟨_, _, ?_, .configureInput howned⟩
  have hzero : 0 &&& ~~~(1#32 <<< line) = 0 := BitVec.zero_and
  unfold gpio3ConfigureInput
  rw [filter_ops rfl, howned]
  dsimp only
  rw [hzero]
  rfl

theorem run_gpio3Prepare (gpioBase iocBase : U64) (reads : Stream' U32) :
    ∃ e₁ e₂ e₃ mask₁ mask₂ mask₃,
      (gpio3PrepareOwnedLinesAsInputs (some old) gpioBase iocBase).run reads =
        ⟨e₁ ++ (e₂ ++ e₃), some ⟨gpioBase, iocBase, true, 0⟩, reads⟩ ∧
      (Gpio3Call.configureInput gpio3Pd1).Accepted ⟨gpioBase, iocBase, true, 0⟩ e₁ mask₁ ∧
      (Gpio3Call.configureInput gpio3Pd4).Accepted ⟨gpioBase, iocBase, true, 0⟩ e₂ mask₂ ∧
      (Gpio3Call.configureInput gpio3Pd5).Accepted ⟨gpioBase, iocBase, true, 0⟩ e₃ mask₃ := by
  obtain ⟨e₁, mask₁, hrun₁, h₁⟩ := run_configureInput_initial gpioBase iocBase
    (by decide : lineIsOwned gpio3Pd1 = true) reads
  obtain ⟨e₂, mask₂, hrun₂, h₂⟩ := run_configureInput_initial gpioBase iocBase
    (by decide : lineIsOwned gpio3Pd4 = true) reads
  obtain ⟨e₃, mask₃, hrun₃, h₃⟩ := run_configureInput_initial gpioBase iocBase
    (by decide : lineIsOwned gpio3Pd5 = true) reads
  refine ⟨e₁, e₂, e₃, mask₁, mask₂, mask₃, ?_, h₁, h₂, h₃⟩
  unfold gpio3PrepareOwnedLinesAsInputs
  rw [show gpio3Init (some old) gpioBase iocBase true =
    (gpio3Ok, some ⟨gpioBase, iocBase, true, 0⟩) from rfl]
  dsimp only
  rw [if_neg (not_not.mpr rfl), run_bind, hrun₁]
  dsimp only
  rw [run_bind, hrun₂]
  dsimp only
  rw [run_bind, hrun₃]
  simp

include hinj

theorem prepared_bit (regs₀ : U64 → BitVec 16) (r : GpioRegister) {i : ℕ} (hi : i < 16) :
    ((Gpio3Site.prepared old gpioBase iocBase regs₀).regs (r.address gpioBase iocBase)).getLsbD i =
      if r ≠ .drHigh ∧ (lineBit gpio3Pd1 r i ∨ lineBit gpio3Pd4 r i ∨ lineBit gpio3Pd5 r i) then
        false
      else (regs₀ (r.address gpioBase iocBase)).getLsbD i := by
  obtain ⟨e₁, e₂, e₃, _, _, _, hrun, h₁, h₂, h₃⟩ :=
    run_gpio3Prepare old gpioBase iocBase (Stream'.const 0)
  dsimp only [Gpio3Site.prepared]
  rw [hrun]
  dsimp only
  rw [after_append, after_append, h₃.getLsbD_after_eq hinj _ r hi, h₂.getLsbD_after_eq hinj _ r hi,
    h₁.getLsbD_after_eq hinj _ r hi]
  simp only [Gpio3Call.gives]
  by_cases hr : r = .drHigh
  · simp [hr]
  · generalize lineBit gpio3Pd1 r i = b₁
    generalize lineBit gpio3Pd4 r i = b₂
    generalize lineBit gpio3Pd5 r i = b₃
    cases b₁ <;> cases b₂ <;> cases b₃ <;> simp [hr]

theorem tracks_prepared (regs₀ : U64 → BitVec 16) :
    (Gpio3Site.prepared old gpioBase iocBase regs₀).Tracks gpioBase iocBase regs₀ []
      ⟨gpioBase, iocBase, true, 0⟩ := by
  have hbits := prepared_bit hinj old regs₀
  refine ⟨?_, rfl, rfl, rfl, ?_, ?_, ?_, ?_⟩
  · obtain ⟨_, _, _, _, _, _, hrun, _⟩ := run_gpio3Prepare old gpioBase iocBase (Stream'.const 0)
    dsimp only [Gpio3Site.prepared]
    rw [hrun]
  · intro line howned
    have hbit := hbits .ddrHigh (lineBit_lt howned)
    rw [if_pos] at hbit
    · exact hbit.trans BitVec.getLsbD_zero.symm
    · obtain rfl | rfl | rfl := lineIsOwned_cases howned <;> decide
  · intro line howned hout
    simp at hout
  · intro line r i howned hdr hddr hi hbit
    refine (hbits r hi).trans (if_pos ⟨hdr, ?_⟩)
    obtain rfl | rfl | rfl := lineIsOwned_cases howned
    · exact .inl hbit
    · exact .inr (.inl hbit)
    · exact .inr (.inr hbit)
  · intro r i hi hnone
    rw [hbits r hi, hnone gpio3Pd1 (by decide), hnone gpio3Pd4 (by decide),
      hnone gpio3Pd5 (by decide)]
    simp

end Prepared

/-- The shadow state tracks the hardware.  Besides, a line never starts to drive another level than
the requested one, and a rejected call does nothing. -/
theorem gpio_shadow_tracks (gpioBase iocBase : U64)
    (hinj : Function.Injective (GpioRegister.address gpioBase iocBase)) (old : Gpio3)
    (regs₀ : U64 → BitVec 16) (history : List Gpio3Done) (site : Gpio3Site)
    (hrun : Trace Gpio3Site.Step (.prepared old gpioBase iocBase regs₀) history site) :
    ∃ gpio, site.Tracks gpioBase iocBase regs₀ history gpio ∧
      ∀ done site', site.Step done site' →
        (∀ pre e post i, done.events = pre ++ e :: post → i < 16 →
          (after site.regs pre (gpioBase + gpioDdrHigh)).getLsbD i = false →
          (after site.regs (pre ++ [e]) (gpioBase + gpioDdrHigh)).getLsbD i = true →
          ∃ line value, done.call = .configureOutput line value ∧ line.toNat = i + 16 ∧
            (after site.regs pre (gpioBase + gpioDrHigh)).getLsbD i = decide (value ≠ 0)) ∧
        (done.result ≠ gpio3Ok → done.events = [] ∧ site' = site) := by
  have htracks : ∃ gpio, site.Tracks gpioBase iocBase regs₀ history gpio :=
    hrun.history_invariant (I := fun history site => ∃ gpio,
      site.Tracks gpioBase iocBase regs₀ history gpio) ⟨_, tracks_prepared hinj old regs₀⟩
      fun _ _ _ _ _ ⟨_, htracks⟩ hstep => htracks.step hinj hstep
  obtain ⟨gpio, htracks⟩ := htracks
  refine ⟨gpio, htracks, fun done site' hstep => ?_⟩
  obtain ⟨reads, hresult, hevents, rfl⟩ := hstep
  have hbase := htracks.gpioBase_eq
  have hioc := htracks.iocBase_eq
  rw [htracks.device] at hresult hevents ⊢
  obtain ⟨hrejected, hdevice, hnone⟩ | ⟨hok, mask, hdevice, haccepted⟩ :=
    done.call.exec_cases htracks.ops reads
  · refine ⟨fun pre e post i hsplit => ?_, fun _ => ⟨hevents.trans hnone, ?_⟩⟩
    · simp [hevents, hnone] at hsplit
    · rw [hdevice, hnone, ← htracks.device]
      rfl
  · refine ⟨fun pre e post i hsplit hi hlow hhigh => ?_, fun hne => absurd (hresult.trans hok) hne⟩
    subst hbase hioc
    exact haccepted.rises hinj (hevents.symm.trans hsplit) hi hlow hhigh

theorem address_injective_physical :
    Function.Injective (GpioRegister.address 0xfec40000 0xfd5f0000) := by
  intro r r' h
  cases r <;> cases r' <;> first | rfl | exact absurd h (by decide)

/-- Line 28 starts to drive 0 and then drives 1; setting line 29 and configuring line 27 are
rejected. -/
theorem gpio_shadow_tracks_line28 : ∃ history site,
    Trace Gpio3Site.Step (.prepared ⟨0, 0, false, 0⟩ 0xfec40000 0xfd5f0000 fun _ => 0xffff)
      history site ∧
    history.map (·.result) = [gpio3Ok, gpio3Ok, gpio3NotOutput, gpio3Invalid] ∧
    lastDriven 28 history = some true ∧
    ∃ gpio, site.Tracks 0xfec40000 0xfd5f0000 (fun _ => 0xffff) history gpio := by
  have hrun : ∃ history site,
      Trace Gpio3Site.Step (.prepared ⟨0, 0, false, 0⟩ 0xfec40000 0xfd5f0000 fun _ => 0xffff)
        history site ∧
      history.map (·.result) = [gpio3Ok, gpio3Ok, gpio3NotOutput, gpio3Invalid] ∧
      lastDriven 28 history = some true := by
    refine ⟨[⟨.configureOutput 28 0, _, _⟩, ⟨.set 28 1, _, _⟩, ⟨.set 29 1, _, _⟩,
      ⟨.configureInput 27, _, _⟩], _, .cons ⟨Stream'.const 0, rfl, rfl, rfl⟩
        (.cons ⟨Stream'.const 0, rfl, rfl, rfl⟩ (.cons ⟨Stream'.const 0, rfl, rfl, rfl⟩
          (.cons ⟨Stream'.const 0, rfl, rfl, rfl⟩ (.nil _)))), ?_, ?_⟩
    · decide
    · decide
  obtain ⟨history, site, htrace, hresults, hdriven⟩ := hrun
  obtain ⟨gpio, htracks, _⟩ := gpio_shadow_tracks 0xfec40000 0xfd5f0000 address_injective_physical
    ⟨0, 0, false, 0⟩ (fun _ => 0xffff) history site htrace
  exact ⟨history, site, htrace, hresults, hdriven, gpio, htracks⟩

end Lzamp.Cpu3
