import Mathlib.Algebra.Ring.Parity
import Lzamp.Lib.Rounding
import Lzamp.Cpu3.Drivers

namespace Lzamp.Cpu3
open Lib Lib.Bus

theorem toNat_pos {x : U32} (h : x ≠ 0) : 0 < x.toNat :=
  Nat.pos_of_ne_zero fun hzero => h (BitVec.eq_of_toNat_eq hzero)

section Success

variable {δ : Type} {Q : List (BusEvent U64 U32) → δ → Prop}

def OnSuccess (Q : List (BusEvent U64 U32) → δ → Prop) :
    List (BusEvent U64 U32) → Int × δ → Prop :=
  fun events result => result.1 = 0 → Q events result.2

/-- The call divides by no zero, and satisfies `Q` whenever it returns zero. -/
def InitSound (init : Option (Mmio (Int × δ))) (Q : List (BusEvent U64 U32) → δ → Prop) : Prop :=
  ∃ program, init = some program ∧ program.Ensures (OnSuccess Q)

theorem ensures_rejected (device : δ) :
    (pure (-1, device) : Mmio (Int × δ)).Ensures (OnSuccess Q) := by
  intro reads hzero
  have hfailed : (-1 : Int) ≠ 0 := by decide
  exact absurd hzero hfailed

theorem initSound_rejected (device : δ) : InitSound (some (pure (-1, device))) Q :=
  ⟨_, rfl, ensures_rejected device⟩

theorem initSound_divide_iff {a b : U32} {f : U32 → Mmio (Int × δ)} :
    InitSound ((divide a b).map f) Q ↔ b ≠ 0 ∧ (f (a / b)).Ensures (OnSuccess Q) := by
  unfold divide
  by_cases hb : b = 0
  · rw [if_pos hb]
    refine iff_of_false ?_ fun h => h.1 hb
    rintro ⟨program, hprogram, -⟩
    cases hprogram
  · rw [if_neg hb]
    constructor
    · rintro ⟨program, hprogram, h⟩
      cases hprogram
      exact ⟨hb, h⟩
    · rintro ⟨-, h⟩
      exact ⟨_, rfl, h⟩

theorem ensures_refused_iff {refused : Prop} [Decidable refused] (device : δ)
    (program : Mmio (Int × δ)) :
    (if refused then pure (-1, device) else program).Ensures (OnSuccess Q) ↔
      (¬ refused → program.Ensures (OnSuccess Q)) := by
  by_cases h : refused
  · rw [if_pos h]
    exact iff_of_true (ensures_rejected device) (absurd h)
  · rw [if_neg h, forall_prop_of_true h]

theorem ensures_iff_of_run {program : Mmio (Int × δ)} (events : List (BusEvent U64 U32))
    (device : δ) (h : ∀ reads, program.run reads = ⟨events, (0, device), reads⟩) :
    program.Ensures (OnSuccess Q) ↔ Q events device := by
  constructor
  · intro hensures
    have hQ := hensures (Stream'.const 0)
    rw [h] at hQ
    exact hQ rfl
  · intro hQ reads
    rw [h]
    exact fun _ => hQ

end Success

def uartProgrammed (base : U64) (divisor : U32) : List (BusEvent U64 U32) :=
  [.write 0 (base + uartIerDlm),
    .write (uartLcr8n1 ||| uartLcrDlab) (base + uartLcr),
    .write (divisor &&& 0xff) (base + uartRbrThrDll),
    .write (divisor >>> 8) (base + uartIerDlm),
    .write uartLcr8n1 (base + uartLcr),
    .write uartFcrEnableReset (base + uartIirFcr)]

theorem uartProgrammed_injective (base : U64) : Function.Injective (uartProgrammed base) := by
  intro d d' h
  simp only [uartProgrammed, List.cons.injEq, BusEvent.write.injEq] at h
  obtain ⟨-, -, ⟨hlow, -⟩, ⟨hhigh, -⟩, -⟩ := h
  have hmod (x : U32) : (x &&& 0xff).toNat = x.toNat % 2 ^ 8 := by
    rw [BitVec.toNat_and]
    exact Nat.and_two_pow_sub_one_eq_mod x.toNat 8
  have hdiv (x : U32) : (x >>> 8).toNat = x.toNat / 2 ^ 8 := by
    rw [BitVec.toNat_ushiftRight, Nat.shiftRight_eq_div_pow]
  have hlow' := congrArg BitVec.toNat hlow
  have hhigh' := congrArg BitVec.toNat hhigh
  rw [hmod, hmod] at hlow'
  rw [hdiv, hdiv] at hhigh'
  exact BitVec.eq_of_toNat_eq (by omega)

/-- The programmed divisor is the one nearest to the rate that was asked for. -/
def UartRight (inputHz baud : U32) : Prop :=
  ∀ (device : Option Uart) (base : U64) (ops : Bool),
    InitSound (uartInit device base ops inputHz baud) fun events _ => ∃ divisor : U32,
      events = uartProgrammed base divisor ∧
      (divisor.toNat : ℤ) = round ((inputHz.toNat : ℚ) / (16 * baud.toNat : ℕ)) ∧
      divisor.toNat < 2 ^ 16

/-- The quotient as it is computed, modulo `2 ^ 32` in both places. -/
def uartQuotient (inputHz baud : U32) : ℕ :=
  (inputHz.toNat + 8 * baud.toNat) % 2 ^ 32 / (16 * baud.toNat % 2 ^ 32)

/-- The rates that are handled right.  From `2 ^ 28` on the divisor wraps; the rate is then right
only if the quotient comes to zero or to more than 16 bits, so that it is refused, or if both it and
the nearest divisor are one. -/
def UartRate (inputHz baud : U32) : Prop :=
  inputHz = 0 ∨ baud.toNat < 2 ^ 28 ∨ baud.toNat % 2 ^ 28 ≠ 0 ∧
    ((inputHz.toNat + 8 * baud.toNat) % 2 ^ 32 < 16 * (baud.toNat % 2 ^ 28) ∨
      2 ^ 20 * (baud.toNat % 2 ^ 28) ≤ (inputHz.toNat + 8 * baud.toNat) % 2 ^ 32 ∨
      (inputHz.toNat + 8 * baud.toNat) % 2 ^ 32 < 32 * (baud.toNat % 2 ^ 28) ∧
        8 * baud.toNat ≤ inputHz.toNat)

section Uart

variable {inputHz baud : U32}

theorem toNat_uart_denominator (baud : U32) : (baud * 16).toNat = 16 * baud.toNat % 2 ^ 32 := by
  rw [BitVec.toNat_mul, mul_comm]
  rfl

theorem toNat_uart_division (inputHz baud : U32) :
    ((inputHz + baud * 8) / (baud * 16)).toNat = uartQuotient inputHz baud := by
  have hnumerator : (inputHz + baud * 8).toNat = (inputHz.toNat + 8 * baud.toNat) % 2 ^ 32 := by
    rw [BitVec.toNat_add, BitVec.toNat_mul]
    change (_ + baud.toNat * 8 % 2 ^ 32) % 2 ^ 32 = _
    omega
  rw [BitVec.toNat_udiv, hnumerator, toNat_uart_denominator, uartQuotient]

theorem uart_denominator_ne_zero_iff : baud * 16 ≠ 0 ↔ baud.toNat % 2 ^ 28 ≠ 0 := by
  rw [ne_eq, ← BitVec.toNat_inj, toNat_uart_denominator]
  change 16 * baud.toNat % 2 ^ 32 ≠ 0 ↔ _
  omega

theorem nearest_eq (inputHz baud : U32) (hbaud : 0 < baud.toNat) :
    round ((inputHz.toNat : ℚ) / (16 * baud.toNat : ℕ)) =
      ((inputHz.toNat + 8 * baud.toNat) / (16 * baud.toNat) : ℕ) := by
  have htwice : 16 * baud.toNat = 2 * (8 * baud.toNat) := by ring
  rw [htwice, round_div_two_mul _ (by omega)]

theorem uartQuotient_of_lt (inputHz : U32) (hbaud : baud.toNat < 2 ^ 28) :
    uartQuotient inputHz baud = 0 ∨
      uartQuotient inputHz baud = (inputHz.toNat + 8 * baud.toNat) / (16 * baud.toNat) := by
  have hdenominator : 16 * baud.toNat % 2 ^ 32 = 16 * baud.toNat := by omega
  have hinput := inputHz.isLt
  unfold uartQuotient
  rw [hdenominator]
  by_cases hwrap : inputHz.toNat + 8 * baud.toNat < 2 ^ 32
  · right
    rw [Nat.mod_eq_of_lt hwrap]
  · left
    exact Nat.div_eq_of_lt (by omega)

theorem nearest_of_le (hbaud : 2 ^ 28 ≤ baud.toNat) :
    (inputHz.toNat + 8 * baud.toNat) / (16 * baud.toNat) =
      if 8 * baud.toNat ≤ inputHz.toNat then 1 else 0 := by
  have hinput := inputHz.isLt
  split
  · exact Nat.div_eq_of_lt_le (by omega) (by omega)
  · exact Nat.div_eq_of_lt (by omega)

theorem uartQuotient_bounds (inputHz : U32) (h : baud.toNat % 2 ^ 28 ≠ 0) :
    (uartQuotient inputHz baud = 0 ↔
      (inputHz.toNat + 8 * baud.toNat) % 2 ^ 32 < 16 * (baud.toNat % 2 ^ 28)) ∧
    (65535 < uartQuotient inputHz baud ↔
      2 ^ 20 * (baud.toNat % 2 ^ 28) ≤ (inputHz.toNat + 8 * baud.toNat) % 2 ^ 32) ∧
    (uartQuotient inputHz baud ≤ 1 ↔
      (inputHz.toNat + 8 * baud.toNat) % 2 ^ 32 < 32 * (baud.toNat % 2 ^ 28)) := by
  have hdenominator : 16 * baud.toNat % 2 ^ 32 = 16 * (baud.toNat % 2 ^ 28) := by omega
  have hpos : 0 < 16 * (baud.toNat % 2 ^ 28) := by omega
  have hle (k : ℕ) : k ≤ uartQuotient inputHz baud ↔
      k * (16 * (baud.toNat % 2 ^ 28)) ≤ (inputHz.toNat + 8 * baud.toNat) % 2 ^ 32 := by
    unfold uartQuotient
    rw [hdenominator, Nat.le_div_iff_mul_le hpos]
  have hone := hle 1
  have htwo := hle 2
  have hlarge := hle 65536
  omega

theorem uartRate_iff (hinput : inputHz ≠ 0) (hbaud : 0 < baud.toNat) :
    UartRate inputHz baud ↔ baud.toNat % 2 ^ 28 ≠ 0 ∧
      (¬ (uartQuotient inputHz baud = 0 ∨ 65535 < uartQuotient inputHz baud) →
        uartQuotient inputHz baud =
          (inputHz.toNat + 8 * baud.toNat) / (16 * baud.toNat)) := by
  unfold UartRate
  rw [or_iff_right hinput]
  by_cases hsmall : baud.toNat < 2 ^ 28
  · have hquotient := uartQuotient_of_lt inputHz hsmall
    refine iff_of_true (.inl hsmall) ⟨by omega, fun haccepted => ?_⟩
    exact hquotient.resolve_left fun hzero => haccepted (.inl hzero)
  · -- from here on the divisor wraps too, and the nearest quotient is zero or one
    rw [or_iff_right hsmall, nearest_of_le (by omega), not_or]
    refine and_congr_right fun hmultiple => ?_
    obtain ⟨hzero, hlarge, hone⟩ := uartQuotient_bounds inputHz hmultiple
    rw [← hzero, ← hlarge, ← hone]
    split <;> omega

theorem uart_division_iff (device : Option Uart) (base : U64) (ops : Bool)
    (h : ¬ (device.isNone ∨ ops = false ∨ inputHz = 0 ∨ baud = 0)) :
    InitSound (uartInit device base ops inputHz baud) (fun events _ => ∃ divisor : U32,
      events = uartProgrammed base divisor ∧
      (divisor.toNat : ℤ) = round ((inputHz.toNat : ℚ) / (16 * baud.toNat : ℕ)) ∧
      divisor.toNat < 2 ^ 16) ↔ UartRate inputHz baud := by
  obtain ⟨-, -, hinput, hbaud⟩ : _ ∧ _ ∧ _ ∧ _ := by simpa only [not_or] using h
  have hpos := toNat_pos hbaud
  have hzero (d : U32) : d = 0 ↔ d.toNat = 0 := BitVec.toNat_inj.symm
  have hlarge (d : U32) : 0xffff#32 < d ↔ 65535 < d.toNat := BitVec.lt_def
  unfold uartInit
  rw [if_neg h, initSound_divide_iff, uart_denominator_ne_zero_iff, ensures_refused_iff,
    ensures_iff_of_run (uartProgrammed base _) (some ⟨base, ops⟩) (fun _ => rfl), hzero, hlarge,
    uartRate_iff hinput hpos]
  simp only [(uartProgrammed_injective base).eq_iff, exists_eq_left', toNat_uart_division,
    nearest_eq inputHz baud hpos, Nat.cast_inj]
  refine and_congr_right fun _ => forall_congr' fun haccepted => ?_
  exact and_iff_left (by omega)

theorem uartRight_iff (inputHz baud : U32) : UartRight inputHz baud ↔ UartRate inputHz baud := by
  constructor
  · intro h
    by_cases hzero : inputHz = 0 ∨ baud = 0
    · rcases hzero with hinput | hbaud
      · exact .inl hinput
      · rw [hbaud]
        exact .inr (.inl (by decide))
    · exact (uart_division_iff (some ⟨0, true⟩) 0 true (by simpa using hzero)).mp
        (h (some ⟨0, true⟩) 0 true)
  · intro h device base ops
    by_cases hargs : device.isNone ∨ ops = false ∨ inputHz = 0 ∨ baud = 0
    · unfold uartInit
      rw [if_pos hargs]
      exact initSound_rejected device
    · exact (uart_division_iff device base ops hargs).mpr h

end Uart

/-- The divider in both halves of CLKDIV is the smallest that keeps the bus within its rate. -/
def I2cRight (clockHz busHz : U32) : Prop :=
  ∀ (device : Option I2c) (base : U64) (ops : Bool),
    InitSound (i2cInit device base ops clockHz busHz) fun events _ =>
      ∃ (divider : ℕ) (clkdiv : U32),
      events = [.write 0 (base + i2cCon), .write 0 (base + i2cIen),
        .write intAll (base + i2cIpd), .write clkdiv (base + i2cClkdiv)] ∧
      clkdiv.toNat = 2 ^ 16 * divider + divider ∧
      (divider : ℤ) = ⌈(clockHz.toNat : ℚ) / (16 * busHz.toNat : ℕ)⌉ - 1 ∧ divider < 2 ^ 16 ∧
      (clockHz.toNat : ℚ) / (16 * (divider + 1)) ≤ busHz.toNat

section I2c

variable {clockHz busHz : U32}

theorem toNat_i2c_denominator (hbus : busHz.toNat ≤ 400000) :
    (16 * busHz).toNat = 16 * busHz.toNat := by
  rw [BitVec.toNat_mul]
  change 16 * busHz.toNat % 2 ^ 32 = _
  omega

theorem toNat_i2c_division (hclock : 0 < clockHz.toNat) (hbus : busHz.toNat ≤ 400000) :
    ((clockHz + 16 * busHz - 1) / (16 * busHz)).toNat = 0 ∨
      ((clockHz + 16 * busHz - 1) / (16 * busHz)).toNat =
        (clockHz.toNat + 16 * busHz.toNat - 1) / (16 * busHz.toNat) := by
  have hlt := clockHz.isLt
  have hnumerator : (clockHz + 16 * busHz - 1).toNat =
      (2 ^ 32 - 1 + (clockHz.toNat + 16 * busHz.toNat) % 2 ^ 32) % 2 ^ 32 := by
    rw [BitVec.toNat_sub, BitVec.toNat_add, toNat_i2c_denominator hbus]
    rfl
  rw [BitVec.toNat_udiv, hnumerator, toNat_i2c_denominator hbus]
  by_cases hwrap : clockHz.toNat + 16 * busHz.toNat ≤ 2 ^ 32
  · right
    congr 1
    omega
  · left
    exact Nat.div_eq_of_lt (by omega)

theorem toNat_both_halves {divider : U32} (h : divider.toNat < 2 ^ 16) :
    (divider <<< 16 ||| divider).toNat = 2 ^ 16 * divider.toNat + divider.toNat := by
  rw [BitVec.toNat_or, BitVec.toNat_shiftLeft, Nat.mod_eq_of_lt,
    ← Nat.shiftLeft_add_eq_or_of_lt h, Nat.shiftLeft_eq, mul_comm]
  rw [Nat.shiftLeft_eq]
  omega

theorem rate_le_of_ceil {divider : ℕ} (hbus : 0 < busHz.toNat)
    (h : (divider : ℤ) = ⌈(clockHz.toNat : ℚ) / (16 * busHz.toNat : ℕ)⌉ - 1) :
    (clockHz.toNat : ℚ) / (16 * (divider + 1)) ≤ busHz.toNat := by
  have hbus' : (0 : ℚ) < (16 * busHz.toNat : ℕ) := by exact_mod_cast (by omega)
  have hceil := Int.le_ceil ((clockHz.toNat : ℚ) / (16 * busHz.toNat : ℕ))
  have hsucc : ⌈(clockHz.toNat : ℚ) / (16 * busHz.toNat : ℕ)⌉ = ((divider + 1 : ℕ) : ℤ) := by
    rw [Nat.cast_succ]
    omega
  rw [hsucc, div_le_iff₀ hbus'] at hceil
  rw [div_le_iff₀ (by positivity)]
  push_cast at hceil
  linarith

theorem i2cRight (clockHz busHz : U32) : I2cRight clockHz busHz := by
  intro device base ops
  unfold i2cInit
  by_cases hargs : device.isNone ∨ ops = false ∨ clockHz = 0 ∨ busHz = 0 ∨ 400000#32 < busHz
  · rw [if_pos hargs]
    exact initSound_rejected device
  obtain ⟨-, -, hclock, hbus, hrate⟩ : _ ∧ _ ∧ _ ∧ _ ∧ _ := by simpa only [not_or] using hargs
  have hclock' := toNat_pos hclock
  have hbus' := toNat_pos hbus
  have hrate' : busHz.toNat ≤ 400000 := BitVec.not_lt.mp hrate
  have hdenominator := toNat_i2c_denominator hrate'
  have hdivision := toNat_i2c_division hclock' hrate'
  rw [if_neg hargs, initSound_divide_iff]
  refine ⟨fun hzero => ?_, ?_⟩
  · rw [hzero] at hdenominator
    change 0 = _ at hdenominator
    omega
  · generalize (clockHz + 16 * busHz - 1) / (16 * busHz) = quotient at hdivision
    rw [ensures_refused_iff]
    intro haccepted
    obtain ⟨hzero, hlarge⟩ : _ ∧ _ := by simpa only [not_or] using haccepted
    have hpos := toNat_pos hzero
    have hle : quotient.toNat ≤ 65536 := BitVec.not_lt.mp hlarge
    have hpred : (quotient - 1).toNat = quotient.toNat - 1 := BitVec.toNat_sub_of_le hpos
    have hceil := ceil_div_natCast clockHz.toNat (d := 16 * busHz.toNat) (by omega)
    rw [← hdivision.resolve_left (by omega)] at hceil
    have hdivider : ((quotient - 1).toNat : ℤ) =
        ⌈(clockHz.toNat : ℚ) / (16 * busHz.toNat : ℕ)⌉ - 1 := by
      rw [hceil, hpred]
      omega
    rw [ensures_iff_of_run [.write 0 (base + i2cCon), .write 0 (base + i2cIen),
      .write intAll (base + i2cIpd),
      .write ((quotient - 1) <<< 16 ||| (quotient - 1)) (base + i2cClkdiv)]
      (some ⟨base, ops⟩) (fun _ => rfl)]
    exact ⟨(quotient - 1).toNat, _, rfl, toNat_both_halves (by omega), hdivider, by omega,
      rate_le_of_ceil hbus' hdivider⟩

end I2c

def SpiRight (inputHz frequencyHz mode : U32) : Prop :=
  ∀ (device : Option Spi) (base : U64) (ops : Bool),
    InitSound (spiInit device base ops inputHz frequencyHz mode) fun _ device' => ∃ spi,
      device' = some spi ∧ Even spi.baudDiv.toNat ∧ 2 ≤ spi.baudDiv.toNat ∧
      spi.baudDiv.toNat ≤ 65534 ∧ (inputHz.toNat : ℚ) / spi.baudDiv.toNat ≤ frequencyHz.toNat

/-- The rates that are handled right.  When the numerator wraps the divider is two, which is right
only if two is enough; the largest quotient of all becomes zero when it is made even. -/
def SpiRate (inputHz frequencyHz mode : U32) : Prop :=
  3 < mode.toNat ∨
    inputHz.toNat + frequencyHz.toNat ≤ 2 ^ 32 ∧
      ¬ (frequencyHz.toNat = 1 ∧ inputHz.toNat = 2 ^ 32 - 1) ∨
    inputHz.toNat ≤ 2 * frequencyHz.toNat

section Spi

variable {inputHz frequencyHz mode : U32}

theorem toNat_spiDivider (quotient : U32) :
    (spiDivider quotient).toNat =
      (max quotient.toNat 2 + max quotient.toNat 2 % 2) % 2 ^ 32 := by
  have hodd (d : U32) : (d &&& 1).toNat = d.toNat % 2 := by
    rw [BitVec.toNat_and]
    exact Nat.and_one_is_mod d.toNat
  have heven (d : U32) : (if d &&& 1 ≠ 0 then d + 1 else d).toNat =
      (d.toNat + d.toNat % 2) % 2 ^ 32 := by
    have hd := d.isLt
    by_cases hbit : d &&& 1 = 0
    · have hmod : d.toNat % 2 = 0 := by rw [← hodd, hbit]; rfl
      rw [if_neg (not_not.mpr hbit), hmod, Nat.add_zero, Nat.mod_eq_of_lt hd]
    · have hmod : d.toNat % 2 = 1 := by
        have := toNat_pos hbit
        rw [hodd] at this
        omega
      rw [if_pos hbit, hmod, BitVec.toNat_add]
      rfl
  have hleast : (if quotient < 2#32 then 2 else quotient).toNat = max quotient.toNat 2 := by
    have hlt : quotient < 2#32 ↔ quotient.toNat < 2 := BitVec.lt_def
    by_cases hsmall : quotient < 2#32
    · rw [if_pos hsmall, Nat.max_eq_right (hlt.mp hsmall).le]
      rfl
    · rw [if_neg hsmall, Nat.max_eq_left (not_lt.mp (mt hlt.mpr hsmall))]
  rw [← hleast]
  exact heven _

theorem toNat_spi_division (hinput : 0 < inputHz.toNat) (hfrequency : 0 < frequencyHz.toNat) :
    ((inputHz + frequencyHz - 1) / frequencyHz).toNat =
      if inputHz.toNat + frequencyHz.toNat ≤ 2 ^ 32 then
        (inputHz.toNat + frequencyHz.toNat - 1) / frequencyHz.toNat
      else 0 := by
  have hlt := inputHz.isLt
  have hnumerator : (inputHz + frequencyHz - 1).toNat =
      (2 ^ 32 - 1 + (inputHz.toNat + frequencyHz.toNat) % 2 ^ 32) % 2 ^ 32 := by
    rw [BitVec.toNat_sub, BitVec.toNat_add]
    rfl
  rw [BitVec.toNat_udiv, hnumerator]
  split
  · congr 1
    omega
  · exact Nat.div_eq_of_lt (by omega)

theorem spi_quotient_lt (hfrequency : 0 < frequencyHz.toNat)
    (hwrap : inputHz.toNat + frequencyHz.toNat ≤ 2 ^ 32)
    (hlargest : ¬ (frequencyHz.toNat = 1 ∧ inputHz.toNat = 2 ^ 32 - 1)) :
    (inputHz.toNat + frequencyHz.toNat - 1) / frequencyHz.toNat < 2 ^ 32 - 1 := by
  rw [Nat.div_lt_iff_lt_mul hfrequency]
  by_cases hone : frequencyHz.toNat = 1
  · omega
  · calc inputHz.toNat + frequencyHz.toNat - 1 < (2 ^ 32 - 1) * 2 := by omega
      _ ≤ (2 ^ 32 - 1) * frequencyHz.toNat := Nat.mul_le_mul_left _ (by omega)

theorem spiRate_iff (hinput : 0 < inputHz.toNat) (hfrequency : 0 < frequencyHz.toNat)
    (hmode : ¬ 3 < mode.toNat) {divider : ℕ}
    (hdivider : divider =
      (spiDivider ((inputHz + frequencyHz - 1) / frequencyHz)).toNat) :
    SpiRate inputHz frequencyHz mode ↔
      (¬ 65534 < divider → Even divider ∧ 2 ≤ divider ∧ divider ≤ 65534 ∧
        inputHz.toNat ≤ frequencyHz.toNat * divider) := by
  rw [toNat_spiDivider, toNat_spi_division hinput hfrequency] at hdivider
  unfold SpiRate
  rw [or_iff_right hmode]
  by_cases hwrap : inputHz.toNat + frequencyHz.toNat ≤ 2 ^ 32
  · rw [if_pos hwrap] at hdivider
    by_cases hlargest : frequencyHz.toNat = 1 ∧ inputHz.toNat = 2 ^ 32 - 1
    · rw [hlargest.1, hlargest.2] at hdivider
      change divider = 0 at hdivider
      rw [hdivider]
      refine iff_of_false (by omega) fun h => ?_
      have := h (by omega)
      omega
    · have hquotient := spi_quotient_lt hfrequency hwrap hlargest
      have hcover := le_mul_ceil (n := inputHz.toNat) hfrequency
      generalize (inputHz.toNat + frequencyHz.toNat - 1) / frequencyHz.toNat = q at *
      have hle : q ≤ divider := by omega
      refine iff_of_true (.inl ⟨hwrap, hlargest⟩) fun haccepted => ⟨?_, by omega, by omega, ?_⟩
      · rw [Nat.even_iff]
        omega
      · exact hcover.trans (Nat.mul_le_mul_left _ hle)
  · rw [if_neg hwrap] at hdivider
    change divider = 2 at hdivider
    rw [hdivider]
    constructor
    · intro h _
      exact ⟨even_two, le_rfl, by omega, by omega⟩
    · intro h
      have := h (by omega)
      omega

theorem run_spiSetMode (spi : Spi) (hops : spi.ops = true) (hmode : ¬ 3#32 < mode) :
    ∃ ctrlr0, ∀ reads, (spiSetMode (some spi) mode).run reads =
      ⟨[.write 0 (spi.base + spiSsienr)], (0, some { spi with ctrlr0 := ctrlr0 }), reads⟩ := by
  unfold spiSetMode
  rw [Option.filter_some_pos hops]
  dsimp only
  rw [if_neg hmode]
  exact ⟨_, fun _ => rfl⟩

theorem spi_division_iff (device : Option Spi) (base : U64) (ops : Bool)
    (h : ¬ (device.isNone ∨ ops = false ∨ inputHz = 0 ∨ frequencyHz = 0 ∨ 3#32 < mode)) :
    InitSound (spiInit device base ops inputHz frequencyHz mode) (fun _ device' => ∃ spi,
      device' = some spi ∧ Even spi.baudDiv.toNat ∧ 2 ≤ spi.baudDiv.toNat ∧
      spi.baudDiv.toNat ≤ 65534 ∧
      (inputHz.toNat : ℚ) / spi.baudDiv.toNat ≤ frequencyHz.toNat) ↔
    SpiRate inputHz frequencyHz mode := by
  obtain ⟨-, hops, hinput, hfrequency, hmode⟩ : _ ∧ _ ∧ _ ∧ _ ∧ _ := by
    simpa only [not_or] using h
  have hlarge (d : U32) : 65534#32 < d ↔ 65534 < d.toNat := BitVec.lt_def
  have hmode' : ¬ 3 < mode.toNat := Nat.not_lt.mpr (BitVec.not_lt.mp hmode)
  rw [spiRate_iff (toNat_pos hinput) (toNat_pos hfrequency) hmode' rfl]
  unfold spiInit
  rw [if_neg h, initSound_divide_iff, and_iff_right hfrequency]
  generalize (inputHz + frequencyHz - 1) / frequencyHz = quotient
  dsimp only
  rw [ensures_refused_iff, hlarge]
  refine forall_congr' fun haccepted => ?_
  obtain ⟨ctrlr0, hrun⟩ := run_spiSetMode
    ⟨base, ops, spiCr0Dfs8bit ||| spiCr0Bht8bit, spiDivider quotient⟩
    (Bool.eq_true_of_not_eq_false hops) hmode
  rw [ensures_iff_of_run [.write 0 (base + spiSsienr), .write 0 (base + spiImr),
    .write 0 (base + spiDmacr), .write 1 (base + spiIcr), .write 0 (base + spiSsienr)]
    (some ⟨base, ops, ctrlr0, spiDivider quotient⟩)]
  · simp only [Option.some.injEq, exists_eq_left']
    refine and_congr_right fun _ => and_congr_right fun htwo => and_congr_right fun _ => ?_
    have hpos : (0 : ℚ) < (spiDivider quotient).toNat := by exact_mod_cast (by omega)
    rw [div_le_iff₀ hpos]
    exact_mod_cast Iff.rfl
  · intro reads
    simp only [run_bind, run_write32, hrun]
    rfl

theorem spiRight_iff (inputHz frequencyHz mode : U32) :
    SpiRight inputHz frequencyHz mode ↔ SpiRate inputHz frequencyHz mode := by
  constructor
  · intro h
    by_cases hargs : inputHz = 0 ∨ frequencyHz = 0 ∨ 3#32 < mode
    · rcases hargs with hinput | hfrequency | hmode
      · rw [hinput]
        exact .inr (.inr (Nat.zero_le _))
      · have hlt := inputHz.isLt
        rw [hfrequency]
        exact .inr (.inl ⟨hlt.le, by simp⟩)
      · exact .inl (BitVec.lt_def.mp hmode)
    · exact (spi_division_iff (some ⟨0, true, 0, 0⟩) 0 true (by simpa using hargs)).mp
        (h (some ⟨0, true, 0, 0⟩) 0 true)
  · intro h device base ops
    by_cases hargs : device.isNone ∨ ops = false ∨ inputHz = 0 ∨ frequencyHz = 0 ∨ 3#32 < mode
    · unfold spiInit
      rw [if_pos hargs]
      exact initSound_rejected device
    · exact (spi_division_iff device base ops hargs).mpr h

end Spi

/-- The I2C divider is always right; the UART and the SPI dividers are where 32-bit arithmetic does
not lead them astray. -/
theorem bus_dividers_right_iff (uartHz baud clockHz busHz spiHz frequencyHz mode : U32) :
    (UartRight uartHz baud ↔
      uartHz = 0 ∨ baud.toNat < 2 ^ 28 ∨ baud.toNat % 2 ^ 28 ≠ 0 ∧
        ((uartHz.toNat + 8 * baud.toNat) % 2 ^ 32 < 16 * (baud.toNat % 2 ^ 28) ∨
          2 ^ 20 * (baud.toNat % 2 ^ 28) ≤ (uartHz.toNat + 8 * baud.toNat) % 2 ^ 32 ∨
          (uartHz.toNat + 8 * baud.toNat) % 2 ^ 32 < 32 * (baud.toNat % 2 ^ 28) ∧
            8 * baud.toNat ≤ uartHz.toNat)) ∧
    I2cRight clockHz busHz ∧
    (SpiRight spiHz frequencyHz mode ↔
      3 < mode.toNat ∨
        spiHz.toNat + frequencyHz.toNat ≤ 2 ^ 32 ∧
          ¬ (frequencyHz.toNat = 1 ∧ spiHz.toNat = 2 ^ 32 - 1) ∨
        spiHz.toNat ≤ 2 * frequencyHz.toNat) :=
  ⟨uartRight_iff uartHz baud, i2cRight clockHz busHz, spiRight_iff spiHz frequencyHz mode⟩

/-- At `2 ^ 28` baud the UART divides by zero, and a little above `2 ^ 29` it takes a divisor of 16
where none fits; the SPI controller gets divider 2 for 2 Hz from the fastest clock, and 0 for 1
Hz. -/
theorem bus_dividers_wrap :
    (uartInit (some ⟨0, false⟩) 0 true 24000000 0x10000000 = none ∧
      ¬ UartRight 24000000 0x10000000) ∧
    ((∃ program, uartInit (some ⟨0, false⟩) 0 true 24000000 0x20016e36 = some program ∧
        ∀ reads, program.run reads = ⟨uartProgrammed 0 16, (0, some ⟨0, true⟩), reads⟩) ∧
      ¬ UartRight 24000000 0x20016e36) ∧
    ((∃ program, spiInit (some ⟨0, false, 0, 0⟩) 0 true 0xffffffff 2 0 = some program ∧ ∀ reads,
        (program.run reads).value.1 = 0 ∧
        (program.run reads).value.2.map (·.baudDiv) = some 2) ∧
      ¬ SpiRight 0xffffffff 2 0) ∧
    ((∃ program, spiInit (some ⟨0, false, 0, 0⟩) 0 true 0xffffffff 1 0 = some program ∧ ∀ reads,
        (program.run reads).value.1 = 0 ∧
        (program.run reads).value.2.map (·.baudDiv) = some 0) ∧
      ¬ SpiRight 0xffffffff 1 0) := by
  refine ⟨⟨rfl, ?_⟩, ⟨⟨_, rfl, fun _ => rfl⟩, ?_⟩, ⟨⟨_, rfl, fun _ => ⟨rfl, rfl⟩⟩, ?_⟩,
    ⟨⟨_, rfl, fun _ => ⟨rfl, rfl⟩⟩, ?_⟩⟩
  · rw [uartRight_iff, UartRate]
    decide
  · rw [uartRight_iff, UartRate]
    decide
  · rw [spiRight_iff, SpiRate]
    decide
  · rw [spiRight_iff, SpiRate]
    decide

end Lzamp.Cpu3
