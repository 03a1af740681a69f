import Lzamp.Lib.Rounding
import Lzamp.Cpu3.Drivers

namespace Lzamp.Cpu3
open Lib Lib.Bus

/-- The exact number of ticks, rounded to the nearest integer, halves up. -/
def ticksOf (clockHz ns : U32) : ℤ :=
  round ((clockHz.toNat * ns.toNat : ℕ) / (1000000000 : ℕ) : ℚ)

theorem pwmTicks_numerator (clockHz ns : U32) :
    (clockHz.setWidth 64 * ns.setWidth 64 + 500000000 : U64).toNat =
      clockHz.toNat * ns.toNat + 500000000 := by
  have hclock := clockHz.isLt
  have hns := ns.isLt
  have hproduct : clockHz.toNat * ns.toNat ≤ (2 ^ 32 - 1) * (2 ^ 32 - 1) :=
    Nat.mul_le_mul (by omega) (by omega)
  rw [BitVec.toNat_add, BitVec.toNat_mul, BitVec.toNat_setWidth_of_le (by decide),
    BitVec.toNat_setWidth_of_le (by decide)]
  change (_ % 2 ^ 64 + 500000000) % 2 ^ 64 = _
  omega

theorem toNat_pwmTicks (clockHz ns : U32) :
    (pwmTicks clockHz ns).toNat = (clockHz.toNat * ns.toNat + 500000000) / 1000000000 := by
  rw [pwmTicks, BitVec.toNat_udiv, pwmTicks_numerator]
  rfl

theorem ticksOf_eq (clockHz ns : U32) : ticksOf clockHz ns = (pwmTicks clockHz ns).toNat := by
  rw [toNat_pwmTicks, ticksOf, show 1000000000 = 2 * 500000000 from rfl,
    round_div_two_mul _ (by norm_num)]

theorem abs_ticks_sub_le (clockHz ns : U32) :
    |(clockHz.toNat * ns.toNat : ℕ) / (1000000000 : ℕ) - ((pwmTicks clockHz ns).toNat : ℚ)| ≤
      1 / 2 := by
  have h := abs_sub_round ((clockHz.toNat * ns.toNat : ℕ) / (1000000000 : ℕ) : ℚ)
  have hticks := ticksOf_eq clockHz ns
  unfold ticksOf at hticks
  rw [hticks] at h
  exact_mod_cast h

theorem toNat_pwmTicks_mono (clockHz : U32) {dutyNs periodNs : U32} (h : dutyNs ≤ periodNs) :
    (pwmTicks clockHz dutyNs).toNat ≤ (pwmTicks clockHz periodNs).toNat := by
  rw [toNat_pwmTicks, toNat_pwmTicks]
  gcongr
  exact h

/-- Whether the channel is programmed. -/
def PwmAccepts (clockHz periodNs dutyNs : U32) : Prop :=
  periodNs ≠ 0 ∧ dutyNs ≤ periodNs ∧ 1 ≤ ticksOf clockHz periodNs ∧
    ticksOf clockHz periodNs ≤ 2 ^ 32 - 1

/-- The two tests of the driver.  The last one never fires, since rounding is monotonic. -/
theorem pwmAccepts_iff (clockHz periodNs dutyNs : U32) :
    PwmAccepts clockHz periodNs dutyNs ↔ ¬ (periodNs = 0 ∨ periodNs < dutyNs) ∧
      ¬ (pwmTicks clockHz periodNs = 0 ∨ 0xffffffff#64 < pwmTicks clockHz periodNs ∨
        pwmTicks clockHz periodNs < pwmTicks clockHz dutyNs) := by
  have hzero : pwmTicks clockHz periodNs = 0 ↔ (pwmTicks clockHz periodNs).toNat = 0 :=
    BitVec.toNat_inj.symm
  have hlarge : 0xffffffff#64 < pwmTicks clockHz periodNs ↔
      2 ^ 32 - 1 < (pwmTicks clockHz periodNs).toNat := BitVec.lt_def
  rw [PwmAccepts, ticksOf_eq, not_or, not_or, not_or, hzero, hlarge]
  constructor
  · rintro ⟨hperiod, hduty, hlow, hhigh⟩
    have hmono := toNat_pwmTicks_mono clockHz hduty
    exact ⟨⟨hperiod, BitVec.not_lt.mpr hduty⟩, by omega, by omega, BitVec.not_lt.mpr hmono⟩
  · rintro ⟨⟨hperiod, hduty⟩, hlow, hhigh, -⟩
    exact ⟨hperiod, BitVec.not_lt.mp hduty, by omega, by omega⟩

def pwmFinalCtrl (ctrl : U32) (inverted : Bool) : U32 :=
  (ctrl ||| pwmLock) &&& ~~~(pwmDutyPositive ||| pwmInactivePositive ||| pwmLock) |||
    (pwmEnable ||| pwmContinuous) ||| if inverted then pwmInactivePositive else pwmDutyPositive

theorem pwmFinalCtrl_bits (ctrl : U32) (inverted : Bool) :
    (pwmFinalCtrl ctrl inverted).getLsbD 0 = true ∧ (pwmFinalCtrl ctrl inverted).getLsbD 1 = true ∧
      (pwmFinalCtrl ctrl inverted).getLsbD 6 = false ∧
      (pwmFinalCtrl ctrl inverted).getLsbD 3 = !inverted ∧
      (pwmFinalCtrl ctrl inverted).getLsbD 4 = inverted := by
  cases inverted <;>
    simp [pwmFinalCtrl, pwmLock, pwmDutyPositive, pwmInactivePositive, pwmEnable, pwmContinuous]

section Set

variable (base : U64) {clockHz periodNs dutyNs : U32} (inverted : Bool) (reads : Stream' U32)

theorem pwmSet_rejected (h : ¬ PwmAccepts clockHz periodNs dutyNs) :
    (pwmSet (some ⟨base, true, clockHz⟩) periodNs dutyNs inverted).run reads =
      ⟨[], -1, reads⟩ := by
  rw [pwmAccepts_iff] at h
  unfold pwmSet
  rw [Option.filter_some_pos rfl]
  dsimp only
  by_cases hargs : periodNs = 0 ∨ periodNs < dutyNs
  · rw [if_pos hargs]
    rfl
  · rw [if_neg hargs, if_pos (not_not.mp fun hticks => h ⟨hargs, hticks⟩)]
    rfl

theorem pwmSet_accepted (h : PwmAccepts clockHz periodNs dutyNs) :
    (pwmSet (some ⟨base, true, clockHz⟩) periodNs dutyNs inverted).run reads =
      ⟨[.read (base + pwmCtrl) reads.head,
        .write (reads.head ||| pwmLock) (base + pwmCtrl),
        .write ((pwmTicks clockHz periodNs).setWidth 32) (base + pwmPeriod),
        .write ((pwmTicks clockHz dutyNs).setWidth 32) (base + pwmDuty),
        .delay 1,
        .write (pwmFinalCtrl reads.head inverted) (base + pwmCtrl)], 0, reads.tail⟩ := by
  rw [pwmAccepts_iff] at h
  unfold pwmSet
  rw [Option.filter_some_pos rfl]
  dsimp only
  rw [if_neg h.1, if_neg h.2]
  rfl

end Set

/-- The numerator does not wrap; the call succeeds exactly if the period rounds to a positive 32-bit
count; then the registers hold the rounded counts, written under LOCK; otherwise nothing is
written. -/
theorem pwm_ticks_exact (base : U64) (clockHz periodNs dutyNs : U32) (inverted : Bool)
    (reads : Stream' U32) :
    let r := (pwmSet (some ⟨base, true, clockHz⟩) periodNs dutyNs inverted).run reads
    (∀ ns : U32, (clockHz.setWidth 64 * ns.setWidth 64 + 500000000 : U64).toNat =
      clockHz.toNat * ns.toNat + 500000000) ∧
    (r.value = 0 ↔ periodNs ≠ 0 ∧ dutyNs ≤ periodNs ∧ 1 ≤ ticksOf clockHz periodNs ∧
      ticksOf clockHz periodNs ≤ 2 ^ 32 - 1) ∧
    (r.value = 0 → ∃ ctrl locked period duty final : U32,
      r.events = [.read (base + pwmCtrl) ctrl, .write locked (base + pwmCtrl),
        .write period (base + pwmPeriod), .write duty (base + pwmDuty), .delay 1,
        .write final (base + pwmCtrl)] ∧
      (period.toNat : ℤ) = ticksOf clockHz periodNs ∧ (duty.toNat : ℤ) = ticksOf clockHz dutyNs ∧
      duty ≤ period ∧
      |(clockHz.toNat * periodNs.toNat : ℕ) / (1000000000 : ℕ) - (period.toNat : ℚ)| ≤ 1 / 2 ∧
      |(clockHz.toNat * dutyNs.toNat : ℕ) / (1000000000 : ℕ) - (duty.toNat : ℚ)| ≤ 1 / 2 ∧
      locked.getLsbD 6 = true ∧ final.getLsbD 0 = true ∧ final.getLsbD 1 = true ∧
      final.getLsbD 6 = false ∧ final.getLsbD 3 = !inverted ∧ final.getLsbD 4 = inverted) ∧
    (r.value ≠ 0 → ∀ word addr, .write word addr ∉ r.events) := by
  intro r
  refine ⟨pwmTicks_numerator clockHz, ?_⟩
  by_cases h : PwmAccepts clockHz periodNs dutyNs
  · have hrun : r = _ := pwmSet_accepted base inverted reads h
    obtain ⟨hperiod, hduty, hlow, hhigh⟩ := id h
    have hmono := toNat_pwmTicks_mono clockHz hduty
    rw [ticksOf_eq] at hlow hhigh
    -- neither count loses bits on its way to a 32-bit register
    have hwidth (t : U64) (ht : t.toNat ≤ (pwmTicks clockHz periodNs).toNat) :
        (t.setWidth 32).toNat = t.toNat := by
      rw [BitVec.toNat_setWidth]
      omega
    rw [hrun]
    refine ⟨iff_of_true rfl h, fun _ => ⟨_, _, _, _, _, rfl, ?_, ?_, ?_, ?_, ?_, ?_, ?_⟩,
      fun hne => absurd rfl hne⟩
    · rw [hwidth _ le_rfl, ticksOf_eq]
    · rw [hwidth _ hmono, ticksOf_eq]
    · rw [BitVec.le_def, hwidth _ le_rfl, hwidth _ hmono]
      exact hmono
    · rw [hwidth _ le_rfl]
      exact abs_ticks_sub_le clockHz periodNs
    · rw [hwidth _ hmono]
      exact abs_ticks_sub_le clockHz dutyNs
    · simp [pwmLock]
    · exact pwmFinalCtrl_bits reads.head inverted
  · -- refused before the first access
    have hrun : r = _ := pwmSet_rejected base inverted reads h
    have hfailed : (-1 : Int) ≠ 0 := by decide
    rw [hrun]
    exact ⟨iff_of_false hfailed h, fun hzero => absurd hzero hfailed,
      fun _ word addr => List.not_mem_nil⟩

end Lzamp.Cpu3
