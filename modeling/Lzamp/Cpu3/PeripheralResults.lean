import Lzamp.Cpu3.DriverSpecs

namespace Lzamp.Cpu3
open Mailmsg Lib Lib.Bus

/-- A driver's status, where -2 comes with a loop that gave up. -/
structure Honest (gaveUp : Prop) (status : Int) : Prop where
  low : -3 ≤ status
  high : status ≤ 0
  timeout : status = -2 → gaveUp

theorem Honest.mono {gaveUp gaveUp' : Prop} {status : Int} (h : Honest gaveUp status)
    (himp : gaveUp → gaveUp') : Honest gaveUp' status :=
  ⟨h.low, h.high, fun hs => himp (h.timeout hs)⟩

theorem honest_ok (gaveUp : Prop) : Honest gaveUp 0 :=
  ⟨by decide, by decide, fun h => absurd h (by decide)⟩

theorem honest_invalid (gaveUp : Prop) : Honest gaveUp (-1) :=
  ⟨by decide, by decide, fun h => absurd h (by decide)⟩

theorem honest_of_expired {gaveUp : Prop} (h : gaveUp) : Honest gaveUp (-2) :=
  ⟨by decide, by decide, fun _ => h⟩

theorem Waited.honest {gaveUp : Prop} {status : Int} (h : Waited gaveUp status) :
    Honest gaveUp status := by
  rcases h with ⟨rfl, -⟩ | ⟨rfl, hyes⟩
  · exact honest_ok gaveUp
  · exact honest_of_expired hyes

/-- A reply with an honest status, whose data fit a result. -/
structure HonestReply (gaveUp : Prop) (reply : PeriphReply) : Prop where
  honest : Honest gaveUp reply.status
  fits : reply.data.length ≤ 8

theorem HonestReply.ofStatus {gaveUp : Prop} {status : Int} (h : Honest gaveUp status) :
    HonestReply gaveUp (.ofStatus status) := ⟨h, Nat.zero_le _⟩

theorem HonestReply.ofData {gaveUp : Prop} {result : Int × List U8} (h : Honest gaveUp result.1)
    (hfits : result.2.length ≤ 8) : HonestReply gaveUp (.ofData result) := by
  refine ⟨h, ?_⟩
  unfold PeriphReply.ofData
  dsimp only
  split_ifs
  · exact Nat.zero_le _
  · exact hfits

theorem Calls.honest {D α : Type} {device : Option D} {accepts : D → Prop} {refusal : α}
    {ok : D → U32 → U64 → Prop} {done : D → Prop → α → Prop} {p : Mmio α} {f : α → Int}
    (h : Calls device accepts refusal ok done p) (hrefusal : f refusal = -1)
    (hdone : ∀ d gaveUp a, done d gaveUp a → Honest gaveUp (f a)) :
    p.Does (fun _ _ => True) fun gaveUp a => Honest gaveUp (f a) :=
  h.does (fun _ _ _ _ _ _ => trivial) (fun _ => hrefusal ▸ honest_invalid False)
    fun d _ _ => hdone d

/-- The polls that fit into a timeout. -/
def polls (timeoutUs : ℕ) : ℕ := (timeoutUs + 4) / 5

/-- The first `n` polls see neither a NAK nor the desired bit. -/
def Quiet (desired : U32) (reads : Stream' U32) (n : ℕ) : Prop :=
  ∀ i < n, reads.get i &&& intNak = 0 ∧ reads.get i &&& desired = 0

/-- The first poll that sees anything is poll `n`, and it sees a NAK. -/
structure NakAt (desired : U32) (reads : Stream' U32) (n : ℕ) : Prop where
  quiet : Quiet desired reads n
  nak : reads.get n &&& intNak ≠ 0

/-- The first poll that sees anything is poll `n`, and it sees the desired bit only. -/
structure SeenAt (desired : U32) (reads : Stream' U32) (n : ℕ) : Prop where
  quiet : Quiet desired reads n
  noNak : reads.get n &&& intNak = 0
  seen : reads.get n &&& desired ≠ 0

section Polls

variable {desired : U32} {reads : Stream' U32} {n k : ℕ}

theorem Quiet.succ (hnak : reads.head &&& intNak = 0) (hseen : reads.head &&& desired = 0)
    (h : Quiet desired reads.tail n) : Quiet desired reads (n + 1) := by
  intro i hi
  cases i with
  | zero => exact ⟨hnak, hseen⟩
  | succ i => exact h i (by omega)

theorem SeenAt.unique (h : SeenAt desired reads n) (h' : SeenAt desired reads k) : n = k := by
  rcases Nat.lt_trichotomy n k with hlt | heq | hlt
  · exact absurd (h'.quiet n hlt).2 h.seen
  · exact heq
  · exact absurd (h.quiet k hlt).2 h'.seen

theorem SeenAt.not_nakAt (h : SeenAt desired reads n) : ¬ NakAt desired reads k := by
  intro h'
  rcases Nat.lt_trichotomy n k with hlt | rfl | hlt
  · exact h.seen (h'.quiet n hlt).2
  · exact h'.nak h.noNak
  · exact h'.nak (h.quiet k hlt).1

theorem Quiet.not_seenAt (h : Quiet desired reads k) (hn : n < k) : ¬ SeenAt desired reads n :=
  fun h' => h'.seen (h n hn).2

theorem Quiet.not_nakAt (h : Quiet desired reads k) (hn : n < k) : ¬ NakAt desired reads n :=
  fun h' => h'.nak (h n hn).1

end Polls

/-- How a wait ends: with a NAK, with the desired bit, or by giving up. -/
inductive WaitEnd (desired : U32) (limit : ℕ) (reads : Stream' U32) :
    List (BusEvent U64 U32) → Int → Stream' U32 → Prop
  | nak {n : ℕ} {es : List (BusEvent U64 U32)} (hn : n < limit) (h : NakAt desired reads n)
      (hes : .expire ∉ es) : WaitEnd desired limit reads es (-3) (reads.drop (n + 1))
  | seen {n : ℕ} {es : List (BusEvent U64 U32)} (hn : n < limit) (h : SeenAt desired reads n)
      (hes : .expire ∉ es) : WaitEnd desired limit reads es 0 (reads.drop (n + 1))
  | expired {es : List (BusEvent U64 U32)} (h : Quiet desired reads limit) (hes : .expire ∈ es)
      (rest : Stream' U32) : WaitEnd desired limit reads es (-2) rest

theorem WaitEnd.succ {desired : U32} {limit : ℕ} {reads rest : Stream' U32} {ret : Int}
    {es : List (BusEvent U64 U32)} (hnak : reads.head &&& intNak = 0)
    (hseen : reads.head &&& desired = 0) {before : List (BusEvent U64 U32)}
    (hbefore : .expire ∉ before)
    (h : WaitEnd desired limit reads.tail es ret rest) :
    WaitEnd desired (limit + 1) reads (before ++ es) ret rest := by
  cases h with
  | @nak n es hn h hes =>
    exact .nak (n := n + 1) (by omega) ⟨h.quiet.succ hnak hseen, h.nak⟩ (by simp [hes, hbefore])
  | @seen n es hn h hes =>
    exact .seen (n := n + 1) (by omega) ⟨h.quiet.succ hnak hseen, h.noNak, h.seen⟩
      (by simp [hes, hbefore])
  | expired h hes => exact .expired (h.succ hnak hseen) (by simp [hes]) _

theorem waitIpd_run (i2c : I2c) (desired : U32) (timeoutUs : ℕ) (ipd : U32) (reads : Stream' U32) :
    WaitEnd desired (polls timeoutUs) reads
      ((waitIpd i2c desired timeoutUs ipd).run reads).events
      ((waitIpd i2c desired timeoutUs ipd).run reads).value.1
      ((waitIpd i2c desired timeoutUs ipd).run reads).rest := by
  induction timeoutUs using Nat.strong_induction_on generalizing ipd reads with
  | _ timeoutUs ih =>
    have hquiet : Quiet desired reads 0 := fun i hi => absurd hi (Nat.not_lt_zero i)
    rw [waitIpd]
    by_cases hzero : timeoutUs = 0
    · subst hzero
      rw [if_pos rfl, run_bind]
      exact .expired hquiet (by simp) _
    rw [if_neg hzero, run_bind]
    by_cases hnak : reads.head &&& intNak ≠ 0
    · rw [run_read32, if_pos hnak]
      exact .nak (n := 0) (by unfold polls; omega) ⟨hquiet, hnak⟩ (by simp [run_bind])
    by_cases hseen : reads.head &&& desired ≠ 0
    · rw [run_read32, if_neg hnak, if_pos hseen]
      exact .seen (n := 0) (by unfold polls; omega) ⟨hquiet, not_not.mp hnak, hseen⟩ (by simp)
    rw [run_read32, if_neg hnak, if_neg hseen, run_bind]
    -- One poll has gone by, and the wait starts again on the rest of the reads.
    have hpolls : polls timeoutUs = polls (if 5 < timeoutUs then timeoutUs - 5 else 0) + 1 := by
      unfold polls
      split_ifs <;> omega
    have hrest := ih (if 5 < timeoutUs then timeoutUs - 5 else 0) (by split_ifs <;> omega)
      reads.head reads.tail
    rw [hpolls]
    have hpoll : BusEvent.expire ∉ [.read (i2c.base + i2cIpd) reads.head, .delay 5] := by simp
    simpa using hrest.succ (not_not.mp hnak) (not_not.mp hseen) hpoll

/-- Stopping fails on a NAK as it does on a timeout. -/
theorem stopBus_run (i2c : I2c) (timeoutUs : ℕ) (reads : Stream' U32) :
    ((∃ n < polls timeoutUs, NakAt intStop reads.tail n) ∧
      ((stopBus i2c timeoutUs).run reads).value = -2 ∧
      .expire ∉ ((stopBus i2c timeoutUs).run reads).events) ∨
    ((¬ ∃ n < polls timeoutUs, NakAt intStop reads.tail n) ∧
      (((stopBus i2c timeoutUs).run reads).value = 0 ∨
        ((stopBus i2c timeoutUs).run reads).value = -2 ∧
        .expire ∈ ((stopBus i2c timeoutUs).run reads).events)) := by
  have hwait := waitIpd_run i2c intStop timeoutUs 0 reads.tail
  simp only [stopBus, run_bind, run_write32, run_read32]
  generalize (waitIpd i2c intStop timeoutUs 0).run reads.tail = r at hwait
  obtain ⟨es, ⟨ret, ipd⟩, rest⟩ := r
  dsimp only at hwait ⊢
  cases hwait with
  | nak hn h hes => exact .inl ⟨⟨_, hn, h⟩, by simp [run_bind], by simp [run_bind, hes]⟩
  | seen hn h hes =>
    refine .inr ⟨?_, .inl (by simp [run_bind])⟩
    rintro ⟨m, -, hnak⟩
    exact h.not_nakAt hnak
  | expired h hes =>
    refine .inr ⟨?_, .inr ⟨?_, ?_⟩⟩
    · rintro ⟨m, hm, hnak⟩
      exact h.not_nakAt hm hnak
    · simp [run_bind]
    · simp [run_bind, hes]

/-- A transfer gets its bytes through and then sees a NAK while the bus stops.  It reads `words`
words of data and the control register in between. -/
def NakWhileStopping (desired : U32) (words timeoutUs : ℕ) (reads : Stream' U32) : Prop :=
  ∃ n < polls timeoutUs, SeenAt desired reads n ∧
    ∃ k < polls timeoutUs, NakAt intStop (reads.drop (n + 2 + words)) k

/-- A transfer whose status is right unless there was such a NAK. -/
def TransferEnd (desired : U32) (words timeoutUs : ℕ) (reads : Stream' U32)
    (es : List (BusEvent U64 U32)) (status : Int) : Prop :=
  (NakWhileStopping desired words timeoutUs reads ∧ status = -2 ∧ .expire ∉ es) ∨
    (¬ NakWhileStopping desired words timeoutUs reads ∧ Honest (.expire ∈ es) status)

theorem endTransfer_run {desired : U32} {timeoutUs : ℕ} {reads rest after : Stream' U32} {ret : Int}
    {es all : List (BusEvent U64 U32)} (hwait : WaitEnd desired (polls timeoutUs) reads es ret rest)
    (i2c : I2c) (words : ℕ) (hafter : ret = 0 → after = rest.drop words)
    (hall : .expire ∈ all ↔
      .expire ∈ es ∨ .expire ∈ ((endTransfer i2c timeoutUs ret).run after).events) :
    TransferEnd desired words timeoutUs reads all
      ((endTransfer i2c timeoutUs ret).run after).value := by
  have hstop := stopBus_run i2c timeoutUs after
  simp only [endTransfer, run_bind, run_pure, List.append_nil] at hall ⊢
  cases hwait with
  | nak hn h hes =>
    refine .inr ⟨fun ⟨m, _, hseen, _⟩ => hseen.not_nakAt h, ?_⟩
    simpa using (⟨by decide, by decide, fun h => absurd h (by decide)⟩ : Honest (.expire ∈ all) (-3))
  | expired h hes =>
    refine .inr ⟨fun ⟨m, hm, hseen, _⟩ => h.not_seenAt hm hseen, ?_⟩
    simpa using honest_of_expired (hall.mpr (.inl hes))
  | @seen n es hn h hes =>
    have htail : after.tail = reads.drop (n + 2 + words) := by
      rw [hafter rfl, Stream'.tail_eq_drop, Stream'.drop_drop, Stream'.drop_drop]
      congr 1
      omega
    rw [htail] at hstop
    rcases hstop with ⟨⟨k, hk, hnak⟩, hvalue, hexpire⟩ | ⟨hno, hvalue⟩
    · refine .inl ⟨⟨n, hn, h, k, hk, hnak⟩, by simp [hvalue], ?_⟩
      rw [hall]
      exact fun h => h.elim hes hexpire
    · refine .inr ⟨fun ⟨m, _, hseen, k, hk, hnak⟩ => hno ⟨k, hk, ?_⟩, ?_⟩
      · rwa [h.unique hseen]
      · rcases hvalue with hvalue | ⟨hvalue, hexpire⟩
        · simpa [hvalue] using honest_ok (.expire ∈ all)
        · simpa [hvalue] using honest_of_expired (hall.mpr (.inr hexpire))

theorem fillTx_run (i2c : I2c) (address : U8) (data : List U8) (reads : Stream' U32) :
    .expire ∉ ((fillTx i2c address data).run reads).events ∧
      ((fillTx i2c address data).run reads).rest = reads := by
  unfold fillTx
  rw [run_forM_write32]
  exact ⟨by simp, rfl⟩

theorem i2cWrite_run {device : Option I2c} {i2c : I2c} (hdevice : device.filter (·.ops) = some i2c)
    {address : U8} {data : List U8}
    (hargs : ¬ (0x7f#8 < address ∨ data.length = 0 ∨ 31 < data.length)) (timeoutUs : ℕ)
    (reads : Stream' U32) :
    TransferEnd intMbtf 0 timeoutUs reads
      ((i2cWrite device address data timeoutUs).run reads).events
      ((i2cWrite device address data timeoutUs).run reads).value := by
  have hwait := waitIpd_run i2c intMbtf timeoutUs 0 reads
  obtain ⟨hexpire, hrest⟩ := fillTx_run i2c address data reads
  simp only [i2cWrite, hdevice, if_neg hargs, run_bind, run_write32, hrest]
  generalize (waitIpd i2c intMbtf timeoutUs 0).run reads = r at hwait
  obtain ⟨es, ⟨ret, ipd⟩, rest⟩ := r
  dsimp only at hwait ⊢
  split_ifs with hret
  · rw [run_bind, run_write32]
    exact endTransfer_run hwait i2c 0 (fun _ => rfl) (by simp [hexpire])
  · exact endTransfer_run hwait i2c 0 (fun h => absurd h hret) (by simp [hexpire])

theorem rxLoop_run (i2c : I2c) (word : U32) (index remaining : ℕ) (reads : Stream' U32) :
    .expire ∉ ((rxLoop i2c word index remaining).run reads).events ∧
      ((rxLoop i2c word index remaining).run reads).rest =
        reads.drop ((index + remaining + 3) / 4 - (index + 3) / 4) := by
  induction remaining generalizing word index reads with
  | zero => simp [rxLoop]
  | succ remaining ih =>
    rw [rxLoop]
    split_ifs with hword
    · obtain ⟨hexpire, hrest⟩ := ih reads.head (index + 1) reads.tail
      simp only [run_bind, run_read32, run_pure]
      refine ⟨by simpa using hexpire, ?_⟩
      rw [hrest, Stream'.tail_eq_drop, Stream'.drop_drop]
      congr 1
      omega
    · obtain ⟨hexpire, hrest⟩ := ih word (index + 1) reads
      simp only [run_bind, run_pure]
      refine ⟨by simpa using hexpire, ?_⟩
      rw [hrest]
      congr 1
      omega

theorem readCommon_run {device : Option I2c} {i2c : I2c}
    (hdevice : device.filter (·.ops) = some i2c) {address : U8} {prefixBytes : List U8} {length : ℕ}
    (hargs : ¬ (0x7f#8 < address ∨ length = 0 ∨ 32 < length ∨ 3 < prefixBytes.length))
    (timeoutUs : ℕ) (reads : Stream' U32) :
    TransferEnd intMbrf ((length + 3) / 4) timeoutUs reads
      ((readCommon device address prefixBytes length timeoutUs).run reads).events
      ((readCommon device address prefixBytes length timeoutUs).run reads).value.1 := by
  have hwait := waitIpd_run i2c intMbrf timeoutUs 0 reads
  simp only [readCommon, hdevice, if_neg hargs, run_bind, run_write32]
  generalize (waitIpd i2c intMbrf timeoutUs 0).run reads = r at hwait
  obtain ⟨es, ⟨ret, ipd⟩, rest⟩ := r
  dsimp only at hwait ⊢
  split_ifs with hret
  · obtain ⟨hexpire, hrest⟩ := rxLoop_run i2c 0 0 length rest
    simp only [run_bind, run_write32, run_pure]
    generalize (rxLoop i2c 0 0 length).run rest = rx at hexpire hrest ⊢
    refine endTransfer_run hwait i2c _ (fun _ => ?_) (by simp [hexpire])
    rw [hrest, Nat.zero_add]
    rfl
  · simp only [run_bind, run_pure]
    exact endTransfer_run hwait i2c _ (fun h => absurd h hret) (by simp)

end Lzamp.Cpu3
