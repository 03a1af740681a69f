import Lzamp.Cpu3.PeripheralResults

namespace Lzamp.Cpu3
open Lib Lib.Bus

/-- What may follow the stop condition: polls and acknowledgements of I2C_IPD, and zeroes written to
I2C_IEN and I2C_CON. -/
def AfterStop (i2c : I2c) : BusEvent U64 U32 → Prop
  | .read addr _ => addr = i2c.base + i2cIpd
  | .write v addr => addr = i2c.base + i2cIpd ∨
      v = 0 ∧ (addr = i2c.base + i2cIen ∨ addr = i2c.base + i2cCon)
  | .delay _ | .expire => True

/-- The controller is left off. -/
structure LeftOff (i2c : I2c) (es : List (BusEvent U64 U32)) : Prop where
  ien : lastWrite (i2c.base + i2cIen) es = some 0
  con : lastWrite (i2c.base + i2cCon) es = some 0

/-- The end of a transaction: a stop condition, and the controller left off. -/
structure Closing (i2c : I2c) (es : List (BusEvent U64 U32)) : Prop where
  stop : ∃ before con after, es = before ++ .write con (i2c.base + i2cCon) :: after ∧
    con &&& conStop ≠ 0 ∧ con &&& conStart = 0 ∧ ∀ e ∈ after, AfterStop i2c e
  off : LeftOff i2c es

/-- A transaction: a START, and after it the stop condition, with the controller left off. -/
def I2cReleased (i2c : I2c) (es : List (BusEvent U64 U32)) : Prop :=
  ∃ before start rest, es = before ++ .write start (i2c.base + i2cCon) :: rest ∧
    start &&& conStart ≠ 0 ∧ Closing i2c rest

theorem LeftOff.append {i2c : I2c} {es' : List (BusEvent U64 U32)} (h : LeftOff i2c es')
    (es : List (BusEvent U64 U32)) : LeftOff i2c (es ++ es') :=
  ⟨lastWrite_append _ h.ien es, lastWrite_append _ h.con es⟩

theorem Closing.append {i2c : I2c} {es' : List (BusEvent U64 U32)} (h : Closing i2c es')
    (es : List (BusEvent U64 U32)) : Closing i2c (es ++ es') := by
  obtain ⟨before, con, after, heq, hstop, hstart, hafter⟩ := h.stop
  refine ⟨⟨es ++ before, con, after, ?_, hstop, hstart, hafter⟩, h.off.append es⟩
  rw [heq, List.append_assoc]

theorem I2cReleased.append {i2c : I2c} {es' : List (BusEvent U64 U32)} (h : I2cReleased i2c es')
    (es : List (BusEvent U64 U32)) : I2cReleased i2c (es ++ es') := by
  obtain ⟨before, start, rest, rfl, hbit, hclosing⟩ := h
  exact ⟨es ++ before, start, rest, (List.append_assoc _ _ _).symm, hbit, hclosing⟩

theorem released_of_start {α : Type} {i2c : I2c} {start : U32} (hbit : start &&& conStart ≠ 0)
    {f : Unit → Mmio α} (h : (f ()).Ensures fun es _ => Closing i2c es) :
    (write32 start (i2c.base + i2cCon) >>= f).Ensures fun es _ => I2cReleased i2c es := by
  intro reads
  rw [run_bind]
  exact ⟨[], start, _, rfl, hbit, h reads⟩

theorem waitIpd_afterStop (i2c : I2c) (desired : U32) (timeoutUs : ℕ) (ipd : U32) :
    (waitIpd i2c desired timeoutUs ipd).EventsAll (AfterStop i2c) := by
  induction timeoutUs using Nat.strong_induction_on generalizing ipd with
  | _ timeoutUs ih =>
    rw [waitIpd]
    split_ifs with hzero
    · exact .bind (eventsAll_giveUp trivial) fun _ => eventsAll_pure _
    all_goals
      refine .bind (eventsAll_read32 fun _ => rfl) fun ipd => ?_
      split_ifs
      · exact .bind (eventsAll_write32 (.inl rfl)) fun _ => eventsAll_pure _
      · exact eventsAll_pure _
      · exact .bind (eventsAll_delayUs trivial) fun _ => ih _ (by omega) ipd

theorem stop_word (con : U32) :
    ((con ||| conStop) &&& ~~~conStart) &&& conStop ≠ 0 ∧
      ((con ||| conStop) &&& ~~~conStart) &&& conStart = 0 := by
  constructor
  · intro h
    have hbit := congrArg (fun x : U32 => x.getLsbD 4) h
    simp [conStop, conStart] at hbit
  · rw [BitVec.and_assoc, BitVec.and_comm (~~~conStart)]
    simp

theorem closing_of_stop {α : Type} {i2c : I2c} (con : U32) {f : Unit → Mmio α}
    (hafter : (f ()).EventsAll (AfterStop i2c)) (hoff : (f ()).Ensures fun es _ => LeftOff i2c es) :
    (write32 ((con ||| conStop) &&& ~~~conStart) (i2c.base + i2cCon) >>= f).Ensures fun es _ =>
      Closing i2c es := by
  intro reads
  rw [run_bind]
  obtain ⟨hstop, hstart⟩ := stop_word con
  exact ⟨⟨[], _, _, rfl, hstop, hstart, hafter reads⟩, (hoff reads).append _⟩

section SwitchOff

variable (i2c : I2c) (ret : Int)

def switchOff : Mmio Int := do
  write32 0 (i2c.base + i2cIen)
  write32 0 (i2c.base + i2cCon)
  pure ret

theorem switchOff_afterStop : (switchOff i2c ret).EventsAll (AfterStop i2c) :=
  .bind (eventsAll_write32 (.inr ⟨rfl, .inl rfl⟩)) fun _ =>
    .bind (eventsAll_write32 (.inr ⟨rfl, .inr rfl⟩)) fun _ => eventsAll_pure _

theorem switchOff_off : (switchOff i2c ret).Ensures fun es _ => LeftOff i2c es := by
  have hne : i2c.base + i2cCon ≠ i2c.base + i2cIen := base_add_ne _ (by decide)
  intro reads
  constructor
  · exact (lastWrite_concat _ _ _ [_]).trans ((if_neg hne).trans
      ((lastWrite_concat _ _ _ []).trans (if_pos rfl)))
  · exact (lastWrite_concat _ _ _ [_]).trans (if_pos rfl)

end SwitchOff

theorem stopBus_closing (i2c : I2c) (timeoutUs : ℕ) :
    (stopBus i2c timeoutUs).Ensures fun es _ => Closing i2c es := by
  have hclosing : ∀ es es' (ret : Int), Closing i2c es' → Closing i2c (es ++ es') :=
    fun es es' _ h => h.append es
  have hoff : ∀ es es' (ret : Int), LeftOff i2c es' → LeftOff i2c (es ++ es') :=
    fun es es' _ h => h.append es
  unfold stopBus
  refine .after hclosing fun _ => .after hclosing fun con => closing_of_stop con ?_ ?_
  · refine .bind (waitIpd_afterStop i2c intStop timeoutUs 0) fun r => ?_
    dsimp only
    split_ifs
    · exact switchOff_afterStop i2c (-2)
    · exact .bind (eventsAll_write32 (.inl rfl)) fun _ => switchOff_afterStop i2c 0
  · refine .after hoff fun r => ?_
    dsimp only
    split_ifs
    · exact switchOff_off i2c (-2)
    · exact .after hoff fun _ => switchOff_off i2c 0

theorem endTransfer_closing (i2c : I2c) (timeoutUs : ℕ) (ret : Int) :
    (endTransfer i2c timeoutUs ret).Ensures fun es _ => Closing i2c es :=
  (stopBus_closing i2c timeoutUs).bind_pure _

theorem i2cWrite_released {i2c : I2c} (hops : i2c.ops = true) {address : U8} {data : List U8}
    (hargs : ¬ (0x7f#8 < address ∨ data.length = 0 ∨ 31 < data.length)) (timeoutUs : ℕ) :
    (i2cWrite (some i2c) address data timeoutUs).Ensures fun es _ => I2cReleased i2c es := by
  have hreleased : ∀ es es' (ret : Int), I2cReleased i2c es' → I2cReleased i2c (es ++ es') :=
    fun es es' _ h => h.append es
  have hclosing : ∀ es es' (ret : Int), Closing i2c es' → Closing i2c (es ++ es') :=
    fun es es' _ h => h.append es
  have hdevice : (some i2c).filter (·.ops) = some i2c := by simp [hops]
  simp only [i2cWrite, hdevice, if_neg hargs]
  iterate 3 refine .after hreleased fun _ => ?_
  refine released_of_start (by decide) (.after hclosing fun _ => .after hclosing fun r => ?_)
  split_ifs
  · exact .after hclosing fun _ => endTransfer_closing i2c timeoutUs r.1
  · exact endTransfer_closing i2c timeoutUs r.1

theorem readCommon_released {i2c : I2c} (hops : i2c.ops = true) {address : U8}
    {prefixBytes : List U8} {length : ℕ}
    (hargs : ¬ (0x7f#8 < address ∨ length = 0 ∨ 32 < length ∨ 3 < prefixBytes.length))
    (timeoutUs : ℕ) :
    (readCommon (some i2c) address prefixBytes length timeoutUs).Ensures fun es _ =>
      I2cReleased i2c es := by
  have hreleased : ∀ es es' (r : Int × List U8), I2cReleased i2c es' → I2cReleased i2c (es ++ es') :=
    fun es es' _ h => h.append es
  have hclosing : ∀ es es' (r : Int × List U8), Closing i2c es' → Closing i2c (es ++ es') :=
    fun es es' _ h => h.append es
  have hend : ∀ (ret : Int) (data : List U8), (endTransfer i2c timeoutUs ret >>= fun ret =>
      pure (ret, data)).Ensures fun es (_ : Int × List U8) => Closing i2c es :=
    fun ret data => (endTransfer_closing i2c timeoutUs ret).bind_pure _
  have hdevice : (some i2c).filter (·.ops) = some i2c := by simp [hops]
  simp only [readCommon, hdevice, if_neg hargs]
  iterate 4 refine .after hreleased fun _ => ?_
  refine released_of_start (by decide) (.after hclosing fun _ => .after hclosing fun r => ?_)
  split_ifs
  · exact .after hclosing fun data => .after hclosing fun _ => hend r.1 data
  · exact hend r.1 []

/-- The accesses to the two data registers, in order. -/
def dataAccesses (spi : Spi) (es : List (BusEvent U64 U32)) : List (BusEvent U64 U32) :=
  es.filter fun
    | .read addr _ | .write _ addr => addr = spi.base + spiTxdr ∨ addr = spi.base + spiRxdr
    | _ => false

/-- Each byte written to TXDR and followed by one read of RXDR. -/
def exchanges (spi : Spi) (tx : List U8) (words : List U32) : List (BusEvent U64 U32) :=
  (tx.zip words).flatMap fun x =>
    [.write (x.1.setWidth 32) (spi.base + spiTxdr), .read (spi.base + spiRxdr) x.2]

theorem dataAccesses_append (spi : Spi) (es es' : List (BusEvent U64 U32)) :
    dataAccesses spi (es ++ es') = dataAccesses spi es ++ dataAccesses spi es' :=
  List.filter_append ..

theorem waitStatus_accesses (spi : Spi) (mask : U32) (wantSet : Bool) (timeoutUs : ℕ) :
    (waitStatus spi mask wantSet timeoutUs).Ensures fun es _ => dataAccesses spi es = [] := by
  have hquiet : (waitStatus spi mask wantSet timeoutUs).EventsAll fun
      | .read addr _ => addr = spi.base + spiSr
      | .write _ _ => False
      | _ => True := by
    induction timeoutUs with
    | zero => exact .bind (eventsAll_giveUp trivial) fun _ => eventsAll_pure _
    | succ timeoutUs ih =>
      refine .bind (eventsAll_read32 fun _ => rfl) fun sr => ?_
      split_ifs
      · exact eventsAll_pure _
      · exact .bind (eventsAll_delayUs trivial) fun _ => ih
  have htx : spi.base + spiSr ≠ spi.base + spiTxdr := base_add_ne _ (by decide)
  have hrx : spi.base + spiSr ≠ spi.base + spiRxdr := base_add_ne _ (by decide)
  intro reads
  refine List.filter_eq_nil_iff.mpr fun e he => ?_
  have hok := hquiet reads e he
  cases e with
  | read addr v =>
    rw [show addr = spi.base + spiSr from hok]
    simp [htx, hrx]
  | write v addr => exact hok.elim
  | delay => simp
  | expire => simp

/-- The loop over the bytes: all of them were exchanged, unless it gave up. -/
theorem spiLoop_accesses (spi : Spi) (timeoutUs : ℕ) (tx : List U8) :
    (spiLoop spi timeoutUs tx).Ensures fun es rx => rx.isSome → ∃ words : List U32,
      words.length = tx.length ∧ dataAccesses spi es = exchanges spi tx words := by
  induction tx with
  | nil =>
    exact fun _ _ => ⟨[], rfl, rfl⟩
  | cons byte tx ih =>
    intro reads
    have hfull := waitStatus_accesses spi spiSrTfFull false timeoutUs reads
    rw [spiLoop, run_bind]
    generalize (waitStatus spi spiSrTfFull false timeoutUs).run reads = first at hfull
    obtain ⟨es, ret, rest⟩ := first
    dsimp only at hfull ⊢
    split_ifs
    · intro hsome
      cases hsome
    · have hempty := waitStatus_accesses spi spiSrRfEmpty false timeoutUs rest
      rw [run_bind, run_write32, run_bind]
      dsimp only
      generalize (waitStatus spi spiSrRfEmpty false timeoutUs).run rest = second at hempty
      obtain ⟨es', ret', rest'⟩ := second
      dsimp only at hempty ⊢
      split_ifs
      · intro hsome
        cases hsome
      · have hrest := ih rest'.tail
        rw [run_bind, run_read32, run_bind]
        dsimp only
        generalize (spiLoop spi timeoutUs tx).run rest'.tail = third at hrest
        obtain ⟨es'', rx, after⟩ := third
        intro hsome
        obtain ⟨words, hlength, haccesses⟩ := hrest (by simpa using hsome)
        refine ⟨rest'.head :: words, by simp [hlength], ?_⟩
        have hwrite : ∀ es, dataAccesses spi (.write (byte.setWidth 32) (spi.base + spiTxdr) :: es) =
            .write (byte.setWidth 32) (spi.base + spiTxdr) :: dataAccesses spi es :=
          fun es => List.filter_cons_of_pos (by simp)
        have hread : ∀ es, dataAccesses spi (.read (spi.base + spiRxdr) rest'.head :: es) =
            .read (spi.base + spiRxdr) rest'.head :: dataAccesses spi es :=
          fun es => List.filter_cons_of_pos (by simp)
        simp only [run_pure, List.append_nil, dataAccesses_append, hfull, hempty, List.nil_append,
          List.cons_append, hwrite, hread]
        exact congrArg (fun l => _ :: _ :: l) haccesses

def Exchanged (spi : Spi) (tx : List U8) (es : List (BusEvent U64 U32))
    (result : Int × List U8) : Prop :=
  result.1 = 0 → ∃ words : List U32, words.length = tx.length ∧
    dataAccesses spi es = exchanges spi tx words

/-- The controller is off and no chip is selected. -/
structure Deselected (spi : Spi) (es : List (BusEvent U64 U32)) : Prop where
  ssienr : lastWrite (spi.base + spiSsienr) es = some 0
  ser : lastWrite (spi.base + spiSer) es = some 0

theorem Deselected.append {spi : Spi} {es' : List (BusEvent U64 U32)} (h : Deselected spi es')
    (es : List (BusEvent U64 U32)) : Deselected spi (es ++ es') :=
  ⟨lastWrite_append _ h.ssienr es, lastWrite_append _ h.ser es⟩

theorem spiExchange_exchanged (spi : Spi) (tx : List U8) (timeoutUs : ℕ) :
    (spiExchange spi tx timeoutUs).Ensures (Exchanged spi tx) := by
  refine .bind (spiLoop_accesses spi timeoutUs tx) fun es rx hrx => ?_
  cases rx with
  | none =>
    intro reads hret
    cases hret
  | some data =>
    obtain ⟨words, hlength, haccesses⟩ := hrx rfl
    refine .bind (waitStatus_accesses spi _ _ timeoutUs) fun es' ret hbusy reads => ?_
    rw [run_pure]
    split_ifs with hret
    · intro h
      cases h
    · refine fun _ => ⟨words, hlength, ?_⟩
      rw [dataAccesses_append, dataAccesses_append, hbusy, haccesses]
      exact List.append_nil _

theorem exchanged_of_write {spi : Spi} {tx : List U8} {offset : U64}
    (h : offset ≠ spiTxdr ∧ offset ≠ spiRxdr) (v : U32) {f : Unit → Mmio (Int × List U8)}
    (hf : (f ()).Ensures (Exchanged spi tx)) :
    (write32 v (spi.base + offset) >>= f).Ensures (Exchanged spi tx) := by
  intro reads
  rw [run_bind]
  have hskip : dataAccesses spi [.write v (spi.base + offset)] = [] :=
    List.filter_eq_nil_iff.mpr fun e he => by
      rw [List.mem_singleton.mp he]
      simp [base_add_ne spi.base h.1, base_add_ne spi.base h.2]
  intro hret
  obtain ⟨words, hlength, haccesses⟩ := hf reads hret
  refine ⟨words, hlength, ?_⟩
  rw [dataAccesses_append, run_write32, hskip, List.nil_append]
  exact haccesses

section Deselect

variable (spi : Spi) (result : Int × List U8)

def deselect : Mmio (Int × List U8) := do
  write32 0 (spi.base + spiSsienr)
  write32 0 (spi.base + spiSer)
  pure result

theorem deselect_deselected : (deselect spi result).Ensures fun es _ => Deselected spi es := by
  have hne : spi.base + spiSer ≠ spi.base + spiSsienr := base_add_ne _ (by decide)
  intro reads
  constructor
  · exact (lastWrite_concat _ _ _ [_]).trans ((if_neg hne).trans
      ((lastWrite_concat _ _ _ []).trans (if_pos rfl)))
  · exact (lastWrite_concat _ _ _ [_]).trans (if_pos rfl)

theorem deselect_accesses :
    (deselect spi result).Ensures fun es r => dataAccesses spi es = [] ∧ r = result := by
  have hne : ∀ x ∈ [spiSsienr, spiSer], x ≠ spiTxdr ∧ x ≠ spiRxdr := by
    simp [spiSsienr, spiSer, spiTxdr, spiRxdr]
  intro reads
  refine ⟨List.filter_eq_nil_iff.mpr fun e he => ?_, rfl⟩
  have hoffset : ∃ x ∈ [spiSsienr, spiSer], e = .write 0 (spi.base + x) := by
    rcases List.mem_cons.mp he with rfl | he
    · exact ⟨_, List.mem_cons_self, rfl⟩
    · exact ⟨spiSer, by simp, List.mem_singleton.mp he⟩
  obtain ⟨x, hx, rfl⟩ := hoffset
  simp [base_add_ne spi.base (hne x hx).1, base_add_ne spi.base (hne x hx).2]

end Deselect

theorem spiTransfer_released {spi : Spi} (hops : spi.ops = true) {chipSelect : U32} {tx : List U8}
    (hargs : ¬ (1#32 < chipSelect ∨ tx.length = 0 ∨ 65535 < tx.length)) (timeoutUs : ℕ) :
    (spiTransfer (some spi) chipSelect tx timeoutUs).Ensures fun es result =>
      Deselected spi es ∧ Exchanged spi tx es result := by
  have hdeselected : ∀ es es' (r : Int × List U8), Deselected spi es' → Deselected spi (es ++ es') :=
    fun es es' _ h => h.append es
  have hdevice : (some spi).filter (·.ops) = some spi := by simp [hops]
  simp only [spiTransfer, hdevice, if_neg hargs]
  refine .and ?_ ?_
  · iterate 9 refine .after hdeselected fun _ => ?_
    exact deselect_deselected spi _
  · iterate 8 refine exchanged_of_write (by decide) _ ?_
    refine .bind (spiExchange_exchanged spi tx timeoutUs) fun es result hexchanged => ?_
    refine (deselect_accesses spi result).mono fun es' r haccess hret => ?_
    obtain ⟨hnone, rfl⟩ := haccess
    obtain ⟨words, hlength, haccesses⟩ := hexchanged hret
    refine ⟨words, hlength, ?_⟩
    rw [dataAccesses_append, hnone, haccesses]
    exact List.append_nil _

/-- The bytes that a transfer sends: those of the buffer, or zeroes when there is none. -/
def spiSent (tx : Option (ℕ → U8)) (length : ℕ) : List U8 :=
  (List.range length).map fun index => tx.elim 0 (· index)

/-- `lzamp_rk3588_spi_transfer` with the buffers as pointers, each of which may be NULL. -/
def spiTransferBuffers (device : Option Spi) (chipSelect : U32) (tx : Option (ℕ → U8)) (rx : Bool)
    (length timeoutUs : ℕ) : Mmio (Int × List U8) :=
  if tx.isNone ∧ rx = false then pure (-1, [])
  else do
    let (ret, data) ← spiTransfer device chipSelect (spiSent tx length) timeoutUs
    pure (ret, if rx then data else [])

inductive Transaction where
  | i2cWrite (i2c : I2c) (address : U8) (data : List U8)
  | i2cRead (i2c : I2c) (address : U8) (length : ℕ)
  | i2cWriteRead (i2c : I2c) (address : U8) (prefixBytes : List U8) (length : ℕ)
  | spiTransfer (spi : Spi) (chipSelect : U32) (tx : Option (ℕ → U8)) (rx : Bool) (length : ℕ)

namespace Transaction

def Accepted : Transaction → Prop
  | i2cWrite i2c address data =>
    i2c.ops = true ∧ address ≤ 0x7f#8 ∧ 0 < data.length ∧ data.length ≤ 31
  | i2cRead i2c address length => i2c.ops = true ∧ address ≤ 0x7f#8 ∧ 0 < length ∧ length ≤ 32
  | i2cWriteRead i2c address prefixBytes length =>
    i2c.ops = true ∧ address ≤ 0x7f#8 ∧ 0 < length ∧ length ≤ 32 ∧
      0 < prefixBytes.length ∧ prefixBytes.length ≤ 3
  | spiTransfer spi chipSelect tx rx length =>
    spi.ops = true ∧ chipSelect ≤ 1#32 ∧ 0 < length ∧ length ≤ 65535 ∧ (tx.isSome ∨ rx = true)

def call (timeoutUs : ℕ) : Transaction → Mmio (Int × List U8)
  | i2cWrite i2c address data => do
    let ret ← Cpu3.i2cWrite (some i2c) address data timeoutUs
    pure (ret, [])
  | i2cRead i2c address length => Cpu3.i2cRead (some i2c) address length timeoutUs
  | i2cWriteRead i2c address prefixBytes length =>
    Cpu3.i2cWriteRead (some i2c) address prefixBytes length timeoutUs
  | spiTransfer spi chipSelect tx rx length =>
    spiTransferBuffers (some spi) chipSelect tx rx length timeoutUs

/-- What a call leaves behind on its bus. -/
def Released (es : List (BusEvent U64 U32)) (result : Int × List U8) : Transaction → Prop
  | i2cWrite i2c _ _ | i2cRead i2c _ _ | i2cWriteRead i2c _ _ _ => I2cReleased i2c es
  | spiTransfer spi _ tx _ length => Deselected spi es ∧ Exchanged spi (spiSent tx length) es result

end Transaction

theorem readCommon_args {address : U8} {prefixBytes : List U8} {length : ℕ}
    (haddress : address ≤ 0x7f#8) (hpos : 0 < length) (hle : length ≤ 32)
    (hshort : prefixBytes.length ≤ 3) :
    ¬ (0x7f#8 < address ∨ length = 0 ∨ 32 < length ∨ 3 < prefixBytes.length) := by
  rintro (h | h | h | h)
  · exact absurd haddress (BitVec.not_le.mpr h)
  all_goals omega

/-- Whatever the registers return and however long the call may poll, an accepted call ends and
gives its bus back. -/
theorem transaction_releases_bus (t : Transaction) (haccepted : t.Accepted) (timeoutUs : ℕ)
    (reads : Stream' U32) :
    t.Released ((t.call timeoutUs).run reads).events ((t.call timeoutUs).run reads).value := by
  cases t with
  | i2cWrite i2c address data =>
    obtain ⟨hops, haddress, hpos, hle⟩ := haccepted
    have hargs : ¬ (0x7f#8 < address ∨ data.length = 0 ∨ 31 < data.length) := by
      rintro (h | h | h)
      · exact absurd haddress (BitVec.not_le.mpr h)
      all_goals omega
    exact (i2cWrite_released hops hargs timeoutUs).bind_pure _ reads
  | i2cRead i2c address length =>
    obtain ⟨hops, haddress, hpos, hle⟩ := haccepted
    exact readCommon_released hops (readCommon_args haddress hpos hle (Nat.zero_le _)) timeoutUs reads
  | i2cWriteRead i2c address prefixBytes length =>
    obtain ⟨hops, haddress, hpos, hle, hprefixed, hshort⟩ := haccepted
    simp only [Transaction.call, Cpu3.i2cWriteRead, if_neg hprefixed.ne']
    exact readCommon_released hops (readCommon_args haddress hpos hle hshort) timeoutUs reads
  | spiTransfer spi chipSelect tx rx length =>
    obtain ⟨hops, hselect, hpos, hle, hbuffer⟩ := haccepted
    have hlength : (spiSent tx length).length = length := by simp [spiSent]
    have hargs : ¬ (1#32 < chipSelect ∨ (spiSent tx length).length = 0 ∨
        65535 < (spiSent tx length).length) := by
      rw [hlength]
      rintro (h | h | h)
      · exact absurd hselect (BitVec.not_le.mpr h)
      all_goals omega
    have hnull : ¬ (tx.isNone ∧ rx = false) := by
      cases tx <;> simp_all
    simp only [Transaction.call, spiTransferBuffers, if_neg hnull]
    rw [run_bind]
    have hreleased := spiTransfer_released hops hargs timeoutUs reads
    simpa [Transaction.Released, Exchanged] using hreleased

def zeroTransfer : Transaction := .spiTransfer ⟨0xfeb20000, true, 0, 2⟩ 1 none true 2

theorem zeroTransfer_releases_bus :
    ((zeroTransfer.call 1).run (Stream'.const 0)).value = (0, [0, 0]) ∧
      zeroTransfer.Released ((zeroTransfer.call 1).run (Stream'.const 0)).events
        ((zeroTransfer.call 1).run (Stream'.const 0)).value :=
  ⟨by rfl, transaction_releases_bus zeroTransfer
    ⟨rfl, by decide, by decide, by decide, .inr rfl⟩ 1 (Stream'.const 0)⟩

end Lzamp.Cpu3
