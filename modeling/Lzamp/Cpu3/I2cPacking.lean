import Mathlib.Algebra.Order.Floor.Div
import Mathlib.GroupTheory.GroupAction.Ring
import Lzamp.Lib.Words
import Lzamp.Cpu3.BusRelease

namespace Lzamp.Cpu3
open Lib Lib.Bus

/-- Events on the registers that start, poll and stop a transfer. -/
def Handshake (i2c : I2c) : BusEvent U64 U32 → Prop
  | .read addr _ => addr = i2c.base + i2cIpd ∨ addr = i2c.base + i2cCon
  | .write _ addr => addr = i2c.base + i2cIpd ∨ addr = i2c.base + i2cIen ∨ addr = i2c.base + i2cCon
  | _ => True

section Handshake

variable (i2c : I2c)

theorem AfterStop.handshake {i2c : I2c} {e : BusEvent U64 U32} (h : AfterStop i2c e) :
    Handshake i2c e := by
  cases e with
  | read addr v => exact .inl h
  | write v addr => exact h.imp_right And.right
  | delay usec => trivial
  | expire => trivial

theorem waitIpd_handshake (desired : U32) (timeoutUs : ℕ) (ipd : U32) :
    (waitIpd i2c desired timeoutUs ipd).EventsAll (Handshake i2c) :=
  (waitIpd_afterStop i2c desired timeoutUs ipd).mono fun _ _ h e he => (h e he).handshake

theorem run_waitIpd_pending {desired : U32} {timeoutUs : ℕ} (ipd : U32) {reads : Stream' U32}
    (htime : timeoutUs ≠ 0) (hnak : reads.head &&& intNak = 0) (hset : reads.head &&& desired ≠ 0) :
    (waitIpd i2c desired timeoutUs ipd).run reads =
      ⟨[.read (i2c.base + i2cIpd) reads.head], (0, reads.head), reads.tail⟩ := by
  rw [waitIpd, if_neg htime, run_bind, run_read32]
  dsimp only
  rw [if_neg (not_not.mpr hnak), if_pos hset]
  rfl

theorem switchOff_handshake (ret : Int) : (switchOff i2c ret).EventsAll (Handshake i2c) :=
  (switchOff_afterStop i2c ret).mono fun _ _ h e he => (h e he).handshake

theorem stopBus_handshake (timeoutUs : ℕ) : (stopBus i2c timeoutUs).EventsAll (Handshake i2c) := by
  unfold stopBus
  refine .bind (eventsAll_write32 (.inr (.inl rfl))) fun _ => ?_
  refine .bind (eventsAll_read32 fun _ => .inr rfl) fun con => ?_
  refine .bind (eventsAll_write32 (.inr (.inr rfl))) fun _ => ?_
  refine .bind (waitIpd_handshake i2c intStop timeoutUs 0) fun r => ?_
  dsimp only
  split_ifs
  · exact switchOff_handshake i2c (-2)
  · exact .bind (eventsAll_write32 (.inl rfl)) fun _ => switchOff_handshake i2c 0

theorem endTransfer_handshake (timeoutUs : ℕ) (ret : Int) :
    (endTransfer i2c timeoutUs ret).Ensures fun es ret' =>
      (∀ e ∈ es, Handshake i2c e) ∧ (ret' = 0 → ret = 0) := by
  refine Ensures.bind (stopBus_handshake i2c timeoutUs) fun es stopped hes reads => ?_
  refine ⟨by simpa using hes, fun hzero => ?_⟩
  change (if stopped ≠ 0 ∧ ret = 0 then -2 else ret) = 0 at hzero
  split_ifs at hzero with hstopped
  exact hzero

end Handshake

section Write

variable {i2c : I2c} {address : U8} {data : List U8}

/-- The words of a buffer in the order of their addresses. -/
def txWrites (i2c : I2c) (words : List U32) : List (BusEvent U64 U32) :=
  words.mapIdx fun i word => .write word (i2c.base + i2cTxbuf + BitVec.ofNat 64 i * 4)

def startWrite (i2c : I2c) (mtxcnt : U32) : List (BusEvent U64 U32) :=
  [.write (intMbtf ||| intNak) (i2c.base + i2cIen),
    .write (conEn ||| conModeTx ||| conStart ||| conActack) (i2c.base + i2cCon),
    .write mtxcnt (i2c.base + i2cMtxcnt)]

theorem txWords_eq (address : U8) (data : List U8) :
    txWords address data = (data.zipIdx 1).foldl (fun words entry => putByte words entry.2 entry.1)
      (Function.update (fun _ => 0) 0 (address.setWidth 32 <<< 1)) := by
  rw [List.zipIdx_succ, List.foldl_map]
  rfl

theorem byteAt_address (haddress : address.toNat < 2 ^ 7) (i : ℕ) :
    byteAt (Function.update (fun _ => 0) 0 (address.setWidth 32 <<< 1)) i =
      if i = 0 then address * 2 else 0 := by
  have hword : (address.setWidth 32 <<< 1 : U32).toNat = address.toNat * 2 := by
    rw [BitVec.toNat_shiftLeft, BitVec.toNat_setWidth, Nat.shiftLeft_eq]
    omega
  apply BitVec.eq_of_toNat_eq
  rw [toNat_byteAt]
  by_cases hfirst : i / 4 = 0
  · rw [hfirst, Function.update_self, hword]
    by_cases hzero : i = 0
    · rw [if_pos hzero, hzero, BitVec.toNat_mul, Nat.zero_mod, Nat.zero_mul, pow_zero, Nat.div_one]
      rfl
    · have hpos : 8 ≤ i % 4 * 8 := by omega
      have hle : 2 ^ 8 ≤ 2 ^ (i % 4 * 8) := Nat.pow_le_pow_right (by decide) hpos
      rw [if_neg hzero, Nat.div_eq_of_lt (by omega)]
      rfl
  · rw [Function.update_of_ne hfirst, if_neg (by omega)]
    change 0 / 2 ^ (i % 4 * 8) % 256 = 0
    rw [Nat.zero_div]

theorem byteAt_txWords (haddress : address.toNat < 2 ^ 7) (i : ℕ) :
    byteAt (txWords address data) i = (address * 2 :: data).getD i 0 := by
  rw [txWords_eq, byteAt_foldl_putByte, byteAt_address haddress]
  cases i with
  | zero => simp
  | succ i => simp

theorem fillTx_indices (hlength : data.length ≤ 31) :
    ((List.range 8).takeWhile fun index => index * 4 < data.length + 1) =
      List.range ((data.length + 1) ⌈/⌉ 4) := by
  have hall : ∀ n ≤ 31, ((List.range 8).takeWhile fun index => index * 4 < n + 1) =
      List.range ((n + 1 + 4 - 1) / 4) := by decide
  rw [Nat.ceilDiv_eq_add_pred_div]
  exact hall data.length hlength

def packed (address : U8) (data : List U8) : List U32 :=
  (List.range ((data.length + 1) ⌈/⌉ 4)).map (txWords address data)

theorem run_fillTx (hlength : data.length ≤ 31) (reads : Stream' U32) :
    (fillTx i2c address data).run reads = ⟨txWrites i2c (packed address data), (), reads⟩ := by
  unfold fillTx
  rw [fillTx_indices hlength, run_forM_write32, txWrites, packed, mapIdx_map_range]

theorem wordsBytes_packed (haddress : address.toNat < 2 ^ 7) :
    wordsBytes (packed address data) = address * 2 :: data ++
      List.replicate (4 * ((data.length + 1) ⌈/⌉ 4) - (data.length + 1)) 0 := by
  have hle : (address * 2 :: data).length ≤ 4 * ((data.length + 1) ⌈/⌉ 4) := by
    rw [List.length_cons, Nat.ceilDiv_eq_add_pred_div]
    omega
  have hbytes : byteAt (txWords address data) = fun i => (address * 2 :: data).getD i 0 :=
    funext fun i => byteAt_txWords haddress i
  rw [packed, wordsBytes_map_range, hbytes]
  exact map_range_getD _ hle

theorem i2cWrite_ensures (hops : i2c.ops = true)
    (hargs : ¬ (0x7f#8 < address ∨ data.length = 0 ∨ 31 < data.length)) (timeoutUs : ℕ) :
    (i2cWrite (some i2c) address data timeoutUs).Ensures fun events _ => ∃ after,
      events = .write intAll (i2c.base + i2cIpd) :: (txWrites i2c (packed address data) ++
        startWrite i2c (BitVec.ofNat 32 data.length + 1) ++ after) ∧
      ∀ e ∈ after, Handshake i2c e := by
  have hfill : (fillTx i2c address data).Ensures fun es _ =>
      es = txWrites i2c (packed address data) := by
    intro reads
    rw [run_fillTx (by omega)]
  have hend (r : Int × U32) : (do
      if r.1 = 0 then write32 (r.2 &&& intAll) (i2c.base + i2cIpd)
      endTransfer i2c timeoutUs r.1 : Mmio Int).EventsAll (Handshake i2c) := by
    have hstop := (endTransfer_handshake i2c timeoutUs r.1).mono fun _ _ h => h.1
    split_ifs
    · exact .bind (eventsAll_write32 (.inl rfl)) fun _ => hstop
    · exact hstop
  unfold i2cWrite
  rw [Option.filter_some_pos hops]
  dsimp only
  rw [if_neg hargs]
  refine .write32_bind (.bind hfill fun es _ hes => ?_)
  refine .write32_bind (.write32_bind (.write32_bind ?_))
  refine ((waitIpd_handshake i2c intMbtf timeoutUs 0).bind hend).mono fun after _ hafter => ?_
  refine ⟨after, ?_, hafter⟩
  rw [hes, List.append_assoc]
  rfl

end Write

section Read

variable {i2c : I2c} {address : U8} {prefixBytes : List U8}

def rxReads (i2c : I2c) (words : List U32) : List (BusEvent U64 U32) :=
  words.mapIdx fun i word => .read (i2c.base + i2cRxbuf + BitVec.ofNat 64 i * 4) word

def startRead (i2c : I2c) (mrxaddr mrxraddr mrxcnt : U32) : List (BusEvent U64 U32) :=
  [.write intAll (i2c.base + i2cIpd),
    .write mrxaddr (i2c.base + i2cMrxaddr),
    .write mrxraddr (i2c.base + i2cMrxraddr),
    .write (intMbrf ||| intNak) (i2c.base + i2cIen),
    .write (conEn ||| conModeRegisterTx ||| conStart ||| conLastack ||| conActack)
      (i2c.base + i2cCon),
    .write mrxcnt (i2c.base + i2cMrxcnt)]

theorem toNat_mrxaddr (haddress : address.toNat < 2 ^ 7) :
    (address.setWidth 32 <<< 1 ||| 1 ||| addrValid 0 : U32).toNat =
      2 ^ 24 + (address.toNat * 2 + 1) := by
  have hshift : (address.setWidth 32 <<< 1 : U32).toNat = address.toNat <<< 1 := by
    rw [BitVec.toNat_shiftLeft, BitVec.toNat_setWidth]
    simp only [Nat.shiftLeft_eq]
    omega
  have hread : address.toNat <<< 1 ||| 1 = address.toNat <<< 1 + 1 :=
    (Nat.shiftLeft_add_eq_or_of_lt (by decide) _).symm
  have hvalid : (address.toNat <<< 1 + 1) ||| 1 <<< 24 = 1 <<< 24 + (address.toNat <<< 1 + 1) := by
    rw [Nat.or_comm]
    refine (Nat.shiftLeft_add_eq_or_of_lt ?_ _).symm
    rw [Nat.shiftLeft_eq]
    omega
  rw [BitVec.toNat_or, BitVec.toNat_or, hshift]
  change address.toNat <<< 1 ||| 1 ||| 1 <<< 24 = _
  rw [hread, hvalid, Nat.shiftLeft_eq, Nat.shiftLeft_eq]
  omega

theorem leBytes_or_valid (a b c valid : U8) {u v w : U32}
    (hvalid : u ||| v ||| w = valid.setWidth 32 <<< 24) :
    leBytes 4 (a.setWidth 32 ||| u ||| b.setWidth 32 <<< 8 ||| v ||| c.setWidth 32 <<< 16 |||
      w).toNat = [a, b, c, valid] := by
  have hgroup (x y z : U32) :
      x ||| u ||| y ||| v ||| z ||| w = x ||| y ||| z ||| (u ||| v ||| w) := by ac_rfl
  rw [hgroup, hvalid, toNat_or_shifts]
  exact leBytes_leNat [a, b, c, valid]

theorem leBytes_regAddress (hlength : prefixBytes.length ≤ 3) :
    leBytes 4 (regAddress prefixBytes).toNat =
      prefixBytes ++ List.replicate (3 - prefixBytes.length) 0 ++
        [BitVec.ofNat 8 (2 ^ prefixBytes.length - 1)] := by
  -- one case for each number of register bytes the hardware takes
  rcases prefixBytes with _ | ⟨a, _ | ⟨b, _ | ⟨c, _ | ⟨d, rest⟩⟩⟩⟩
  · rfl
  · have h := leBytes_or_valid a 0 0 1 (show addrValid 0 ||| 0 ||| 0 = _ from rfl)
    simpa [regAddress] using h
  · have h := leBytes_or_valid a b 0 3 (show addrValid 0 ||| addrValid 1 ||| 0 = _ from rfl)
    simpa [regAddress] using h
  · have h := leBytes_or_valid a b c 7
      (show addrValid 0 ||| addrValid 1 ||| addrValid 2 = _ from rfl)
    simpa [regAddress] using h
  · simp only [List.length_cons] at hlength
    omega

/-- The word that byte `4 * m` belongs to, when the loop is at `index` with `word` in hand. -/
def rxWord (word : U32) (reads : Stream' U32) (index m : ℕ) : U32 :=
  if m < (index + 3) / 4 then word else reads.get (m - (index + 3) / 4)

theorem rxWord_next (word : U32) (reads : Stream' U32) {index m : ℕ} (hindex : index % 4 = 0)
    (hm : index / 4 ≤ m) :
    rxWord reads.head reads.tail (index + 1) m = rxWord word reads index m := by
  have hfirst : (index + 3) / 4 = index / 4 := by omega
  have hnext : (index + 1 + 3) / 4 = index / 4 + 1 := by omega
  unfold rxWord
  rw [hfirst, hnext, if_neg (show ¬ m < index / 4 by omega)]
  rcases Nat.eq_or_lt_of_le hm with rfl | hlt
  · rw [if_pos (by omega), Nat.sub_self]
  · obtain ⟨k, rfl⟩ := Nat.exists_eq_add_of_lt hlt
    rw [if_neg (by omega), show index / 4 + k + 1 - (index / 4 + 1) = k by omega,
      show index / 4 + k + 1 - index / 4 = k + 1 by omega]
    rfl

theorem rxWord_same (word : U32) (reads : Stream' U32) {index : ℕ} (hindex : index % 4 ≠ 0) :
    rxWord word reads (index + 1) = rxWord word reads index := by
  funext m
  unfold rxWord
  rw [show (index + 1 + 3) / 4 = (index + 3) / 4 by omega]

theorem rxWord_current (word : U32) (reads : Stream' U32) {index : ℕ} (hindex : index % 4 ≠ 0) :
    rxWord word reads index (index / 4) = word :=
  if_pos (by omega)

theorem setWidth_low_byte (x : U32) : (x &&& 0xff).setWidth 8 = x.setWidth 8 := by
  apply BitVec.eq_of_toNat_eq
  rw [BitVec.toNat_setWidth, BitVec.toNat_setWidth, BitVec.toNat_and]
  exact (congrArg (· % 2 ^ 8) (Nat.and_two_pow_sub_one_eq_mod x.toNat 8)).trans (Nat.mod_mod _ _)

/-- From `index` on, the loop reads the words that start there or later, each once, and stores their
bytes. -/
theorem run_rxLoop (i2c : I2c) (word : U32) (index n : ℕ) (reads : Stream' U32) :
    ((rxLoop i2c word index n).run reads).events =
      (List.range' ((index + 3) / 4) ((index + n + 3) / 4 - (index + 3) / 4)).map (fun m =>
        .read (i2c.base + i2cRxbuf + BitVec.ofNat 64 m * 4) (rxWord word reads index m)) ∧
    ((rxLoop i2c word index n).run reads).value =
      (List.range' index n).map (byteAt (rxWord word reads index)) := by
  induction n generalizing word index reads with
  | zero => simp [rxLoop]
  | succ n ih =>
    have hbyte (words : ℕ → U32) : byteAt words index =
        (words (index / 4) >>> (index % 4 * 8) &&& 0xff).setWidth 8 :=
      (setWidth_low_byte _).symm
    rw [rxLoop, List.range'_succ, List.map_cons, hbyte]
    -- a word is read at its first byte and kept in hand for the other three
    by_cases hindex : index % 4 = 0
    · obtain ⟨hevents, hvalue⟩ := ih reads.head (index + 1) reads.tail
      have hcount : (index + (n + 1) + 3) / 4 - (index + 3) / 4 =
          (index + 1 + n + 3) / 4 - (index + 1 + 3) / 4 + 1 := by omega
      have hfirst : (index + 3) / 4 = index / 4 := by omega
      have hnext : (index + 1 + 3) / 4 = index / 4 + 1 := by omega
      have hcurrent : rxWord word reads index (index / 4) = reads.head := by
        rw [← rxWord_next word reads hindex le_rfl]
        exact if_pos (by omega)
      rw [if_pos hindex, hcount, hfirst, hnext, List.range'_succ, List.map_cons, hcurrent]
      simp only [run_bind, run_read32, run_pure, hevents, hvalue, hnext]
      refine ⟨congrArg _ ?_, congrArg _ ?_⟩
      · rw [List.append_nil]
        refine List.map_congr_left fun m hm => ?_
        rw [rxWord_next word reads hindex (by have := List.mem_range'_1.mp hm; omega)]
      · refine List.map_congr_left fun i hi => ?_
        have hle := (List.mem_range'_1.mp hi).1
        rw [byteAt, byteAt, rxWord_next word reads hindex (by omega)]
    · obtain ⟨hevents, hvalue⟩ := ih word (index + 1) reads
      have hcount : (index + (n + 1) + 3) / 4 - (index + 3) / 4 =
          (index + 1 + n + 3) / 4 - (index + 1 + 3) / 4 := by omega
      have hfirst : (index + 1 + 3) / 4 = (index + 3) / 4 := by omega
      rw [rxWord_same word reads hindex] at hevents hvalue
      rw [if_neg hindex, rxWord_current word reads hindex, hcount]
      simp only [run_bind, run_pure, hevents, hvalue, hfirst]
      simp

/-- A whole buffer: `words` are read in the order of their addresses, and their bytes are the
data. -/
theorem rxLoop_ensures (length : ℕ) :
    (rxLoop i2c 0 0 length).Ensures fun events data => ∃ words,
      events = rxReads i2c words ∧ words.length = length ⌈/⌉ 4 ∧
      data = (wordsBytes words).take length := by
  intro reads
  obtain ⟨hevents, hvalue⟩ := run_rxLoop i2c 0 0 length reads
  have hle : length ≤ 4 * (length ⌈/⌉ 4) := by
    rw [Nat.ceilDiv_eq_add_pred_div]
    omega
  refine ⟨(List.range (length ⌈/⌉ 4)).map (rxWord 0 reads 0), ?_, by simp, ?_⟩
  · rw [hevents, rxReads, mapIdx_map_range, Nat.ceilDiv_eq_add_pred_div, Nat.zero_add length,
      List.range_eq_range']
    rfl
  · rw [hvalue, wordsBytes_map_range, ← List.map_take, List.take_range, Nat.min_eq_left hle,
      List.range_eq_range']

/-- What a read leaves on the bus after its set-up. -/
def ReadBack (i2c : I2c) (length : ℕ) (after : List (BusEvent U64 U32)) (data : List U8) : Prop :=
  ∃ polls words ending, after = polls ++ rxReads i2c words ++ ending ∧
    words.length = length ⌈/⌉ 4 ∧ data = (wordsBytes words).take length ∧
    ∀ e ∈ polls ++ ending, Handshake i2c e

theorem readCommon_ensures (hops : i2c.ops = true) {length : ℕ}
    (hargs : ¬ (0x7f#8 < address ∨ length = 0 ∨ 32 < length ∨ 3 < prefixBytes.length))
    (timeoutUs : ℕ) :
    (readCommon (some i2c) address prefixBytes length timeoutUs).Ensures fun events r => ∃ after,
      events = startRead i2c (address.setWidth 32 <<< 1 ||| 1 ||| addrValid 0)
        (regAddress prefixBytes) (BitVec.ofNat 32 length) ++ after ∧
      (r.1 = 0 → ReadBack i2c length after r.2) := by
  unfold readCommon
  rw [Option.filter_some_pos hops]
  dsimp only
  rw [if_neg hargs]
  refine .write32_bind (.write32_bind (.write32_bind (.write32_bind (.write32_bind
    (.write32_bind ?_)))))
  refine Ensures.mono (Q := fun after r => r.1 = 0 → ReadBack i2c length after r.2) ?_
    fun after _ hback => ⟨after, rfl, hback⟩
  refine .bind (waitIpd_handshake i2c intMbrf timeoutUs 0) fun polls r hpolls => ?_
  obtain ⟨ret, ipd⟩ := r
  dsimp only
  by_cases hret : ret = 0
  · rw [if_pos hret]
    refine .bind (rxLoop_ensures length) fun _ data hwords => .write32_bind ?_
    obtain ⟨words, rfl, hlength, hdata⟩ := hwords
    refine .bind (endTransfer_handshake i2c timeoutUs ret) fun ending ret' hend reads _ => ?_
    refine ⟨polls, words, .write (ipd &&& intAll) (i2c.base + i2cIpd) :: ending, by simp, hlength,
      hdata, ?_⟩
    intro e he
    rcases List.mem_append.mp he with he | he
    · exact hpolls e he
    · rcases List.mem_cons.mp he with rfl | he
      · exact .inl rfl
      · exact hend.1 e he
  · rw [if_neg hret]
    -- the stop condition keeps the error of the wait
    refine .bind (endTransfer_handshake i2c timeoutUs ret) fun ending ret' hend reads hzero => ?_
    exact absurd (hend.2 hzero) hret

end Read

/-- The words written to TXBUF are the address byte, the data and zeroes; MTXCNT counts them.
MRXADDR and MRXRADDR hold the address and the register bytes with their valid bits, and the data
that a successful read returns are the bytes of the RXBUF words, each read once. -/
theorem i2c_packing_faithful (i2c : I2c) (hops : i2c.ops = true) (address : U8)
    (haddress : address.toNat < 2 ^ 7) (timeoutUs : ℕ) (reads : Stream' U32) :
    (∀ data : List U8, 1 ≤ data.length → data.length ≤ 31 → ∃ (words : List U32)
        (mtxcnt : U32) (after : List (BusEvent U64 U32)),
      (fillTx i2c address data).run reads = ⟨txWrites i2c words, (), reads⟩ ∧
      ((i2cWrite (some i2c) address data timeoutUs).run reads).events =
        .write intAll (i2c.base + i2cIpd) ::
          (txWrites i2c words ++ startWrite i2c mtxcnt ++ after) ∧
      words.length = (data.length + 1) ⌈/⌉ 4 ∧ words.length ≤ 8 ∧
      wordsBytes words = address * 2 :: data ++
        List.replicate (4 * ((data.length + 1) ⌈/⌉ 4) - (data.length + 1)) 0 ∧
      (address * 2).toNat = 2 * address.toNat ∧ mtxcnt.toNat = data.length + 1 ∧
      ∀ e ∈ after, Handshake i2c e) ∧
    (∀ (prefixBytes : List U8) (length : ℕ), prefixBytes.length ≤ 3 → 1 ≤ length → length ≤ 32 →
      ∃ (mrxaddr mrxraddr : U32) (after : List (BusEvent U64 U32)),
      ((readCommon (some i2c) address prefixBytes length timeoutUs).run reads).events =
        startRead i2c mrxaddr mrxraddr (BitVec.ofNat 32 length) ++ after ∧
      mrxaddr.toNat = 2 ^ 24 + (address.toNat * 2 + 1) ∧
      leBytes 4 mrxraddr.toNat = prefixBytes ++ List.replicate (3 - prefixBytes.length) 0 ++
        [BitVec.ofNat 8 (2 ^ prefixBytes.length - 1)] ∧
      (((readCommon (some i2c) address prefixBytes length timeoutUs).run reads).value.1 = 0 →
        ∃ polls words ending, after = polls ++ rxReads i2c words ++ ending ∧
          words.length = length ⌈/⌉ 4 ∧
          ((readCommon (some i2c) address prefixBytes length timeoutUs).run reads).value.2 =
            (wordsBytes words).take length ∧
          ∀ e ∈ polls ++ ending, Handshake i2c e)) := by
  have hseven : ¬ 0x7f#8 < address := BitVec.not_lt.mpr (by rw [BitVec.le_def]; simp; omega)
  constructor
  · intro data hpos hlength
    have hargs : ¬ (0x7f#8 < address ∨ data.length = 0 ∨ 31 < data.length) := by
      rw [or_iff_right hseven]
      omega
    obtain ⟨after, hevents, hafter⟩ := i2cWrite_ensures hops hargs timeoutUs reads
    refine ⟨packed address data, _, after, run_fillTx hlength reads, hevents, by simp [packed], ?_,
      wordsBytes_packed haddress, ?_, ?_, hafter⟩
    · rw [packed, List.length_map, List.length_range, Nat.ceilDiv_eq_add_pred_div]
      omega
    · rw [BitVec.toNat_mul]
      change address.toNat * 2 % 2 ^ 8 = _
      omega
    · rw [BitVec.toNat_add, BitVec.toNat_ofNat]
      change (data.length % 2 ^ 32 + 1) % 2 ^ 32 = _
      omega
  · intro prefixBytes length hbytes3 hpos hlength
    have hargs : ¬ (0x7f#8 < address ∨ length = 0 ∨ 32 < length ∨ 3 < prefixBytes.length) := by
      rw [or_iff_right hseven]
      omega
    obtain ⟨after, hevents, hdata⟩ := readCommon_ensures hops hargs timeoutUs reads
    exact ⟨_, _, after, hevents, toNat_mrxaddr haddress, leBytes_regAddress hbytes3, hdata⟩

/-- Four bytes to slave 0x68 take two words, and so do six bytes from its register 0x3b. -/
theorem i2c_packing_two_words :
    (∃ words, (fillTx ⟨0xfec90000, true⟩ 0x68 [0x6b, 1, 2, 3]).run (Stream'.const 0x28) =
        ⟨txWrites ⟨0xfec90000, true⟩ words, (), Stream'.const 0x28⟩ ∧
      wordsBytes words = [0xd0, 0x6b, 1, 2, 3, 0, 0, 0]) ∧
    ∃ words, words.length = 2 ∧
      ((readCommon (some ⟨0xfec90000, true⟩) 0x68 [0x3b] 6 1000).run (Stream'.const 0x28)).value =
        (0, (wordsBytes words).take 6) := by
  have h := i2c_packing_faithful ⟨0xfec90000, true⟩ rfl 0x68 (by decide) 1000 (Stream'.const 0x28)
  have hstop : ((stopBus ⟨0xfec90000, true⟩ 1000).run (Stream'.const 0x28)).value = 0 := by
    simp only [stopBus, run_bind, run_write32, run_read32]
    rw [run_waitIpd_pending _ _ (by decide) rfl (by decide)]
    rfl
  have hread : ((readCommon (some ⟨0xfec90000, true⟩) 0x68 [0x3b] 6 1000).run
      (Stream'.const 0x28)).value.1 = 0 := by
    have hrest : ((rxLoop ⟨0xfec90000, true⟩ 0 0 6).run (Stream'.const (0x28 : U32)).tail).rest =
      Stream'.const 0x28 := rfl
    unfold readCommon
    rw [Option.filter_some_pos rfl]
    dsimp only
    rw [if_neg (by decide)]
    simp only [run_bind, run_write32]
    rw [run_waitIpd_pending _ _ (by decide) rfl (by decide)]
    dsimp only
    rw [if_pos rfl]
    simp only [endTransfer, run_bind, run_write32, run_pure]
    rw [hrest, hstop]
    rfl
  constructor
  · obtain ⟨words, mtxcnt, after, hrun, -, -, -, hbytes, -⟩ :=
      h.1 [0x6b, 1, 2, 3] (by decide) (by decide)
    exact ⟨words, hrun, hbytes.trans (by decide)⟩
  · obtain ⟨mrxaddr, mrxraddr, after, -, -, -, hback⟩ :=
      h.2 [0x3b] 6 (by decide) (by decide) (by decide)
    obtain ⟨polls, words, ending, -, hlength, hdata, -⟩ := hback hread
    exact ⟨words, hlength.trans (by decide), Prod.ext hread hdata⟩

end Lzamp.Cpu3
