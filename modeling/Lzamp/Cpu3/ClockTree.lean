import Lzamp.Lib.Hiword
import Lzamp.Cpu3.Drivers

namespace Lzamp.Cpu3
open Lib Lib.Bus Lib.Hiword

inductive CruCall
  | clockEnable (peripheral : PeripheralClock)
  | clockDisable (peripheral : PeripheralClock)
  | resetPulse (peripheral : Reset)

def CruCall.exec (cru : Option Cru) (reset : Option ResetController) : CruCall → Mmio Int
  | .clockEnable peripheral => peripheralClockEnable cru peripheral
  | .clockDisable peripheral => peripheralClockDisable cru peripheral
  | .resetPulse peripheral => Cpu3.resetPulse reset peripheral

def cruCalls (cru : Option Cru) (reset : Option ResetController) : List CruCall → Mmio Unit
  | [] => pure ()
  | call :: calls => do
    let _ ← call.exec cru reset
    cruCalls cru reset calls

/-- The peripherals whose leaf trees are assigned to Zephyr. -/
inductive Leaf
  | uart5
  | uart7
  | i2c7
  | spi0
  | pwm1
  | saradc
  deriving DecidableEq

structure CruBit where
  offset : U64
  bit : ℕ
  deriving DecidableEq

namespace Leaf

/-- Parent muxes and dividers. -/
def fields : Leaf → List CruBit
  | .uart5 => [⟨clkselCon 51, 0⟩, ⟨clkselCon 51, 1⟩]
  | .uart7 => [⟨clkselCon 55, 0⟩, ⟨clkselCon 55, 1⟩]
  | .i2c7 => [⟨clkselCon 38, 12⟩]
  | .spi0 => [⟨clkselCon 59, 2⟩, ⟨clkselCon 59, 3⟩]
  | .pwm1 => [⟨clkselCon 59, 12⟩, ⟨clkselCon 59, 13⟩]
  | .saradc => ⟨clkselCon 40, 14⟩ :: (List.range 8).map fun i => ⟨clkselCon 40, 6 + i⟩

/-- The gates of the leaf clocks, behind the muxes and dividers. -/
def gates : Leaf → List CruBit
  | .uart5 => [⟨clkgateCon 13, 9⟩]
  | .uart7 => [⟨clkgateCon 13, 15⟩]
  | .i2c7 => [⟨clkgateCon 11, 6⟩]
  | .spi0 => [⟨clkgateCon 14, 11⟩]
  | .pwm1 => [⟨clkgateCon 15, 4⟩, ⟨clkgateCon 15, 5⟩]
  | .saradc => [⟨clkgateCon 11, 15⟩]

/-- The gates of the register clocks. -/
def pclkGates : Leaf → List CruBit
  | .uart5 => [⟨clkgateCon 12, 6⟩]
  | .uart7 => [⟨clkgateCon 12, 8⟩]
  | .i2c7 => [⟨clkgateCon 10, 14⟩]
  | .spi0 => [⟨clkgateCon 14, 6⟩]
  | .pwm1 => [⟨clkgateCon 15, 3⟩]
  | .saradc => [⟨clkgateCon 11, 14⟩]

def resets : Leaf → List CruBit
  | .uart5 => [⟨softrstCon 12, 6⟩, ⟨softrstCon 13, 9⟩]
  | .uart7 => [⟨softrstCon 12, 8⟩, ⟨softrstCon 13, 15⟩]
  | .i2c7 => [⟨softrstCon 10, 14⟩, ⟨softrstCon 11, 6⟩]
  | .spi0 => [⟨softrstCon 14, 6⟩, ⟨softrstCon 14, 11⟩]
  | .pwm1 => [⟨softrstCon 15, 3⟩, ⟨softrstCon 15, 4⟩]
  | .saradc => [⟨softrstCon 11, 14⟩]

def bits (leaf : Leaf) : List CruBit :=
  leaf.fields ++ leaf.gates ++ leaf.pclkGates ++ leaf.resets

theorem mem_bits_of_fields (leaf : Leaf) {b : CruBit} (hb : b ∈ leaf.fields) : b ∈ leaf.bits := by
  simp [bits, hb]

theorem mem_bits_of_gates (leaf : Leaf) {b : CruBit} (hb : b ∈ leaf.gates) : b ∈ leaf.bits := by
  simp [bits, hb]

theorem mem_bits_of_resets (leaf : Leaf) {b : CruBit} (hb : b ∈ leaf.resets) : b ∈ leaf.bits := by
  simp [bits, hb]

theorem bits_disjoint {leaf leaf' : Leaf} (hne : leaf ≠ leaf') {b : CruBit} (hb : b ∈ leaf.bits) :
    b ∉ leaf'.bits := by
  have h : ∀ b ∈ leaf.bits, b ∉ leaf'.bits := by
    cases leaf <;> cases leaf' <;> first | exact absurd rfl hne | decide
  exact h b hb

end Leaf

def PeripheralClock.leaf : PeripheralClock → Option Leaf
  | .uart5 => some .uart5
  | .uart7 => some .uart7
  | .i2c7 => some .i2c7
  | .spi0 => some .spi0
  | .pwm1 => some .pwm1
  | .saradc => some .saradc
  | .invalid => none

def Reset.leaf : Reset → Option Leaf
  | .uart5 => some .uart5
  | .uart7 => some .uart7
  | .i2c7 => some .i2c7
  | .spi0 => some .spi0
  | .pwm1 => some .pwm1
  | .saradc => some .saradc
  | .invalid => none

def CruCall.leaf : CruCall → Option Leaf
  | .clockEnable peripheral => peripheral.leaf
  | .clockDisable peripheral => peripheral.leaf
  | .resetPulse peripheral => peripheral.leaf

/-- What a call does on a CRU at address 0. -/
def CruCall.events (call : CruCall) : List (BusEvent U64 U32) :=
  ((call.exec (some ⟨0, true⟩) (some ⟨0, true⟩)).run (Stream'.const 0)).events

theorem CruCall.run_exec (call : CruCall) (base : U64) (reads : Stream' U32) :
    ((call.exec (some ⟨base, true⟩) (some ⟨base, true⟩)).run reads).events =
        call.events.map (relocate (base + ·)) ∧
      ((call.exec (some ⟨base, true⟩) (some ⟨base, true⟩)).run reads).rest = reads := by
  obtain peripheral | peripheral | peripheral := call <;> cases peripheral <;> exact ⟨rfl, rfl⟩

def selected : BusEvent U64 U32 → List CruBit
  | .write word offset =>
    (List.range 16).filterMap fun i => if word.getLsbD (16 + i) then some ⟨offset, i⟩ else none
  | _ => []

theorem given_eq_none_of_not_selected {e : BusEvent U64 U32} {b : CruBit} (hlt : b.bit < 16)
    (h : b ∉ selected e) : given b.offset b.bit e = none := by
  cases e with
  | write word offset =>
    refine if_neg fun hand => h (List.mem_filterMap.mpr ⟨b.bit, List.mem_range.mpr hlt, ?_⟩)
    rw [if_pos hand.2, hand.1]
  | read => rfl
  | delay => rfl
  | expire => rfl

theorem Leaf.bit_lt {leaf : Leaf} {b : CruBit} (hb : b ∈ leaf.bits) : b.bit < 16 := by
  have h : ∀ b ∈ leaf.bits, b.bit < 16 := by cases leaf <;> decide
  exact h b hb

namespace CruCall

theorem events_of_rejected {call : CruCall} (hleaf : call.leaf = none) : call.events = [] := by
  obtain peripheral | peripheral | peripheral := call <;> cases peripheral <;> first
    | rfl
    | cases hleaf

theorem selected_subset {call : CruCall} {leaf : Leaf} (hleaf : call.leaf = some leaf) :
    ∀ e ∈ call.events, ∀ b ∈ selected e, b ∈ leaf.bits := by
  obtain peripheral | peripheral | peripheral := call <;> cases peripheral <;> cases hleaf <;>
    decide

/-- Whatever selects a mux or a divider comes after writes that close the gates behind it. -/
theorem gates_closed_first {call : CruCall} {leaf : Leaf} (hleaf : call.leaf = some leaf) :
    ∀ k < call.events.length, (∀ b ∈ (call.events[k]?).elim [] selected, b ∉ leaf.fields) ∨
      ∀ g ∈ leaf.gates, lastGiven g.offset g.bit (call.events.take k) = some true := by
  obtain peripheral | peripheral | peripheral := call <;> cases peripheral <;> cases hleaf <;>
    decide

theorem resets_deasserted {peripheral : Reset} {leaf : Leaf} (hleaf : peripheral.leaf = some leaf) :
    ∀ b ∈ leaf.resets, lastGiven b.offset b.bit (resetPulse peripheral).events = some false := by
  cases peripheral <;> cases hleaf <;> decide

theorem lastGiven_events {call : CruCall} {b : CruBit} (hlt : b.bit < 16)
    (h : ∀ leaf, call.leaf = some leaf → b ∉ leaf.bits) :
    lastGiven b.offset b.bit call.events = none := by
  cases hleaf : call.leaf with
  | none =>
    rw [events_of_rejected hleaf]
    rfl
  | some leaf =>
    refine lastGiven_of_given fun e hmem => given_eq_none_of_not_selected hlt fun hsel => ?_
    exact h leaf hleaf (selected_subset hleaf e hmem b hsel)

end CruCall

theorem cruCalls_run (base : U64) (calls : List CruCall) (reads : Stream' U32) :
    ((cruCalls (some ⟨base, true⟩) (some ⟨base, true⟩) calls).run reads).events =
      (calls.flatMap CruCall.events).map (relocate (base + ·)) := by
  induction calls with
  | nil => rfl
  | cons call calls ih =>
    obtain ⟨hevents, hrest⟩ := call.run_exec base reads
    rw [cruCalls, run_bind]
    dsimp only
    rw [hrest, ih, hevents, List.flatMap_cons, List.map_append]

theorem lastGiven_flatMap {leaf : Leaf} {b : CruBit} (hb : b ∈ leaf.bits) (calls : List CruCall) :
    lastGiven b.offset b.bit (calls.flatMap CruCall.events) =
      lastGiven b.offset b.bit
        ((calls.filter (·.leaf = some leaf)).flatMap CruCall.events) := by
  induction calls with
  | nil => rfl
  | cons call calls ih =>
    rw [List.flatMap_cons, lastGiven_append, ih]
    by_cases hleaf : call.leaf = some leaf
    · rw [List.filter_cons_of_pos (by simpa using hleaf), List.flatMap_cons, lastGiven_append]
    · have hother : lastGiven b.offset b.bit call.events = none := by
        refine CruCall.lastGiven_events (Leaf.bit_lt hb) fun leaf' hleaf' => ?_
        refine Leaf.bits_disjoint ?_ hb
        rintro rfl
        exact hleaf hleaf'
      rw [List.filter_cons_of_neg (by simpa using hleaf), hother, Option.or_none]

theorem lastGiven_unassigned {b : CruBit} (hlt : b.bit < 16)
    (h : ∀ leaf : Leaf, b ∉ leaf.bits) (calls : List CruCall) :
    lastGiven b.offset b.bit (calls.flatMap CruCall.events) = none := by
  induction calls with
  | nil => rfl
  | cons call calls ih =>
    rw [List.flatMap_cons, lastGiven_append, ih, Option.none_or]
    exact CruCall.lastGiven_events hlt fun leaf _ => h leaf

/-- The registers after a sequence of calls, on drivers that were initialised for the same CRU. -/
def cruAfter (cru : Cru) (reset : ResetController) (base : U64) (reads : Stream' U32)
    (regs : U64 → BitVec 16) (calls : List CruCall) : U64 → BitVec 16 :=
  after regs ((cruCalls (cruInit (some cru) base true).2 (resetInit (some reset) base true).2
    calls).run reads).events

section After

variable (cru : Cru) (reset : ResetController) (base : U64) (reads : Stream' U32)
  (regs : U64 → BitVec 16) (calls : List CruCall)

theorem cruAfter_eq : cruAfter cru reset base reads regs calls =
    after regs ((calls.flatMap CruCall.events).map (relocate (base + ·))) :=
  congrArg (after regs) (cruCalls_run base calls reads)

theorem cruAfter_bit {b : CruBit} (hlt : b.bit < 16) :
    (cruAfter cru reset base reads regs calls (base + b.offset)).getLsbD b.bit =
      (lastGiven b.offset b.bit (calls.flatMap CruCall.events)).getD
        ((regs (base + b.offset)).getLsbD b.bit) := by
  rw [cruAfter_eq, getLsbD_after regs hlt, lastGiven_relocate (add_right_injective base)]

theorem cruAfter_unassigned {addr : U64} {i : ℕ} (hi : i < 16)
    (h : ∀ leaf : Leaf, ⟨addr - base, i⟩ ∉ leaf.bits) :
    (cruAfter cru reset base reads regs calls addr).getLsbD i = (regs addr).getLsbD i := by
  have hbit := cruAfter_bit cru reset base reads regs calls (b := ⟨addr - base, i⟩) hi
  rw [lastGiven_unassigned hi h, add_sub_cancel] at hbit
  exact hbit

theorem cruAfter_comm {call call' : CruCall} (hne : call.leaf ≠ call'.leaf) :
    cruAfter cru reset base reads regs (calls ++ [call, call']) =
      cruAfter cru reset base reads regs (calls ++ [call', call]) := by
  have hcomm : ∀ addr : U64, ∀ i < 16,
      lastGiven addr i (call.events.map (relocate (base + ·))) = none ∨
        lastGiven addr i (call'.events.map (relocate (base + ·))) = none := by
    intro addr i hi
    rw [← add_sub_cancel base addr, lastGiven_relocate (add_right_injective base),
      lastGiven_relocate (add_right_injective base)]
    by_cases hassigned : ∃ leaf, call.leaf = some leaf ∧ ⟨addr - base, i⟩ ∈ leaf.bits
    · obtain ⟨leaf, hleaf, hb⟩ := hassigned
      refine .inr (CruCall.lastGiven_events (b := ⟨addr - base, i⟩) hi fun leaf' hleaf' => ?_)
      refine Leaf.bits_disjoint ?_ hb
      rintro rfl
      exact hne (hleaf.trans hleaf'.symm)
    · refine .inl (CruCall.lastGiven_events (b := ⟨addr - base, i⟩) hi fun leaf hleaf hb => ?_)
      exact hassigned ⟨leaf, hleaf, hb⟩
  rw [cruAfter_eq, cruAfter_eq]
  simp only [List.flatMap_append, List.flatMap_cons, List.flatMap_nil, List.append_nil,
    List.map_append]
  rw [after_append regs, after_append regs]
  exact after_comm _ hcomm

theorem gates_closed {call : CruCall} {pre post : List (BusEvent U64 U32)} {word : U32}
    {off : U64}
    (hsplit : ((call.exec (cruInit (some cru) base true).2 (resetInit (some reset) base true).2).run
      reads).events = pre ++ .write word (base + off) :: post)
    {i : ℕ} (hi : i < 16) (hsel : word.getLsbD (16 + i) = true) {leaf : Leaf}
    (hfield : ⟨off, i⟩ ∈ leaf.fields) {g : CruBit} (hg : g ∈ leaf.gates) :
    (after regs pre (base + g.offset)).getLsbD g.bit = true := by
  obtain ⟨hevents, -⟩ := call.run_exec base reads
  obtain ⟨pre', rest, hcall, rfl, hrest⟩ := List.map_eq_append_iff.mp (hevents.symm.trans hsplit)
  obtain ⟨e, post', rfl, he, -⟩ := List.map_eq_cons_iff.mp hrest
  have hselected : ⟨off, i⟩ ∈ selected e := by
    cases e with
    | write word' off' =>
      obtain ⟨rfl, hoff⟩ := BusEvent.write.inj he
      obtain rfl : off' = off := add_left_cancel hoff
      exact List.mem_filterMap.mpr ⟨i, List.mem_range.mpr hi, by rw [if_pos hsel]⟩
    | read => cases he
    | delay => cases he
    | expire => cases he
  have hmem : e ∈ call.events := hcall ▸ List.mem_append_right pre' List.mem_cons_self
  cases hleaf : call.leaf with
  | none =>
    rw [CruCall.events_of_rejected hleaf] at hmem
    cases hmem
  | some leaf' =>
    have hbits := leaf.mem_bits_of_fields hfield
    obtain rfl : leaf = leaf' := by
      by_contra hne
      exact Leaf.bits_disjoint hne hbits (CruCall.selected_subset hleaf e hmem _ hselected)
    obtain hnone | hclosed := CruCall.gates_closed_first hleaf pre'.length (by simp [hcall])
    · exact absurd hfield (hnone _ (by simpa [hcall] using hselected))
    · have hlast := hclosed g hg
      rw [hcall, List.take_left] at hlast
      have hlt := Leaf.bit_lt (leaf.mem_bits_of_gates hg)
      rw [getLsbD_after regs hlt, lastGiven_relocate (add_right_injective base), hlast]
      rfl

end After

/-- The leaf trees are isolated from the rest of the CRU and from each other. -/
theorem cru_leaf_trees_isolated (cru : Cru) (reset : ResetController) (base : U64)
    (reads : Stream' U32) (regs : U64 → BitVec 16) (calls : List CruCall) :
    -- only assigned bits change
    (∀ addr, ∀ i < 16, (∀ leaf : Leaf, ⟨addr - base, i⟩ ∉ leaf.bits) →
      (cruAfter cru reset base reads regs calls addr).getLsbD i = (regs addr).getLsbD i) ∧
    -- the bits of a peripheral are up to their contents and the calls for it
    (∀ (leaf : Leaf) regs' calls',
      (∀ b ∈ leaf.bits, (regs' (base + b.offset)).getLsbD b.bit =
        (regs (base + b.offset)).getLsbD b.bit) →
      calls'.filter (·.leaf = some leaf) = calls.filter (·.leaf = some leaf) →
      ∀ b ∈ leaf.bits,
        (cruAfter cru reset base reads regs' calls' (base + b.offset)).getLsbD b.bit =
          (cruAfter cru reset base reads regs calls (base + b.offset)).getLsbD b.bit) ∧
    (∀ call call' : CruCall, call.leaf ≠ call'.leaf →
      cruAfter cru reset base reads regs (calls ++ [call, call']) =
        cruAfter cru reset base reads regs (calls ++ [call', call])) ∧
    -- the next call writes to a mux or a divider only behind closed gates
    (∀ (call : CruCall) pre word off post, ∀ i < 16, ∀ leaf : Leaf,
      ((call.exec (cruInit (some cru) base true).2 (resetInit (some reset) base true).2).run
        reads).events = pre ++ .write word (base + off) :: post →
      word.getLsbD (16 + i) = true → ⟨off, i⟩ ∈ leaf.fields → ∀ g ∈ leaf.gates,
        (after (cruAfter cru reset base reads regs calls) pre (base + g.offset)).getLsbD g.bit =
          true) ∧
    (∀ (peripheral : Reset) (leaf : Leaf), peripheral.leaf = some leaf → ∀ b ∈ leaf.resets,
      (cruAfter cru reset base reads regs (calls ++ [.resetPulse peripheral])
        (base + b.offset)).getLsbD b.bit = false) := by
  refine ⟨?_, ?_, ?_, ?_, ?_⟩
  · intro addr i hi h
    exact cruAfter_unassigned cru reset base reads regs calls hi h
  · intro leaf regs' calls' hregs hcalls b hb
    rw [cruAfter_bit _ _ _ _ _ _ (Leaf.bit_lt hb), cruAfter_bit _ _ _ _ _ _ (Leaf.bit_lt hb),
      lastGiven_flatMap hb calls', hcalls, ← lastGiven_flatMap hb calls, hregs b hb]
  · intro call call' hne
    exact cruAfter_comm cru reset base reads regs calls hne
  · intro call pre word off post i hi leaf hsplit hsel hfield g hg
    exact gates_closed cru reset base reads _ hsplit hi hsel hfield hg
  · intro peripheral leaf hleaf b hb
    have hlast := CruCall.resets_deasserted hleaf b hb
    rw [cruAfter_bit _ _ _ _ _ _ (Leaf.bit_lt (leaf.mem_bits_of_resets hb)), List.flatMap_append,
      lastGiven_append, List.flatMap_singleton, hlast]
    rfl

end Lzamp.Cpu3
