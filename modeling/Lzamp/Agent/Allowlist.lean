import Lzamp.Agent.Decision

namespace Lzamp.Agent
open Lib Lib.PyText Lib.PyJson

/-- A value that a rule admits. -/
def FieldOk : Rule → Json → Prop
  | .integer enum minimum maximum, value => ∃ n, value = .int n ∧
      (∀ allowed ∈ enum, n ∈ allowed) ∧ (∀ m ∈ minimum, m ≤ n) ∧ ∀ m ∈ maximum, n ≤ m
  | .string enum maxLength, value => ∃ s, value = .str s ∧
      (∀ m ∈ maxLength, s.length ≤ m) ∧ ∀ allowed ∈ enum, s ∈ allowed.map str

/-- The arguments are those of the tool's schema, in its order. -/
def Fits (tool : Tool) (arguments : List (Str × Json)) : Prop :=
  List.Forall₂ (fun property argument => argument.1 = str property.1 ∧ FieldOk property.2 argument.2)
    tool.properties arguments

def isLowerHex (c : CodePoint) : Bool := isDigit c || (ch 'a' ≤ c && c ≤ ch 'f')

/-- Lower-case hexadecimal digits for `low` to `high` whole bytes. -/
structure LowerHex (low high : ℕ) (s : Str) : Prop where
  digits : ∀ c ∈ s, isLowerHex c = true
  whole : s.length % 2 = 0
  low_le : low ≤ s.length / 2
  le_high : s.length / 2 ≤ high

/-- What a tool promises beyond its schema. -/
def Refined (tool : Tool) (arguments : List (Str × Json)) : Prop :=
  match tool with
  | .increment => ∃ n, lookup arguments "value" = some (.int n) ∧ n ≤ 0xfffffffe
  | .i2cWrite | .spiTransfer => ∃ s, lookup arguments "data_hex" = some (.str s) ∧ LowerHex 1 8 s
  | .i2cWriteRead => ∃ s, lookup arguments "prefix_hex" = some (.str s) ∧ LowerHex 1 3 s
  | .uartWrite => ∃ s bytes, lookup arguments "data" = some (.str s) ∧ encodeUtf8 s = some bytes ∧
      1 ≤ bytes.length ∧ bytes.length ≤ 8
  | .pwmSet => ∃ duty period, lookup arguments "duty_ns" = some (.int duty) ∧
      lookup arguments "period_ns" = some (.int period) ∧ duty ≤ period
  | _ => True

def Rejects {α : Type} (result : Py α) : Prop := ∃ error, result = .error (.agent error)

theorem rejects_raiseAgent {α : Type} (code message : String) :
    Rejects (raiseAgent code message : Py α) := ⟨_, rfl⟩

theorem lt_getD_iff {o : Option ℤ} {n : ℤ} : n < o.getD n ↔ ∃ m ∈ o, n < m := by
  cases o <;> simp

theorem getD_lt_iff {o : Option ℤ} {n : ℤ} : o.getD n < n ↔ ∃ m ∈ o, m < n := by
  cases o <;> simp

theorem getD_length_lt_iff {o : Option ℕ} {n : ℕ} : o.getD n < n ↔ ∃ m ∈ o, m < n := by
  cases o <;> simp

theorem checkField_cases (field : String) (rule : Rule) (value : Json) :
    (FieldOk rule value ∧ checkField field rule value = .ok ()) ∨
      (¬ FieldOk rule value ∧ Rejects (checkField field rule value)) := by
  cases rule with
  | integer enum minimum maximum =>
    cases value with
    | int n =>
      have hok : FieldOk (.integer enum minimum maximum) (.int n) ↔
          (∀ allowed ∈ enum, n ∈ allowed) ∧ (∀ m ∈ minimum, m ≤ n) ∧ ∀ m ∈ maximum, n ≤ m := by
        simp [FieldOk]
      rw [checkField, hok]
      split_ifs with henum hrange
      · right
        obtain ⟨allowed, hmem, hn⟩ := henum
        exact ⟨fun h => hn (h.1 allowed hmem), rejects_raiseAgent _ _⟩
      · right
        rw [lt_getD_iff, getD_lt_iff] at hrange
        refine ⟨fun h => ?_, rejects_raiseAgent _ _⟩
        rcases hrange with ⟨m, hm, hlt⟩ | ⟨m, hm, hlt⟩
        · exact absurd (h.2.1 m hm) (by omega)
        · exact absurd (h.2.2 m hm) (by omega)
      · left
        rw [lt_getD_iff, getD_lt_iff] at hrange
        push Not at henum hrange
        exact ⟨⟨henum, hrange.1, hrange.2⟩, rfl⟩
    | _ =>
      right
      refine ⟨?_, rejects_raiseAgent _ _⟩
      rintro ⟨n, h, -⟩
      cases h
  | string enum maxLength =>
    cases value with
    | str s =>
      have hok : FieldOk (.string enum maxLength) (.str s) ↔
          (∀ m ∈ maxLength, s.length ≤ m) ∧ ∀ allowed ∈ enum, s ∈ allowed.map str := by
        simp [FieldOk]
      rw [checkField, hok]
      split_ifs with hlength henum
      · right
        rw [getD_length_lt_iff] at hlength
        obtain ⟨m, hm, hlt⟩ := hlength
        exact ⟨fun h => absurd (h.1 m hm) (by omega), rejects_raiseAgent _ _⟩
      · right
        obtain ⟨allowed, hmem, hs⟩ := henum
        exact ⟨fun h => hs (h.2 allowed hmem), rejects_raiseAgent _ _⟩
      · left
        rw [getD_length_lt_iff] at hlength
        push Not at hlength henum
        exact ⟨⟨hlength, henum⟩, rfl⟩
    | _ =>
      right
      refine ⟨?_, rejects_raiseAgent _ _⟩
      rintro ⟨s, h, -⟩
      cases h

theorem checkField_ok {field : String} {rule : Rule} {value : Json}
    (h : checkField field rule value = .ok ()) : FieldOk rule value := by
  rcases checkField_cases field rule value with ⟨hok, -⟩ | ⟨-, error, herror⟩
  · exact hok
  · rw [h] at herror
    cases herror

theorem requireFields_ok {arguments : List (Str × Json)} {fields : List String}
    (h : requireFields arguments fields = .ok ()) :
    ∀ field ∈ fields, (lookup arguments field).isSome := by
  induction fields with
  | nil => simp
  | cons field fields ih =>
    rw [requireFields] at h
    split_ifs at h with hnone
    · cases h
    · intro f hf
      rcases List.mem_cons.mp hf with rfl | hf
      · simpa [Option.isSome_iff_ne_none] using hnone
      · exact ih h f hf

/-- With every property present, the loop keeps the properties in their order. -/
theorem normalizeFields_ok {arguments normalized : List (Str × Json)}
    {properties : List (String × Rule)}
    (hall : ∀ property ∈ properties, (lookup arguments property.1).isSome)
    (h : normalizeFields arguments properties = .ok normalized) :
    List.Forall₂ (fun property argument => argument.1 = str property.1 ∧
      FieldOk property.2 argument.2) properties normalized := by
  induction properties generalizing normalized with
  | nil =>
    cases h
    exact .nil
  | cons property properties ih =>
    obtain ⟨field, rule⟩ := property
    rw [normalizeFields] at h
    split at h
    · rename_i hnone
      have := hall _ List.mem_cons_self
      simp [hnone] at this
    · obtain ⟨_, hcheck, h⟩ := bind_eq_ok.mp h
      obtain ⟨rest, hrest, h⟩ := bind_eq_ok.mp h
      cases h
      exact .cons ⟨rfl, checkField_ok hcheck⟩
        (ih (fun p hp => hall p (List.mem_cons_of_mem _ hp)) hrest)

theorem required_eq_properties (tool : Tool) : tool.required = tool.properties.map (·.1) := by
  cases tool <;> rfl

theorem isLowerHex_iff {c : CodePoint} : isLowerHex c = true ↔
    (48 ≤ c.val ∧ c.val ≤ 57) ∨ (97 ≤ c.val ∧ c.val ≤ 102) := by
  simp only [isLowerHex, isDigit, Bool.or_eq_true, Bool.and_eq_true, decide_eq_true_eq]
  exact Iff.rfl

theorem isAsciiSpace_iff {c : CodePoint} : isAsciiSpace c = true ↔
    (9 ≤ c.val ∧ c.val ≤ 13) ∨ c.val = 32 := by
  simp only [isAsciiSpace, Bool.or_eq_true, Bool.and_eq_true, decide_eq_true_eq, beq_iff_eq,
    Fin.ext_iff]
  exact Iff.rfl

theorem isLowerHex_lowerAscii {c : CodePoint} (h : (hexValue c).isSome = true) :
    isLowerHex (lowerAscii c) = true := by
  rw [hexValue_isSome_iff] at h
  have hupper : isUpper c = true ↔ 65 ≤ c.val ∧ c.val ≤ 90 := by
    simp only [isUpper, Bool.and_eq_true, decide_eq_true_eq]
    exact Iff.rfl
  rw [isLowerHex_iff, lowerAscii]
  split_ifs with hc
  · rw [hupper] at hc
    have hval : (c + 32 : CodePoint).val = c.val + 32 := by
      rw [Fin.val_add]
      exact Nat.mod_eq_of_lt (by change c.val + 32 < _; omega)
    omega
  · rw [hupper] at hc
    omega

theorem validateHex_ok {py : Interpreter} {value result : Str} {field : String} {low high : ℕ}
    (h : validateHex py value field low high = .ok result) :
    LowerHex low high result ∧ result.length = value.length := by
  unfold validateHex at h
  split_ifs at h with hform hsize
  · cases h
  · cases h
  · cases h
    push Not at hform hsize
    obtain ⟨hwhole, hdigits⟩ := hform
    rw [List.all_eq_true] at hdigits
    have hascii : ∀ c ∈ value, c < 128 := by
      intro c hc
      have := hexValue_isSome_iff.mp (hdigits c hc)
      change c.val < 128
      omega
    rw [py.lower_ascii value hascii]
    refine ⟨⟨?_, by simpa using hwhole, by simpa using hsize.1, by simpa using hsize.2⟩, by simp⟩
    intro c hc
    obtain ⟨d, hd, rfl⟩ := List.mem_map.mp hc
    exact isLowerHex_lowerAscii (hdigits d hd)

theorem fromHex_ok {n : ℕ} {s : Str} (hlength : s.length = 2 * n)
    (h : ∀ c ∈ s, isLowerHex c = true) : ∃ bytes, fromHex s = some bytes ∧ bytes.length = n := by
  induction n generalizing s with
  | zero =>
    rw [List.length_eq_zero_iff.mp hlength]
    exact ⟨[], rfl, rfl⟩
  | succ n ih =>
    match s, hlength with
    | a :: b :: s, hlength =>
      have hdigit (c : CodePoint) (hc : isLowerHex c = true) :
          isAsciiSpace c = false ∧ (hexValue c).isSome = true := by
        rw [isLowerHex_iff] at hc
        rw [Bool.eq_false_iff, ne_eq, isAsciiSpace_iff, hexValue_isSome_iff]
        omega
      obtain ⟨hspace, ha⟩ := hdigit a (h a (by simp))
      obtain ⟨-, hb⟩ := hdigit b (h b (by simp))
      obtain ⟨high, hhigh⟩ := Option.isSome_iff_exists.mp ha
      obtain ⟨low, hlow⟩ := Option.isSome_iff_exists.mp hb
      obtain ⟨bytes, hbytes, hcount⟩ := ih (s := s) (by simp at hlength; omega)
        fun c hc => h c (by simp [hc])
      refine ⟨BitVec.ofNat 8 (16 * high + low) :: bytes, ?_, by simp [hcount]⟩
      rw [fromHex, hspace, hhigh, hlow, hbytes]
      rfl

section Fits

variable {tool : Tool} {arguments : List (Str × Json)}

theorem nodup_properties (tool : Tool) : (tool.properties.map fun p => str p.1).Nodup := by
  cases tool <;> simp [Tool.properties]

theorem lookup_of_forall₂ {properties : List (String × Rule)}
    (h : List.Forall₂ (fun property argument => argument.1 = str property.1 ∧
      FieldOk property.2 argument.2) properties arguments)
    (hnodup : (properties.map fun p => str p.1).Nodup) {field : String} {rule : Rule}
    (hmem : (field, rule) ∈ properties) :
    ∃ value, lookup arguments field = some value ∧ FieldOk rule value := by
  induction h with
  | nil => cases hmem
  | @cons property argument properties arguments hhead _ ih =>
    rw [List.map_cons, List.nodup_cons] at hnodup
    rcases List.mem_cons.mp hmem with rfl | hmem
    · exact ⟨argument.2, by simp [lookup, hhead.1], hhead.2⟩
    · obtain ⟨value, hvalue, hok⟩ := ih hnodup.2 hmem
      have hne : ¬ argument.1 = str field := by
        rw [hhead.1]
        intro heq
        exact hnodup.1 (heq ▸ List.mem_map.mpr ⟨_, hmem, rfl⟩)
      exact ⟨value, by simpa [lookup, hne] using hvalue, hok⟩

theorem Fits.intItem (h : Fits tool arguments) {field : String} {enum : Option (List ℤ)}
    {minimum maximum : Option ℤ} (hmem : (field, .integer enum minimum maximum) ∈ tool.properties) :
    ∃ n, Agent.intItem arguments field = .ok n ∧
      (∀ allowed ∈ enum, n ∈ allowed) ∧ (∀ m ∈ minimum, m ≤ n) ∧ ∀ m ∈ maximum, n ≤ m := by
  obtain ⟨value, hvalue, n, rfl, hn⟩ := lookup_of_forall₂ h (nodup_properties tool) hmem
  exact ⟨n, by rw [Agent.intItem, hvalue]; rfl, hn⟩

theorem Fits.strItem (h : Fits tool arguments) (field : String) {enum : Option (List String)}
    {maxLength : Option ℕ} (hmem : (field, .string enum maxLength) ∈ tool.properties) :
    ∃ s, Agent.strItem arguments field = pure s := by
  obtain ⟨value, hvalue, s, rfl, -⟩ := lookup_of_forall₂ h (nodup_properties tool) hmem
  exact ⟨s, by rw [Agent.strItem, hvalue]⟩

theorem strItem_ok {field : String} {s : Str} (h : strItem arguments field = .ok s) :
    lookup arguments field = some (.str s) := by
  unfold strItem at h
  split at h
  · cases h
  · rename_i hs
    cases h
    exact hs
  · cases h

theorem intItem_ok {field : String} {n : ℤ} (h : intItem arguments field = .ok n) :
    lookup arguments field = some (.int n) := by
  unfold intItem at h
  split at h
  · cases h
  · rename_i hs
    cases h
    exact hs
  · cases h

theorem lookup_dictSet (arguments : List (Str × Json)) (field : String) (value : Json) :
    lookup (dictSet arguments (str field) value) field = some value := by
  rw [lookup, find?_dictSet]
  rfl

theorem forall₂_dictSet {properties : List (String × Rule)}
    (h : List.Forall₂ (fun property argument => argument.1 = str property.1 ∧
      FieldOk property.2 argument.2) properties arguments) {key : Str} {value : Json}
    (hhas : arguments.any (·.1 = key) = true)
    (hvalue : ∀ p ∈ properties, str p.1 = key → FieldOk p.2 value) :
    List.Forall₂ (fun property argument => argument.1 = str property.1 ∧
      FieldOk property.2 argument.2) properties (dictSet arguments key value) := by
  rw [dictSet, if_pos hhas, List.forall₂_map_right_iff]
  clear hhas
  induction h with
  | nil => exact .nil
  | @cons property argument properties arguments hhead _ ih =>
    refine .cons ?_ (ih fun p hp => hvalue p (List.mem_cons_of_mem _ hp))
    split_ifs with hkey
    · exact ⟨hkey.symm.trans hhead.1, hvalue property List.mem_cons_self (hhead.1.symm.trans hkey)⟩
    · exact hhead

end Fits

theorem normalizeHex_ok {py : Interpreter} {tool : Tool} {field : String} {low high : ℕ}
    {normalized arguments : List (Str × Json)} (hfits : Fits tool normalized)
    (hrule : ∀ p ∈ tool.properties, str p.1 = str field →
      p.2 = .string none (some (2 * high)))
    (h : normalizeHex py field low high normalized = .ok arguments) :
    Fits tool arguments ∧ ∃ s, lookup arguments field = some (.str s) ∧ LowerHex low high s := by
  obtain ⟨value, hvalue, h⟩ := bind_eq_ok.mp h
  obtain ⟨result, hresult, h⟩ := bind_eq_ok.mp h
  cases h
  obtain ⟨hhex, -⟩ := validateHex_ok hresult
  obtain ⟨a, ha, -⟩ := Option.map_eq_some_iff.mp (strItem_ok hvalue)
  have hkey : decide (a.1 = str field) = true := by
    simpa using List.find?_some ha
  have hhas : normalized.any (·.1 = str field) = true :=
    List.any_eq_true.mpr ⟨a, List.mem_of_find?_eq_some ha, hkey⟩
  refine ⟨forall₂_dictSet hfits hhas fun p hp hkey => ?_, result, lookup_dictSet _ _ _, hhex⟩
  rw [hrule p hp hkey]
  refine ⟨result, rfl, fun m hm => ?_, nofun⟩
  cases hm
  have := hhex.le_high
  have := hhex.whole
  omega

theorem finishArguments_ok {py : Interpreter} {tool : Tool} (hne : tool ≠ .increment)
    {normalized arguments : List (Str × Json)} (hfits : Fits tool normalized)
    (h : finishArguments py tool normalized = .ok arguments) :
    Fits tool arguments ∧ Refined tool arguments := by
  cases tool with
  | increment => exact absurd rfl hne
  | i2cWrite =>
    refine normalizeHex_ok hfits ?_ h
    simp only [Tool.properties, List.forall_mem_cons]
    exact ⟨fun h => absurd h (by simp), fun _ => trivial, by simp⟩
  | spiTransfer =>
    refine normalizeHex_ok hfits ?_ h
    simp only [Tool.properties, List.forall_mem_cons]
    exact ⟨fun h => absurd h (by simp), fun h => absurd h (by simp), fun _ => trivial, by simp⟩
  | i2cWriteRead =>
    refine normalizeHex_ok hfits ?_ h
    simp only [Tool.properties, List.forall_mem_cons]
    exact ⟨fun h => absurd h (by simp), fun _ => trivial, fun h => absurd h (by simp), by simp⟩
  | uartWrite =>
    obtain ⟨data, hdata, h⟩ := bind_eq_ok.mp h
    split at h
    · cases h
    · rename_i encoded hencoded
      split_ifs at h with hsize
      · cases h
      · cases h
        push Not at hsize
        exact ⟨hfits, data, encoded, strItem_ok hdata, hencoded,
          List.length_pos_of_ne_nil hsize.1, hsize.2⟩
  | pwmSet =>
    obtain ⟨duty, hduty, h⟩ := bind_eq_ok.mp h
    obtain ⟨period, hperiod, h⟩ := bind_eq_ok.mp h
    split_ifs at h with hlt
    · cases h
    · cases h
      exact ⟨hfits, duty, period, intItem_ok hduty, intItem_ok hperiod, by omega⟩
  | _ =>
    cases h
    exact ⟨hfits, trivial⟩

theorem validateIncrement_ok {arguments : Json} {d : Decision}
    (h : validateIncrement arguments = .ok d) :
    d.name = str Tool.increment.name ∧ Fits .increment d.arguments ∧
      Refined .increment d.arguments := by
  obtain ⟨fields, -, h⟩ := bind_eq_ok.mp h
  split at h
  · cases h
  · rename_i n hn
    split_ifs at h with hrange
    · cases h
    · cases h
      push Not at hrange
      have hle : n ≤ 4294967294 := by omega
      exact ⟨rfl, .cons ⟨rfl, n, rfl, nofun, by simpa using hrange.1, by simpa using hle⟩ .nil, n, rfl,
        by omega⟩
  · cases h

/-- What a validated decision is. -/
theorem validateDecision_ok {py : Interpreter} {decision : Json} {d : Decision}
    (h : validateDecision py decision = .ok d) :
    ∃ tool, d.name = str tool.name ∧ Fits tool d.arguments ∧ Refined tool d.arguments := by
  obtain ⟨fields, -, h⟩ := bind_eq_ok.mp h
  obtain ⟨tool, -, h⟩ := bind_eq_ok.mp h
  unfold validateArguments at h
  split_ifs at h with htool
  · exact ⟨.increment, validateIncrement_ok h⟩
  · obtain ⟨arguments, -, h⟩ := bind_eq_ok.mp h
    obtain ⟨_, hrequired, h⟩ := bind_eq_ok.mp h
    obtain ⟨normalized, hnormalized, h⟩ := bind_eq_ok.mp h
    obtain ⟨finished, hfinished, h⟩ := bind_eq_ok.mp h
    cases h
    have hall : ∀ p ∈ tool.properties, (lookup arguments p.1).isSome := by
      intro p hp
      refine requireFields_ok hrequired p.1 ?_
      rw [required_eq_properties]
      exact List.mem_map_of_mem hp
    exact ⟨tool, rfl, finishArguments_ok htool (normalizeFields_ok hall hnormalized) hfinished⟩

structure PeripheralCall.InRange (call : PeripheralCall) : Prop where
  operation : 0 ≤ call.operation ∧ call.operation < 2 ^ 32
  arg0 : 0 ≤ call.arg0 ∧ call.arg0 < 2 ^ 32
  arg1 : 0 ≤ call.arg1 ∧ call.arg1 < 2 ^ 32
  arg2 : 0 ≤ call.arg2 ∧ call.arg2 < 2 ^ 32
  data : call.data.length ≤ 8

theorem PeripheralCall.InRange.pack_ok {call : PeripheralCall} (h : call.InRange) :
    ∃ record, packPeripheralFrame call.operation call.arg0 call.arg1 call.arg2 call.data = .ok record ∧
      record.length = 48 ∧ unpackU32 record 0 = 1 ∧ unpackU32 record 4 = 11 ∧
      unpackU32 record 12 = 28 := by
  obtain ⟨hop, h0, h1, h2, hdata⟩ := h
  obtain ⟨op, hop'⟩ := Int.eq_ofNat_of_zero_le hop.1
  obtain ⟨arg0, h0'⟩ := Int.eq_ofNat_of_zero_le h0.1
  obtain ⟨arg1, h1'⟩ := Int.eq_ofNat_of_zero_le h1.1
  obtain ⟨arg2, h2'⟩ := Int.eq_ofNat_of_zero_le h2.1
  rw [hop', h0', h1', h2']
  exact ⟨_, packPeripheralFrame_eq (by omega) (by omega) (by omega) (by omega) hdata,
    length_requestRecord _ _ _ _ hdata, rfl, rfl, rfl⟩

theorem toolOfName_name (tool : Tool) : toolOfName (str tool.name) = some tool := by
  cases tool <;> simp [toolOfName, toolSchemas, Tool.name]

theorem Tool.eq_of_name {tool other : Tool} (h : str tool.name = str other.name) :
    tool = other := by
  have hsome : some tool = some other := by
    rw [← toolOfName_name tool, ← toolOfName_name other, h]
  exact Option.some.inj hsome

section Rpc

variable {tool : Tool} {arguments : List (Str × Json)}

theorem Fits.word (h : Fits tool arguments) (field : String) {minimum maximum : ℤ}
    (hmem : (field, integerSchema minimum maximum) ∈ tool.properties) (hmin : 0 ≤ minimum)
    (hmax : maximum < 2 ^ 32) :
    ∃ n, Agent.intItem arguments field = pure n ∧ 0 ≤ n ∧ n < 2 ^ 32 := by
  obtain ⟨n, hn, -, hlow, hhigh⟩ := h.intItem hmem
  have := hlow minimum rfl
  have := hhigh maximum rfl
  exact ⟨n, hn, by omega, by omega⟩

theorem Fits.member (h : Fits tool arguments) (field : String) {allowed : List ℤ}
    (hmem : (field, .integer (some allowed) none none) ∈ tool.properties)
    (hall : ∀ n ∈ allowed, 0 ≤ n ∧ n < 2 ^ 32) :
    ∃ n, Agent.intItem arguments field = pure n ∧ 0 ≤ n ∧ n < 2 ^ 32 := by
  obtain ⟨n, hn, henum, -⟩ := h.intItem hmem
  exact ⟨n, hn, hall n (henum allowed rfl)⟩

theorem hexItem_ok {field : String} {low high : ℕ} {s : Str}
    (h : lookup arguments field = some (.str s)) (hhex : LowerHex low high s) :
    ∃ bytes, hexItem arguments field = pure bytes ∧ bytes.length ≤ high := by
  obtain ⟨bytes, hbytes, hcount⟩ := fromHex_ok (n := s.length / 2)
    (by have := hhex.whole; omega) hhex.digits
  refine ⟨bytes, ?_, hcount.trans_le hhex.le_high⟩
  have hitem : strItem arguments field = pure s := by
    rw [strItem, h]
  rw [hexItem, hitem, pure_bind, hbytes]

theorem lines_in_range : ∀ n ∈ gpioReadLines, 0 ≤ n ∧ n < 2 ^ 32 := by decide

theorem ports_in_range : ∀ n ∈ uartPorts, 0 ≤ n ∧ n < 2 ^ 32 := by decide

theorem peripheralArguments_ok (hne : tool ≠ .increment ∧ tool ≠ .imuRead)
    (hfits : Fits tool arguments) (hrefined : Refined tool arguments) :
    ∃ call, peripheralArguments (str tool.name) arguments = .ok call ∧ call.InRange := by
  have hzero : (0 : ℤ) ≤ 0 ∧ (0 : ℤ) < 2 ^ 32 := by decide
  have hop (n : ℕ) (h : n ≤ 12) : (0 : ℤ) ≤ n ∧ (n : ℤ) < 2 ^ 32 := by omega
  have hnone : ([] : List U8).length ≤ 8 := Nat.zero_le 8
  unfold peripheralArguments
  rw [toolOfName_name]
  -- what a field may be after the schema is what the four words and the data can hold
  cases tool with
  | increment => exact absurd rfl hne.1
  | imuRead => exact absurd rfl hne.2
  | gpioConfig =>
    obtain ⟨line, hline, h0⟩ := hfits.member "line" (.head _) lines_in_range
    obtain ⟨direction, hdirection⟩ := hfits.strItem "direction" (.tail _ (.head _))
    obtain ⟨value, hvalue, h2⟩ := hfits.word "value" (.tail _ (.tail _ (.head _))) le_rfl (by decide)
    simp only [hline, hdirection, hvalue, pure_bind]
    refine ⟨_, rfl, hop 1 (by decide), h0, ?_, h2, hnone⟩
    dsimp only
    -- direction is 1 for output and 0 for anything else
    split_ifs <;> decide
  | gpioWrite =>
    obtain ⟨line, hline, h0⟩ := hfits.member "line" (.head _) lines_in_range
    obtain ⟨value, hvalue, h1⟩ := hfits.word "value" (.tail _ (.head _)) le_rfl (by decide)
    simp only [hline, hvalue, pure_bind]
    exact ⟨_, rfl, hop 2 (by decide), h0, h1, hzero, hnone⟩
  | gpioRead =>
    obtain ⟨line, hline, h0⟩ := hfits.member "line" (.head _) lines_in_range
    simp only [hline, pure_bind]
    exact ⟨_, rfl, hop 3 (by decide), h0, hzero, hzero, hnone⟩
  | uartWrite =>
    obtain ⟨port, hport, h0⟩ := hfits.member "port" (.head _) ports_in_range
    obtain ⟨s, bytes, hs, hbytes, -, hle⟩ := hrefined
    have hdata : strItem arguments "data" = pure s := by
      rw [strItem, hs]
    simp only [hport, hdata, pure_bind, hbytes]
    exact ⟨_, rfl, hop 4 (by decide), h0, hzero, hzero, hle⟩
  | uartRead =>
    obtain ⟨port, hport, h0⟩ := hfits.member "port" (.head _) ports_in_range
    obtain ⟨length, hlength, h1⟩ := hfits.word "length" (.tail _ (.head _)) (by decide) (by decide)
    simp only [hport, hlength, pure_bind]
    exact ⟨_, rfl, hop 5 (by decide), h0, h1, hzero, hnone⟩
  | i2cWrite =>
    obtain ⟨address, haddress, h0⟩ := hfits.word "address" (.head _) le_rfl (by decide)
    obtain ⟨s, hs, hhex⟩ := hrefined
    obtain ⟨bytes, hbytes, hle⟩ := hexItem_ok hs hhex
    simp only [haddress, hbytes, pure_bind]
    exact ⟨_, rfl, hop 6 (by decide), h0, hzero, hzero, hle⟩
  | i2cRead =>
    obtain ⟨address, haddress, h0⟩ := hfits.word "address" (.head _) le_rfl (by decide)
    obtain ⟨length, hlength, h1⟩ := hfits.word "length" (.tail _ (.head _)) (by decide) (by decide)
    simp only [haddress, hlength, pure_bind]
    exact ⟨_, rfl, hop 7 (by decide), h0, h1, hzero, hnone⟩
  | i2cWriteRead =>
    obtain ⟨address, haddress, h0⟩ := hfits.word "address" (.head _) le_rfl (by decide)
    obtain ⟨length, hlength, h1⟩ :=
      hfits.word "length" (.tail _ (.tail _ (.head _))) (by decide) (by decide)
    obtain ⟨s, hs, hhex⟩ := hrefined
    obtain ⟨bytes, hbytes, hle⟩ := hexItem_ok hs hhex
    simp only [haddress, hlength, hbytes, pure_bind]
    exact ⟨_, rfl, hop 8 (by decide), h0, h1, hzero, hle.trans (by decide)⟩
  | spiTransfer =>
    obtain ⟨chipSelect, hselect, h0⟩ := hfits.word "chip_select" (.head _) le_rfl (by decide)
    obtain ⟨mode, hmode, h1⟩ := hfits.word "mode" (.tail _ (.head _)) le_rfl (by decide)
    obtain ⟨s, hs, hhex⟩ := hrefined
    obtain ⟨bytes, hbytes, hle⟩ := hexItem_ok hs hhex
    simp only [hselect, hmode, hbytes, pure_bind]
    exact ⟨_, rfl, hop 9 (by decide), h0, h1, hzero, hle⟩
  | pwmSet =>
    obtain ⟨period, hperiod, h0⟩ := hfits.word "period_ns" (.head _) (by decide) (by decide)
    obtain ⟨duty, hduty, h1⟩ := hfits.word "duty_ns" (.tail _ (.head _)) le_rfl (by decide)
    obtain ⟨polarity, hpolarity, h2⟩ :=
      hfits.word "polarity" (.tail _ (.tail _ (.head _))) le_rfl (by decide)
    simp only [hperiod, hduty, hpolarity, pure_bind]
    exact ⟨_, rfl, hop 10 (by decide), h0, h1, h2, hnone⟩
  | pwmStop => exact ⟨_, rfl, hop 11 (by decide), hzero, hzero, hzero, hnone⟩
  | adcRead =>
    obtain ⟨channel, hchannel, h0⟩ := hfits.word "channel" (.head _) le_rfl (by decide)
    simp only [hchannel, pure_bind]
    exact ⟨_, rfl, hop 12 (by decide), h0, hzero, hzero, hnone⟩

end Rpc

theorem Fits.names {tool : Tool} {arguments : List (Str × Json)} (h : Fits tool arguments) :
    arguments.map (·.1) = tool.required.map str := by
  rw [required_eq_properties, List.map_map]
  unfold Fits at h
  generalize tool.properties = properties at h
  induction h with
  | nil => rfl
  | cons hhead _ ih => rw [List.map_cons, List.map_cons, ih, hhead.1, Function.comp_apply]

theorem mem_allowedTools (tool : Tool) : str tool.name ∈ allowedTools := by
  apply List.mem_map_of_mem
  cases tool <;> decide

theorem parse_decision_sound (py : Interpreter) (text : Str) (d : Decision)
    (h : parseDecision py text = .ok d) :
    ∃ tool : Tool, d.name = str tool.name ∧ d.name ∈ allowedTools ∧
      d.arguments.map (·.1) = tool.required.map str ∧ Fits tool d.arguments ∧
      Refined tool d.arguments ∧
      (tool ≠ .increment ∧ tool ≠ .imuRead → ∃ call record,
        peripheralArguments d.name d.arguments = .ok call ∧
        packPeripheralFrame call.operation call.arg0 call.arg1 call.arg2 call.data = .ok record ∧
        record.length = 48 ∧ unpackU32 record 0 = 1 ∧ unpackU32 record 4 = 11 ∧
        unpackU32 record 12 = 28) := by
  obtain ⟨decision, -, hvalidate⟩ := bind_eq_ok.mp h
  obtain ⟨tool, hname, hfits, hrefined⟩ := validateDecision_ok hvalidate
  refine ⟨tool, hname, hname ▸ mem_allowedTools tool, hfits.names, hfits, hrefined, fun hrpc => ?_⟩
  obtain ⟨call, hcall, hrange⟩ := peripheralArguments_ok hrpc hfits hrefined
  obtain ⟨record, hrecord, hform⟩ := hrange.pack_ok
  rw [hname]
  exact ⟨call, record, hcall, hrecord, hform⟩

/-- An interpreter that lowers ASCII only, with the default limit on integers. -/
def asciiInterpreter : Interpreter :=
  ⟨fun s => s.map lowerAscii, fun _ _ => rfl, 4300, by decide⟩

/-- A read of ADC channel 3. -/
def adcDecision : Str := str "\x7b\"name\":\"zephyr_adc_read\",\"arguments\":\x7b\"channel\":3\x7d\x7d"

theorem parse_decision_sound_adc : ∃ d, parseDecision asciiInterpreter adcDecision = .ok d ∧
    ∃ tool : Tool, d.name = str tool.name ∧ Fits tool d.arguments := by
  have hok : (parseDecision asciiInterpreter adcDecision).toBool = true := by decide +kernel
  cases h : parseDecision asciiInterpreter adcDecision with
  | error e =>
    rw [h] at hok
    cases hok
  | ok d =>
    obtain ⟨tool, hname, -, -, hfits, -⟩ := parse_decision_sound asciiInterpreter adcDecision d h
    exact ⟨d, rfl, tool, hname, hfits⟩

end Lzamp.Agent
