import Mathlib.Data.List.TakeWhile
import Lzamp.Lib.PyJson

namespace Lzamp.Lib.PyJson
open PyText Matching

/-- No object in the value has a key twice. -/
inductive Json.Distinct : Json → Prop
  | null : Distinct .null
  | bool (b : Bool) : Distinct (.bool b)
  | int (n : ℤ) : Distinct (.int n)
  | float (literal : Str) : Distinct (.float literal)
  | str (s : Str) : Distinct (.str s)
  | arr {items : List Json} (h : ∀ v ∈ items, Distinct v) : Distinct (.arr items)
  | obj {fields : List (Str × Json)} (hkeys : (fields.map (·.1)).Nodup)
      (h : ∀ f ∈ fields, Distinct f.2) : Distinct (.obj fields)

theorem nodup_dictSet {fields : List (Str × Json)} (h : (fields.map (·.1)).Nodup) (key : Str)
    (value : Json) : ((dictSet fields key value).map (·.1)).Nodup := by
  unfold dictSet
  split_ifs with hany
  · have hmap : (fields.map fun f => if f.1 = key then (key, value) else f).map (·.1) =
        fields.map (·.1) := by
      rw [List.map_map]
      refine List.map_congr_left fun f _ => ?_
      rw [Function.comp_apply]
      split_ifs with hf
      · exact hf.symm
      · rfl
    rw [hmap]
    exact h
  · rw [List.map_append]
    refine h.append (List.nodup_singleton _) ?_
    intro k hk hk'
    obtain ⟨f, hf, rfl⟩ := List.mem_map.mp hk
    exact hany (List.any_eq_true.mpr ⟨f, hf, by simpa using hk'⟩)

theorem mem_dictSet {fields : List (Str × Json)} {key : Str} {value : Json} {f : Str × Json}
    (h : f ∈ dictSet fields key value) : f ∈ fields ∨ f.2 = value := by
  unfold dictSet at h
  split_ifs at h
  · obtain ⟨g, hg, rfl⟩ := List.mem_map.mp h
    split_ifs
    · exact .inr rfl
    · exact .inl hg
  · rcases List.mem_append.mp h with h | h
    · exact .inl h
    · exact .inr (by rw [List.mem_singleton.mp h])

theorem scanLeaf_distinct {py : Interpreter} {s : Str} {r : Json × Str}
    (h : scanLeaf py s = .ok r) : r.1.Distinct := by
  unfold scanLeaf at h
  split at h
  · rename_i r' hr'
    cases h
    obtain ⟨c, hc, hlit⟩ := List.exists_of_findSome?_eq_some hr'
    obtain ⟨t, -, ht⟩ := lit_eq_some.mp hlit
    cases ht
    simp only [constants, List.mem_cons, List.not_mem_nil, or_false] at hc
    rcases hc with rfl | rfl | rfl | rfl | rfl | rfl
    · exact .null
    · exact .bool true
    · exact .bool false
    · exact .float _
    · exact .float _
    · exact .float _
  · split at h
    · cases h
    · rename_i number rest _
      obtain ⟨value, hvalue, h⟩ := bind_eq_ok.mp h
      cases h
      unfold NumberText.toJson at hvalue
      split_ifs at hvalue
      · cases hvalue
        exact .int _
      · cases hvalue
        exact .float _

theorem scan_distinct (py : Interpreter) (n : ℕ) :
    (∀ s r, scanOnce py n s = .ok r → r.1.Distinct) ∧
    (∀ s items r, (∀ v ∈ items, v.Distinct) → scanElements py n s items = .ok r → r.1.Distinct) ∧
    (∀ s fields r, (fields.map (·.1)).Nodup → (∀ f ∈ fields, f.2.Distinct) →
      scanMembers py n s fields = .ok r → r.1.Distinct) := by
  induction n with
  | zero => exact ⟨nofun, nofun, nofun⟩
  | succ n ih =>
    obtain ⟨ihOnce, ihElements, ihMembers⟩ := ih
    refine ⟨fun s r h => ?_, fun s items r hitems h => ?_, fun s fields r hkeys hvalues h => ?_⟩
    · rw [scanOnce] at h
      split at h
      · split at h
        · cases h
        · cases h
          exact .str _
      split at h
      · split at h
        · cases h
          exact .obj List.nodup_nil (by simp)
        · exact ihMembers _ [] _ List.nodup_nil (by simp) h
      split at h
      · split at h
        · cases h
          exact .arr (by simp)
        · exact ihElements _ [] _ (by simp) h
      · exact scanLeaf_distinct h
    · rw [scanElements] at h
      obtain ⟨⟨value, rest⟩, hvalue, h⟩ := bind_eq_ok.mp h
      have hall : ∀ v ∈ items ++ [value], v.Distinct := by
        intro v hv
        rcases List.mem_append.mp hv with hv | hv
        · exact hitems v hv
        · rw [List.mem_singleton.mp hv]
          exact ihOnce _ _ hvalue
      dsimp only at h
      split at h
      · cases h
        exact .arr hall
      · exact ihElements _ _ _ hall h
      · cases h
    · rw [scanMembers] at h
      split at h
      · cases h
      rename_i key t _
      obtain ⟨⟨value, rest⟩, hvalue, h⟩ := bind_eq_ok.mp h
      have hall : ∀ f ∈ dictSet fields key value, f.2.Distinct := by
        intro f hf
        rcases mem_dictSet hf with hf | hf
        · exact hvalues f hf
        · rw [hf]
          exact ihOnce _ _ hvalue
      dsimp only at h
      split at h
      · cases h
        exact .obj (nodup_dictSet hkeys _ _) hall
      · exact ihMembers _ _ _ (nodup_dictSet hkeys _ _) hall h
      · cases h

theorem loads_distinct {py : Interpreter} {s : Str} {value : Json} (h : loads py s = .ok value) :
    value.Distinct := by
  unfold loads at h
  split_ifs at h
  obtain ⟨⟨value', rest⟩, hvalue, h⟩ := bind_eq_ok.mp h
  dsimp only at h
  split_ifs at h
  cases h
  exact (scan_distinct py _).1 _ _ hvalue

theorem Json.Distinct.dictGet {fields : List (Str × Json)} (h : (Json.obj fields).Distinct)
    (key : Str) : (PyJson.dictGet fields key).Distinct := by
  unfold PyJson.dictGet
  cases hfind : fields.find? (·.1 = key) with
  | none => exact .null
  | some f =>
    cases h with
    | obj _ h => exact h f (List.mem_of_find?_eq_some hfind)

def isAlnum (c : CodePoint) : Bool := isDigit c || isUpper c || isLower c

/-- The digits of an integer as JSON spells them. -/
def IsInteger (digits : Str) : Prop :=
  digits = [ch '0'] ∨ ∃ c s, digits = c :: s ∧ c ≠ ch '0' ∧ isDigit c = true ∧
    ∀ d ∈ s, isDigit d = true

def IsExponent (s : Str) : Prop :=
  ∃ e digits, s = e :: digits ∧ (e = ch 'e' ∨ e = ch 'E') ∧ digits ≠ [] ∧
    ∀ d ∈ digits, isDigit d = true

/-- A word that is a JSON number. -/
def SpellsNumber (s : Str) : Prop :=
  ∃ digits tail, s = digits ++ tail ∧ IsInteger digits ∧ (tail = [] ∨ IsExponent tail)

theorem SpellsNumber.head {s : Str} (h : SpellsNumber s) : s.head?.any isDigit = true := by
  obtain ⟨digits, tail, rfl, rfl | ⟨c, s, rfl, -, hc, -⟩, -⟩ := h
  · rfl
  · exact hc

theorem isInteger_decimal (n : ℕ) : IsInteger (decimal n) := by
  rcases decimal_head n with h | ⟨c, s, h, hc⟩
  · exact .inl h
  · have hdigits := isDigit_decimal n
    rw [h] at hdigits
    exact .inr ⟨c, s, h, hc, hdigits c List.mem_cons_self,
      fun d hd => hdigits d (List.mem_cons_of_mem _ hd)⟩

theorem isAlnum_iff {c : CodePoint} : isAlnum c = true ↔
    (48 ≤ c.val ∧ c.val ≤ 57) ∨ (65 ≤ c.val ∧ c.val ≤ 90) ∨ (97 ≤ c.val ∧ c.val ≤ 122) := by
  simp only [isAlnum, isDigit, isUpper, isLower, Bool.or_eq_true, Bool.and_eq_true,
    decide_eq_true_eq, or_assoc]
  exact Iff.rfl

theorem isJsonSpace_of_isAlnum {c : CodePoint} (h : isAlnum c = true) : isJsonSpace c = false := by
  rw [isAlnum_iff] at h
  have hne (d : CodePoint) (hd : d.val ≤ 32) : (c == d) = false := by
    rw [beq_eq_false_iff_ne]
    rintro rfl
    omega
  unfold isJsonSpace
  rw [hne _ (by decide), hne _ (by decide), hne _ (by decide), hne _ (by decide)]
  rfl

theorem skipWs_word {s : Str} (h : ∀ c ∈ s, isAlnum c = true) : skipWs s = s := by
  cases s with
  | nil => rfl
  | cons c s =>
    have hc := isJsonSpace_of_isAlnum (h c List.mem_cons_self)
    exact List.dropWhile_cons_of_neg (by simp [hc])

theorem expect_word {c : Char} (hc : isAlnum (ch c) = false) {s : Str}
    (h : ∀ c ∈ s, isAlnum c = true) : expect c s = none := by
  rw [Option.eq_none_iff_forall_ne_some]
  intro t ht
  rw [expect_eq_some] at ht
  have := h (ch c) (by simp [ht])
  simp [hc] at this

/-- A word is a number, a constant or nothing. -/
theorem loads_word (py : Interpreter) {s : Str} (h : ∀ c ∈ s, isAlnum c = true) :
    loads py s = scanLeaf py s >>= fun r =>
      if skipWs r.2 = [] then pure r.1 else throw .decodeError := by
  have hbom : ¬ s.head? = some 0xfeff := by
    intro hhead
    have := isAlnum_iff.mp (h _ (List.mem_of_mem_head? hhead))
    revert this
    decide
  have hscan : scanValue py s = scanLeaf py s := by
    rw [scanValue, fuel, scanOnce, expect_word (by decide) h, expect_word (by decide) h,
      expect_word (by decide) h]
  rw [loads, if_neg hbom, skipWs_word h, hscan]

theorem scanFraction_word {s : Str} (h : ∀ c ∈ s, isAlnum c = true) : scanFraction s = ([], s) := by
  match s with
  | [] => rfl
  | [_] => rfl
  | c :: d :: s =>
    have hc : c ≠ ch '.' := by
      rintro rfl
      exact absurd (h _ List.mem_cons_self) (by decide)
    rw [scanFraction, if_neg fun hdot => hc hdot.1]

theorem scanSign_word {s : Str} (h : ∀ c ∈ s, isAlnum c = true) : scanSign s = ([], s) := by
  cases s with
  | nil => rfl
  | cons c s =>
    have hc : ¬ (c = ch '+' ∨ c = ch '-') := by
      rintro (rfl | rfl) <;> exact absurd (h _ List.mem_cons_self) (by decide)
    rw [scanSign, if_neg hc]

theorem scanNumber_word {s : Str} (h : ∀ c ∈ s, isAlnum c = true) {digits rest : Str}
    (hint : scanInteger s = some (digits, rest)) (hrest : ∀ c ∈ rest, isAlnum c = true) :
    scanNumber s = some (⟨false, digits, (scanExponent rest).1⟩, (scanExponent rest).2) := by
  unfold scanNumber
  rw [expect_word (by decide) h]
  dsimp only
  rw [hint]
  dsimp only
  rw [scanFraction_word hrest]
  rfl

theorem scanInteger_eq_some {s digits rest : Str} (h : scanInteger s = some (digits, rest)) :
    s = digits ++ rest ∧ IsInteger digits := by
  cases s with
  | nil => cases h
  | cons c s =>
    rw [scanInteger] at h
    split_ifs at h with hzero hdigit
    · cases h
      exact ⟨rfl, .inl (by rw [hzero])⟩
    · cases h
      refine ⟨by rw [List.cons_append, List.takeWhile_append_dropWhile], .inr ?_⟩
      exact ⟨c, _, rfl, hzero, hdigit, fun d hd => List.mem_takeWhile_imp hd⟩

theorem scanInteger_append {digits rest : Str} (h : IsInteger digits)
    (hrest : ∀ c ∈ rest.head?, isDigit c = false) :
    scanInteger (digits ++ rest) = some (digits, rest) := by
  rcases h with rfl | ⟨c, s, rfl, hne, hc, hs⟩
  · rfl
  · have htake : (s ++ rest).takeWhile isDigit = s ∧ (s ++ rest).dropWhile isDigit = rest := by
      rw [List.takeWhile_append_of_pos hs, List.dropWhile_append_of_pos hs]
      cases rest with
      | nil => exact ⟨List.append_nil _, rfl⟩
      | cons d rest =>
        have hd : ¬ isDigit d = true := by simpa using hrest d rfl
        rw [List.takeWhile_cons_of_neg hd, List.dropWhile_cons_of_neg hd]
        exact ⟨List.append_nil _, rfl⟩
    rw [List.cons_append, scanInteger, if_neg hne, if_pos hc, htake.1, htake.2]

theorem IsExponent.head {s : Str} (h : IsExponent s) : ∀ c ∈ s.head?, isDigit c = false := by
  obtain ⟨e, digits, rfl, he, -⟩ := h
  intro c hc
  cases hc
  rcases he with rfl | rfl <;> decide

theorem scanExponent_of_isExponent {s : Str} (h : IsExponent s) : scanExponent s = (s, []) := by
  obtain ⟨e, digits, rfl, he, hne, hdigits⟩ := h
  have hword : ∀ c ∈ digits, isAlnum c = true := fun c hc => by simp [isAlnum, hdigits c hc]
  rw [scanExponent, scanSign_word hword]
  dsimp only
  rw [List.takeWhile_eq_self_iff.mpr hdigits, List.dropWhile_eq_nil_iff.mpr hdigits,
    if_pos ⟨he, hne⟩, List.nil_append]

theorem scanExponent_word {s : Str} (h : ∀ c ∈ s, isAlnum c = true) :
    s = (scanExponent s).1 ++ (scanExponent s).2 ∧
      ((scanExponent s).1 = [] ∨ IsExponent (scanExponent s).1) := by
  cases s with
  | nil => exact ⟨rfl, .inl rfl⟩
  | cons c s =>
    rw [scanExponent, scanSign_word fun d hd => h d (List.mem_cons_of_mem _ hd)]
    dsimp only
    split_ifs with he
    · rw [List.nil_append]
      refine ⟨by rw [List.cons_append, List.takeWhile_append_dropWhile], .inr ?_⟩
      exact ⟨c, _, rfl, he.1, he.2, fun d hd => List.mem_takeWhile_imp hd⟩
    · exact ⟨rfl, .inl rfl⟩

theorem toJson_short (py : Interpreter) {number : NumberText} (h : number.digits.length ≤ 640) :
    number.toJson py =
      .ok (if number.tail = [] then .int number.integer else .float number.literal) := by
  have hshort : ¬ number.TooLong py := by
    rintro ⟨-, hne, hlt⟩
    have := py.maxStrDigits_valid
    omega
  unfold NumberText.toJson
  rw [if_neg hshort]
  split_ifs <;> rfl

theorem loads_number (py : Interpreter) {s digits rest : Str} (h : ∀ c ∈ s, isAlnum c = true)
    (hconstant : scanConstant s = none) (hlength : s.length ≤ 640)
    (hint : scanInteger s = some (digits, rest)) :
    loads py s = if (scanExponent rest).2 = [] then
        .ok (if (scanExponent rest).1 = [] then .int (digitsValue digits)
          else .float (digits ++ (scanExponent rest).1))
      else .error .decodeError := by
  obtain ⟨rfl, -⟩ := scanInteger_eq_some hint
  have hrest : ∀ c ∈ rest, isAlnum c = true := fun c hc => h c (List.mem_append_right _ hc)
  obtain ⟨hsplit, -⟩ := scanExponent_word hrest
  have hleft : skipWs (scanExponent rest).2 = (scanExponent rest).2 :=
    skipWs_word fun c hc => hrest c (hsplit ▸ List.mem_append_right _ hc)
  have hshort : digits.length ≤ 640 := by
    rw [List.length_append] at hlength
    omega
  have hleaf : scanLeaf py (digits ++ rest) =
      .ok (if (scanExponent rest).1 = [] then .int (digitsValue digits)
        else .float (digits ++ (scanExponent rest).1), (scanExponent rest).2) := by
    rw [scanLeaf, hconstant]
    dsimp only
    rw [scanNumber_word h hint hrest]
    dsimp only
    rw [toJson_short py hshort]
    rfl
  rw [loads_word py h, hleaf]
  change (if skipWs (scanExponent rest).2 = [] then _ else _) = _
  rw [hleft]
  rfl

theorem loads_word_cases (py : Interpreter) {s : Str} (h : ∀ c ∈ s, isAlnum c = true)
    (hconstant : scanConstant s = none) (hlength : s.length ≤ 640) :
    (SpellsNumber s ∧ ∃ value, loads py s = .ok value ∧ ∀ t, value ≠ .str t) ∨
      (¬ SpellsNumber s ∧ loads py s = .error .decodeError) := by
  have hspells : SpellsNumber s → ∃ digits tail, scanInteger s = some (digits, tail) ∧
      (scanExponent tail).2 = [] := by
    rintro ⟨digits, tail, rfl, hdigits, rfl | htail⟩
    · exact ⟨digits, [], scanInteger_append hdigits (by simp), rfl⟩
    · refine ⟨digits, tail, scanInteger_append hdigits htail.head, ?_⟩
      rw [scanExponent_of_isExponent htail]
  cases hint : scanInteger s with
  | none =>
    have hnone : scanNumber s = none := by
      unfold scanNumber
      rw [expect_word (by decide) h]
      dsimp only
      rw [hint]
    right
    constructor
    · intro hs
      obtain ⟨digits, tail, hsome, -⟩ := hspells hs
      rw [hint] at hsome
      cases hsome
    · rw [loads_word py h, scanLeaf, hconstant]
      dsimp only
      rw [hnone]
      rfl
  | some r =>
    obtain ⟨digits, rest⟩ := r
    obtain ⟨hs, hdigits⟩ := scanInteger_eq_some hint
    obtain ⟨hsplit, htail⟩ :=
      scanExponent_word fun c hc => h c (hs ▸ List.mem_append_right digits hc)
    rw [loads_number py h hconstant hlength hint]
    split_ifs with hend hint
    · rw [hend, List.append_nil] at hsplit
      exact .inl ⟨⟨digits, rest, hs, hdigits, hsplit ▸ htail⟩, _, rfl, nofun⟩
    · rw [hend, List.append_nil] at hsplit
      exact .inl ⟨⟨digits, rest, hs, hdigits, hsplit ▸ htail⟩, _, rfl, nofun⟩
    · refine .inr ⟨fun hspell => ?_, rfl⟩
      obtain ⟨digits', tail, hsome, hnil⟩ := hspells hspell
      cases hint.symm.trans hsome
      exact hend hnil

theorem scanConstant_hex {s : Str} (h : ∀ c ∈ s, (hexValue c).isSome = true) :
    scanConstant s = none := by
  have hno {w : String} {value : Json} (c : Char) (hc : hexValue (ch c) = none)
      (hw : ch c ∈ str w) : lit (str w) s (fun rest => some (value, rest)) = none := by
    rw [Option.eq_none_iff_forall_ne_some]
    intro r hr
    obtain ⟨t, rfl, -⟩ := lit_eq_some.mp hr
    have := h (ch c) (List.mem_append_left _ hw)
    rw [hc] at this
    cases this
  simp only [scanConstant, constants, List.findSome?_cons, List.findSome?_nil,
    hno 'n' (by decide) (by decide : ch 'n' ∈ str "null"),
    hno 't' (by decide) (by decide : ch 't' ∈ str "true"),
    hno 'l' (by decide) (by decide : ch 'l' ∈ str "false"),
    hno 'N' (by decide) (by decide : ch 'N' ∈ str "NaN"),
    hno 'y' (by decide) (by decide : ch 'y' ∈ str "Infinity"),
    hno 'y' (by decide) (by decide : ch 'y' ∈ str "-Infinity")]

theorem isAlnum_of_hexValue {c : CodePoint} (h : (hexValue c).isSome = true) : isAlnum c = true := by
  rw [hexValue_isSome_iff] at h
  rw [isAlnum_iff]
  omega

/-- A numeral is read back as its number. -/
theorem loads_decimal (py : Interpreter) {n : ℕ} (h : (decimal n).length ≤ 640) :
    loads py (decimal n) = .ok (.int n) := by
  have hhex : ∀ c ∈ decimal n, (hexValue c).isSome = true := by
    intro c hc
    have hdigit := isDigit_decimal n c hc
    rw [isDigit_iff] at hdigit
    rw [hexValue_isSome_iff]
    exact .inl hdigit
  have hint : scanInteger (decimal n ++ []) = some (decimal n, []) :=
    scanInteger_append (isInteger_decimal n) (by simp)
  rw [List.append_nil] at hint
  rw [loads_number py (fun c hc => isAlnum_of_hexValue (hhex c hc)) (scanConstant_hex hhex) h hint]
  simp only [scanExponent, if_true, digitsValue_decimal]

end Lzamp.Lib.PyJson
