import Mathlib.Data.BitVec
import Mathlib.Data.Nat.Digits.Lemmas
import Mathlib.Tactic.IntervalCases

namespace Lzamp.Lib.PyText

/-- Surrogates included. -/
abbrev CodePoint := Fin 0x110000

instance codePoints_neZero : NeZero 0x110000 := ⟨by decide⟩

abbrev Str := List CodePoint

def ch (c : Char) : CodePoint := Fin.ofNat _ c.toNat

/-- A literal of the source. -/
def str (s : String) : Str := s.toList.map ch

theorem str_ofList (l : List Char) : str (String.ofList l) = l.map ch := by
  rw [str, String.toList_ofList]

theorem ch_injective : Function.Injective ch := by
  intro a b h
  have hlt (c : Char) : c.toNat < 0x110000 := by
    rcases c.valid with h | h
    · exact Nat.lt_trans h (by decide)
    · exact h.2
  have hval : a.toNat % 0x110000 = b.toNat % 0x110000 := congrArg Fin.val h
  rw [Nat.mod_eq_of_lt (hlt a), Nat.mod_eq_of_lt (hlt b)] at hval
  exact Char.toNat_inj.mp hval

@[simp] theorem str_inj {a b : String} : str a = str b ↔ a = b := by
  unfold str
  rw [(List.map_injective_iff.mpr ch_injective).eq_iff]
  exact String.toList_inj

/-- `Py_UNICODE_ISSPACE`, which `str.strip` and the `\s` of `re` use. -/
def isSpace (c : CodePoint) : Bool :=
  (9 ≤ c && c ≤ 13) || (0x1c ≤ c && c ≤ 0x20) || c == 0x85 || c == 0xa0 || c == 0x1680 ||
    (0x2000 ≤ c && c ≤ 0x200a) || c == 0x2028 || c == 0x2029 || c == 0x202f || c == 0x205f ||
    c == 0x3000

/-- `Py_ISSPACE`. -/
def isAsciiSpace (c : CodePoint) : Bool := (9 ≤ c && c ≤ 13) || c == 0x20

def isDigit (c : CodePoint) : Bool := ch '0' ≤ c && c ≤ ch '9'

def isUpper (c : CodePoint) : Bool := ch 'A' ≤ c && c ≤ ch 'Z'

def isLower (c : CodePoint) : Bool := ch 'a' ≤ c && c ≤ ch 'z'

def isSurrogate (c : CodePoint) : Bool := 0xd800 ≤ c && c ≤ 0xdfff

def digitValue (c : CodePoint) : ℕ := c.val - (ch '0').val

/-- The value of a hexadecimal digit. -/
def hexValue (c : CodePoint) : Option ℕ :=
  if isDigit c then some (digitValue c)
  else if ch 'a' ≤ c ∧ c ≤ ch 'f' then some (c.val - (ch 'a').val + 10)
  else if ch 'A' ≤ c ∧ c ≤ ch 'F' then some (c.val - (ch 'A').val + 10)
  else none

def strip (s : Str) : Str := ((s.dropWhile isSpace).reverse.dropWhile isSpace).reverse

def lowerAscii (c : CodePoint) : CodePoint := if isUpper c then c + 32 else c

/-- What differs between interpreters: lowering outside ASCII follows their Unicode tables, and the
number of digits that `int` accepts is configured. -/
structure Interpreter where
  /-- `str.lower`. -/
  lower : Str → Str
  lower_ascii : ∀ s : Str, (∀ c ∈ s, c < 128) → lower s = s.map lowerAscii
  /-- `sys.get_int_max_str_digits()`; 0 stands for no limit, and no limit is below 640. -/
  maxStrDigits : ℕ
  maxStrDigits_valid : maxStrDigits = 0 ∨ 640 ≤ maxStrDigits

/-- The UTF-8 bytes of a code point. -/
def utf8 (c : CodePoint) : List (BitVec 8) :=
  let byte (mark shift : ℕ) : BitVec 8 := BitVec.ofNat 8 (mark + c.val / 2 ^ shift % 64)
  if c < 0x80 then [BitVec.ofNat 8 c.val]
  else if c < 0x800 then [BitVec.ofNat 8 (0xc0 + c.val / 64), byte 0x80 0]
  else if c < 0x10000 then [BitVec.ofNat 8 (0xe0 + c.val / 4096), byte 0x80 6, byte 0x80 0]
  else [BitVec.ofNat 8 (0xf0 + c.val / 262144), byte 0x80 12, byte 0x80 6, byte 0x80 0]

/-- `s.encode("utf-8")`; `none` for UnicodeEncodeError. -/
def encodeUtf8 (s : Str) : Option (List (BitVec 8)) :=
  if s.any isSurrogate then none else some (s.flatMap utf8)

/-- `bytes.fromhex(s)`; `none` for ValueError. -/
def fromHex : Str → Option (List (BitVec 8))
  | [] => some []
  | c :: s =>
    if isAsciiSpace c then fromHex s
    else match s with
      | [] => none
      | d :: s =>
        match hexValue c, hexValue d, fromHex s with
        | some high, some low, some bytes => some (BitVec.ofNat 8 (16 * high + low) :: bytes)
        | _, _, _ => none

def digitsValue (s : Str) : ℕ := s.foldl (fun n c => 10 * n + digitValue c) 0

/-- `str(n)` of a natural number. -/
def decimal (n : ℕ) : Str :=
  if n = 0 then [ch '0'] else ((Nat.digits 10 n).map fun d => Fin.ofNat _ (48 + d)).reverse

theorem strip_eq_self {s : Str} (hhead : ∀ c ∈ s.head?, isSpace c = false)
    (hlast : ∀ c ∈ s.getLast?, isSpace c = false) : strip s = s := by
  have hdrop {t : Str} (h : ∀ c ∈ t.head?, isSpace c = false) : t.dropWhile isSpace = t := by
    cases t with
    | nil => rfl
    | cons c t => exact List.dropWhile_cons_of_neg (by simpa using h c rfl)
  rw [strip, hdrop hhead, hdrop (by simpa using hlast), List.reverse_reverse]

theorem strip_of_no_space {s : Str} (h : ∀ c ∈ s, isSpace c = false) : strip s = s :=
  strip_eq_self (fun c hc => h c (List.mem_of_mem_head? hc))
    fun c hc => h c (List.mem_of_mem_getLast? hc)

theorem isDigit_iff {c : CodePoint} : isDigit c = true ↔ 48 ≤ c.val ∧ c.val ≤ 57 := by
  simp only [isDigit, Bool.and_eq_true, decide_eq_true_eq]
  exact Iff.rfl

theorem isSpace_of_printing {c : CodePoint} (hlow : 32 < c.val) (hhigh : c.val < 127) :
    isSpace c = false := by
  have hspace : isSpace c = true ↔ (9 ≤ c.val ∧ c.val ≤ 13) ∨ (0x1c ≤ c.val ∧ c.val ≤ 0x20) ∨
      c.val = 0x85 ∨ c.val = 0xa0 ∨ c.val = 0x1680 ∨ (0x2000 ≤ c.val ∧ c.val ≤ 0x200a) ∨
      c.val = 0x2028 ∨ c.val = 0x2029 ∨ c.val = 0x202f ∨ c.val = 0x205f ∨ c.val = 0x3000 := by
    simp only [isSpace, Bool.or_eq_true, Bool.and_eq_true, decide_eq_true_eq, beq_iff_eq,
      Fin.ext_iff, or_assoc]
    exact Iff.rfl
  rw [Bool.eq_false_iff, ne_eq, hspace]
  omega

theorem hexValue_isSome_iff {c : CodePoint} : (hexValue c).isSome = true ↔
    (48 ≤ c.val ∧ c.val ≤ 57) ∨ (97 ≤ c.val ∧ c.val ≤ 102) ∨ (65 ≤ c.val ∧ c.val ≤ 70) := by
  have hlower : ch 'a' ≤ c ∧ c ≤ ch 'f' ↔ 97 ≤ c.val ∧ c.val ≤ 102 := Iff.rfl
  have hupper : ch 'A' ≤ c ∧ c ≤ ch 'F' ↔ 65 ≤ c.val ∧ c.val ≤ 70 := Iff.rfl
  unfold hexValue
  split_ifs with h1 h2 h3
  · exact iff_of_true rfl (.inl (isDigit_iff.mp h1))
  · exact iff_of_true rfl (.inr (.inl (hlower.mp h2)))
  · exact iff_of_true rfl (.inr (.inr (hupper.mp h3)))
  · rw [isDigit_iff] at h1
    rw [hlower] at h2
    rw [hupper] at h3
    exact iff_of_false nofun (by omega)

theorem encodeUtf8_eq_none {s : Str} : encodeUtf8 s = none ↔ ∃ c ∈ s, isSurrogate c = true := by
  simp [encodeUtf8]

theorem isDigit_decimal (n : ℕ) : ∀ c ∈ decimal n, isDigit c = true := by
  have hdigit (d : ℕ) (h : d < 10) : isDigit (Fin.ofNat 0x110000 (48 + d)) = true := by
    interval_cases d <;> rfl
  unfold decimal
  split_ifs
  · intro c hc
    rw [List.mem_singleton.mp hc]
    rfl
  · intro c hc
    obtain ⟨d, hd, rfl⟩ := List.mem_map.mp (List.mem_reverse.mp hc)
    exact hdigit d (Nat.digits_lt_base (by decide) hd)

theorem digitsValue_decimal (n : ℕ) : digitsValue (decimal n) = n := by
  have hdigit (d : ℕ) (h : d < 10) : digitValue (Fin.ofNat 0x110000 (48 + d)) = d := by
    interval_cases d <;> rfl
  unfold decimal
  split_ifs with h
  · rw [h]
    rfl
  · rw [digitsValue, List.foldl_reverse, List.foldr_map]
    have hfold (l : List ℕ) (hl : ∀ d ∈ l, d < 10) :
        l.foldr (fun d m => 10 * m + digitValue (Fin.ofNat 0x110000 (48 + d))) 0 =
          Nat.ofDigits 10 l := by
      induction l with
      | nil => rfl
      | cons d l ih =>
        rw [List.foldr_cons, ih fun d hd => hl d (List.mem_cons_of_mem _ hd),
          hdigit d (hl d List.mem_cons_self), Nat.ofDigits_cons]
        exact Nat.add_comm _ _
    rw [hfold _ fun d hd => Nat.digits_lt_base (by decide) hd, Nat.ofDigits_digits]

theorem decimal_head (n : ℕ) : decimal n = [ch '0'] ∨ ∃ c s, decimal n = c :: s ∧ c ≠ ch '0' := by
  have hdigit (d : ℕ) (h : d < 10) (hne : d ≠ 0) : Fin.ofNat 0x110000 (48 + d) ≠ ch '0' := by
    interval_cases d
    · exact absurd rfl hne
    all_goals decide
  unfold decimal
  split_ifs with h
  · exact .inl rfl
  · right
    have hne : Nat.digits 10 n ≠ [] := Nat.digits_ne_nil_iff_ne_zero.mpr h
    have hlast := Nat.getLast_digit_ne_zero 10 h
    have hlt := Nat.digits_lt_base (by decide : 1 < 10) (List.getLast_mem hne)
    have hsplit := List.dropLast_concat_getLast hne
    generalize (Nat.digits 10 n).getLast hne = d at hlast hlt hsplit
    rw [← hsplit, List.map_append, List.reverse_append]
    exact ⟨Fin.ofNat _ (48 + d), _, rfl, hdigit d hlt hlast⟩

theorem length_decimal_le {n : ℕ} (h : n < 2 ^ 32) : (decimal n).length ≤ 10 := by
  unfold decimal
  split_ifs
  · decide
  · rw [List.length_reverse, List.length_map]
    exact (Nat.digits_length_le_iff (by decide) n).mpr (by omega)

section Raises

variable {ε α β : Type} {x : Except ε α} {f : α → Except ε β}

theorem bind_eq_ok {b : β} : x >>= f = .ok b ↔ ∃ a, x = .ok a ∧ f a = .ok b := by
  cases x with
  | error e => exact ⟨nofun, fun ⟨_, h, _⟩ => nomatch h⟩
  | ok a => exact ⟨fun h => ⟨a, rfl, h⟩, fun ⟨_, h, h'⟩ => Except.ok.inj h ▸ h'⟩

theorem bind_eq_error {e : ε} :
    x >>= f = .error e ↔ x = .error e ∨ ∃ a, x = .ok a ∧ f a = .error e := by
  cases x with
  | error e' =>
    constructor
    · intro h
      cases h
      exact .inl rfl
    · rintro (h | ⟨_, h, _⟩)
      · cases h
        rfl
      · cases h
  | ok a =>
    constructor
    · exact fun h => .inr ⟨a, rfl, h⟩
    · rintro (h | ⟨_, h, h'⟩)
      · cases h
      · cases h
        exact h'

end Raises

end Lzamp.Lib.PyText
