import Lzamp.Lib.PyJsonValues

namespace Lzamp.Lib.PyJson
open PyText Matching

def hexDigit (n : ℕ) : CodePoint := if n < 10 then Fin.ofNat _ (48 + n) else Fin.ofNat _ (87 + n)

def unicodeEscape (n : ℕ) : Str :=
  [ch '\\', ch 'u', hexDigit (n / 4096 % 16), hexDigit (n / 256 % 16), hexDigit (n / 16 % 16),
    hexDigit (n % 16)]

/-- `ascii_escape_unichar`. -/
def encodeChar (c : CodePoint) : Str :=
  if c = ch '"' then [ch '\\', ch '"']
  else if c = ch '\\' then [ch '\\', ch '\\']
  else if c = 8 then [ch '\\', ch 'b']
  else if c = 12 then [ch '\\', ch 'f']
  else if c = 10 then [ch '\\', ch 'n']
  else if c = 13 then [ch '\\', ch 'r']
  else if c = 9 then [ch '\\', ch 't']
  else if 0x20 ≤ c.val ∧ c.val ≤ 0x7e then [c]
  else if c.val < 0x10000 then unicodeEscape c.val
  else unicodeEscape (0xd800 + (c.val - 0x10000) / 0x400) ++
    unicodeEscape (0xdc00 + (c.val - 0x10000) % 0x400)

def encodeChars (s : Str) : Str := s.flatMap encodeChar ++ [ch '"']

def encodeString (s : Str) : Str := ch '"' :: encodeChars s

mutual

/-- `json.dumps` with its default of ASCII only; `gap` follows each comma and colon. -/
def dumps (gap : Str) : Json → Str
  | .null => str "null"
  | .bool b => if b then str "true" else str "false"
  | .int n => (if n < 0 then [ch '-'] else []) ++ decimal n.natAbs
  | .float literal => literal
  | .str s => encodeString s
  | .arr items => ch '[' :: dumpsItems gap items
  | .obj fields => ch '{' :: dumpsFields gap fields

def dumpsItems (gap : Str) : List Json → Str
  | [] => [ch ']']
  | v :: vs => dumps gap v ++ dumpsMoreItems gap vs

def dumpsMoreItems (gap : Str) : List Json → Str
  | [] => [ch ']']
  | v :: vs => ch ',' :: (gap ++ (dumps gap v ++ dumpsMoreItems gap vs))

def dumpsFields (gap : Str) : List (Str × Json) → Str
  | [] => [ch '}']
  | (k, v) :: fs =>
    encodeString k ++ (ch ':' :: (gap ++ (dumps gap v ++ dumpsMoreFields gap fs)))

def dumpsMoreFields (gap : Str) : List (Str × Json) → Str
  | [] => [ch '}']
  | (k, v) :: fs => ch ',' :: (gap ++ (encodeString k ++
      (ch ':' :: (gap ++ (dumps gap v ++ dumpsMoreFields gap fs)))))

end

def isHigh (c : CodePoint) : Prop := 0xd800 ≤ c.val ∧ c.val ≤ 0xdbff

def isLow (c : CodePoint) : Prop := 0xdc00 ≤ c.val ∧ c.val ≤ 0xdfff

/-- No two surrogates stand as a pair; the decoder would make one character of them. -/
def Unpaired : Str → Prop
  | [] => True
  | [_] => True
  | c :: d :: s => ¬ (isHigh c ∧ isLow d) ∧ Unpaired (d :: s)

/-- A float that is spelled with a fraction and no exponent. -/
def IsFraction (s : Str) : Prop :=
  ∃ digits c frac, s = digits ++ ch '.' :: c :: frac ∧ IsInteger digits ∧ isDigit c = true ∧
    ∀ d ∈ frac, isDigit d = true

mutual

/-- A value that survives the trip. -/
def Json.Plain : Json → Prop
  | .null => True
  | .bool _ => True
  | .int n => (decimal n.natAbs).length ≤ 640
  | .float literal => IsFraction literal ∧ literal.length ≤ 640
  | .str s => Unpaired s
  | .arr items => PlainItems items
  | .obj fields => (fields.map (·.1)).Nodup ∧ PlainFields fields

def PlainItems : List Json → Prop
  | [] => True
  | v :: vs => v.Plain ∧ PlainItems vs

def PlainFields : List (Str × Json) → Prop
  | [] => True
  | (k, v) :: fs => Unpaired k ∧ v.Plain ∧ PlainFields fs

end

theorem hexValue_hexDigit {n : ℕ} (h : n < 16) : hexValue (hexDigit n) = some n := by
  interval_cases n <;> decide

theorem hex4_unicodeEscape {n : ℕ} (h : n < 0x10000) :
    hex4 (hexDigit (n / 4096 % 16)) (hexDigit (n / 256 % 16)) (hexDigit (n / 16 % 16))
      (hexDigit (n % 16)) = some n := by
  have hdigit (m : ℕ) : hexValue (hexDigit (m % 16)) = some (m % 16) :=
    hexValue_hexDigit (Nat.mod_lt m (by decide))
  rw [hex4, hdigit, hdigit, hdigit, hdigit]
  simp only [Option.some.injEq]
  omega

theorem push_val (c : CodePoint) (s rest : Str) :
    push c.val (some (s, rest)) = some (c :: s, rest) := by
  unfold push
  simp only [Option.map_some, Option.some.injEq, Prod.mk.injEq, List.cons.injEq, and_true]
  exact Fin.ext (Nat.mod_eq_of_lt c.isLt)

/-- If the text starts with an escape, it is a proper one and not of a low surrogate. -/
def Harmless (t : Str) : Prop :=
  ∀ a b c d t', t = ch '\\' :: ch 'u' :: a :: b :: c :: d :: t' →
    ∃ m, hex4 a b c d = some m ∧ ¬ (0xdc00 ≤ m ∧ m ≤ 0xdfff)

theorem scanString_escape {n : ℕ} (hn : n < 0x10000) {t : Str}
    (ht : 0xd800 ≤ n ∧ n ≤ 0xdbff → Harmless t) :
    scanString (unicodeEscape n ++ t) = push n (scanString t) := by
  rw [unicodeEscape]
  simp only [List.cons_append, List.nil_append]
  rw [scanString, if_neg (by decide), if_neg (by decide), if_neg (by decide)]
  rw [hex4_unicodeEscape hn]
  dsimp only
  split_ifs with hhigh
  · split
    · rename_i x y a b c d t'
      split_ifs with hu
      · obtain ⟨rfl, rfl⟩ := hu
        obtain ⟨m, hm, hlow⟩ := ht ⟨hhigh.1, hhigh.2.1⟩ a b c d t' rfl
        rw [hm]
        dsimp only
        rw [if_neg hlow]
      · rfl
    · rfl
  · rfl

theorem scanString_pair {high low : ℕ} (hhigh : 0xd800 ≤ high ∧ high ≤ 0xdbff)
    (hlow : 0xdc00 ≤ low ∧ low ≤ 0xdfff) {t : Str} (ht : t ≠ []) :
    scanString (unicodeEscape high ++ (unicodeEscape low ++ t)) =
      push (0x10000 + (high - 0xd800) * 0x400 + (low - 0xdc00)) (scanString t) := by
  have hlength := List.length_pos_of_ne_nil ht
  rw [unicodeEscape, unicodeEscape]
  simp only [List.cons_append, List.nil_append]
  rw [scanString, if_neg (by decide), if_neg (by decide), if_neg (by decide)]
  rw [hex4_unicodeEscape (by omega)]
  dsimp only
  rw [if_pos ⟨hhigh.1, hhigh.2, by simp only [List.length_cons]; omega⟩, if_pos ⟨rfl, rfl⟩,
    hex4_unicodeEscape (by omega)]
  dsimp only
  rw [if_pos hlow]

theorem scanString_short {e : CodePoint} {c : CodePoint} (hu : e ≠ ch 'u')
    (he : escapes.find? (·.1 = e) = some (e, c)) (t : Str) :
    scanString (ch '\\' :: e :: t) = push c.val (scanString t) := by
  rw [scanString.eq_def]
  dsimp only
  rw [if_neg (by decide), if_neg (by decide), if_pos hu, he]

theorem scanString_encodeChar {c : CodePoint} {t s rest : Str}
    (ht : scanString t = some (s, rest)) (hharmless : isHigh c → Harmless t) :
    scanString (encodeChar c ++ t) = some (c :: s, rest) := by
  have hdone : push c.val (scanString t) = some (c :: s, rest) := by
    rw [ht, push_val]
  have hne : t ≠ [] := by
    rintro rfl
    cases ht
  rw [← hdone]
  unfold encodeChar
  split_ifs with h1 h2 h3 h4 h5 h6 h7 h8 h9
  · subst h1
    exact scanString_short (by decide) (by decide) t
  · subst h2
    exact scanString_short (by decide) (by decide) t
  · subst h3
    exact scanString_short (by decide) (by decide) t
  · subst h4
    exact scanString_short (by decide) (by decide) t
  · subst h5
    exact scanString_short (by decide) (by decide) t
  · subst h6
    exact scanString_short (by decide) (by decide) t
  · subst h7
    exact scanString_short (by decide) (by decide) t
  · have hlow : ¬ c ≤ 0x1f := by
      intro h
      have hle : c.val ≤ 0x1f := h
      omega
    rw [List.singleton_append, scanString.eq_def]
    dsimp only
    rw [if_neg h1, if_pos h2, if_neg hlow]
  · exact scanString_escape h9 hharmless
  · have hc := c.isLt
    have hvalue : 0x10000 + (0xd800 + (c.val - 0x10000) / 0x400 - 0xd800) * 0x400 +
        (0xdc00 + (c.val - 0x10000) % 0x400 - 0xdc00) = c.val := by omega
    rw [List.append_assoc, scanString_pair (by omega) (by omega) hne, hvalue]

theorem harmless_encodeChar {d : CodePoint} (hd : ¬ isLow d) (t : Str) :
    Harmless (encodeChar d ++ t) := by
  intro a b c e t' heq
  have hshort (x : CodePoint) (hx : x ≠ ch 'u') (h : ch '\\' :: x :: t =
      ch '\\' :: ch 'u' :: a :: b :: c :: e :: t') : False := by
    simp only [List.cons.injEq] at h
    exact hx h.2.1
  have hescape {n : ℕ} {u : Str} (hn : n < 0x10000) (hlow : ¬ (0xdc00 ≤ n ∧ n ≤ 0xdfff))
      (h : unicodeEscape n ++ u = ch '\\' :: ch 'u' :: a :: b :: c :: e :: t') :
      ∃ m, hex4 a b c e = some m ∧ ¬ (0xdc00 ≤ m ∧ m ≤ 0xdfff) := by
    simp only [unicodeEscape, List.cons_append, List.nil_append, List.cons.injEq] at h
    obtain ⟨-, -, rfl, rfl, rfl, rfl, -⟩ := h
    exact ⟨n, hex4_unicodeEscape hn, hlow⟩
  unfold encodeChar at heq
  split_ifs at heq with h1 h2 h3 h4 h5 h6 h7 h8 h9
  · exact (hshort _ (by decide) heq).elim
  · exact (hshort _ (by decide) heq).elim
  · exact (hshort _ (by decide) heq).elim
  · exact (hshort _ (by decide) heq).elim
  · exact (hshort _ (by decide) heq).elim
  · exact (hshort _ (by decide) heq).elim
  · exact (hshort _ (by decide) heq).elim
  · simp only [List.singleton_append, List.cons.injEq] at heq
    exact absurd heq.1 h2
  · exact hescape h9 hd heq
  · have hlt := d.isLt
    rw [List.append_assoc] at heq
    exact hescape (by omega) (by omega) heq

theorem harmless_encodeChars {c : CodePoint} {s : Str} (h : Unpaired (c :: s)) (hc : isHigh c)
    (rest : Str) : Harmless (encodeChars s ++ rest) := by
  cases s with
  | nil =>
    intro a b c d t' heq
    cases heq
  | cons d s =>
    have hd : ¬ isLow d := fun hlow => h.1 ⟨hc, hlow⟩
    rw [encodeChars, List.flatMap_cons, List.append_assoc, List.append_assoc]
    exact harmless_encodeChar hd _

theorem Unpaired.tail {c : CodePoint} {s : Str} (h : Unpaired (c :: s)) : Unpaired s := by
  cases s with
  | nil => trivial
  | cons d s => exact h.2

/-- A string is read back. -/
theorem scanString_encodeChars {s : Str} (h : Unpaired s) (rest : Str) :
    scanString (encodeChars s ++ rest) = some (s, rest) := by
  induction s with
  | nil =>
    show scanString (ch '"' :: rest) = _
    rw [scanString.eq_def]
    exact if_pos rfl
  | cons c s ih =>
    have hsplit : encodeChars (c :: s) ++ rest = encodeChar c ++ (encodeChars s ++ rest) := by
      rw [encodeChars, encodeChars, List.flatMap_cons, List.append_assoc, List.append_assoc,
        List.append_assoc]
    rw [hsplit]
    exact scanString_encodeChar (ih h.tail) fun hc => harmless_encodeChars h hc rest

/-- What may stand after a value: nothing, a comma or the end of a container. -/
def Follows (rest : Str) : Prop :=
  ∀ c ∈ rest.head?, c = ch ',' ∨ c = ch ']' ∨ c = ch '}'

theorem Follows.not_digit {rest : Str} (h : Follows rest) : ∀ c ∈ rest.head?, isDigit c = false := by
  intro c hc
  rcases h c hc with rfl | rfl | rfl <;> decide

theorem Follows.scanFraction {rest : Str} (h : Follows rest) : scanFraction rest = ([], rest) := by
  match rest with
  | [] => rfl
  | [_] => rfl
  | c :: d :: s =>
    have hc : c ≠ ch '.' := by
      rcases h c rfl with rfl | rfl | rfl <;> decide
    rw [PyJson.scanFraction, if_neg fun hdot => hc hdot.1]

theorem Follows.scanExponent {rest : Str} (h : Follows rest) : scanExponent rest = ([], rest) := by
  cases rest with
  | nil => rfl
  | cons c s =>
    have hc : ¬ (c = ch 'e' ∨ c = ch 'E') := by
      rcases h c rfl with rfl | rfl | rfl <;> decide
    rw [PyJson.scanExponent, if_neg fun he => hc he.1]

theorem expect_digit {c : CodePoint} (hc : isDigit c = true) (s : Str) {d : Char}
    (hd : isDigit (ch d) = false) : expect d (c :: s) = none := by
  rw [Option.eq_none_iff_forall_ne_some]
  intro t ht
  rw [expect_eq_some] at ht
  cases ht
  rw [hd] at hc
  cases hc

theorem IsInteger.cons {digits : Str} (h : IsInteger digits) :
    ∃ c s, digits = c :: s ∧ isDigit c = true := by
  rcases h with rfl | ⟨c, s, rfl, -, hc, -⟩
  · exact ⟨_, _, rfl, by decide⟩
  · exact ⟨c, s, rfl, hc⟩

theorem lit_none {w s : Str} {value : Json} {i : ℕ} (hi : i < w.length)
    (h : ∀ c ∈ s[i]?, c ≠ w[i]) : lit w s (fun rest => some (value, rest)) = none := by
  rw [Option.eq_none_iff_forall_ne_some]
  intro r hr
  obtain ⟨t, rfl, -⟩ := lit_eq_some.mp hr
  refine h w[i] ?_ rfl
  rw [List.getElem?_append_left hi, List.getElem?_eq_getElem hi]
  rfl

/-- No constant starts with a digit, and the one with a sign has no digit after it. -/
theorem scanConstant_number {c : CodePoint} (hc : isDigit c = true) (s : Str) :
    scanConstant (c :: s) = none ∧ scanConstant (ch '-' :: c :: s) = none := by
  have hne (d : Char) (hd : isDigit (ch d) = false) : c ≠ ch d := by
    rintro rfl
    rw [hd] at hc
    cases hc
  have hfirst {d : Char} (hd : isDigit (ch d) = false) :
      ∀ x ∈ (c :: s)[0]?, x ≠ ch d := by
    rintro x ⟨⟩
    exact hne d hd
  have hsign {d : Char} (hd : ch '-' ≠ ch d) :
      ∀ x ∈ (ch '-' :: c :: s)[0]?, x ≠ ch d := by
    rintro x ⟨⟩
    exact hd
  have hsecond : ∀ x ∈ (ch '-' :: c :: s)[1]?, x ≠ ch 'I' := by
    rintro x ⟨⟩
    exact hne 'I' (by decide)
  constructor
  · simp only [scanConstant, constants, List.findSome?_cons, List.findSome?_nil,
      lit_none (w := str "null") (i := 0) (by decide) (hfirst (d := 'n') (by decide)),
      lit_none (w := str "true") (i := 0) (by decide) (hfirst (d := 't') (by decide)),
      lit_none (w := str "false") (i := 0) (by decide) (hfirst (d := 'f') (by decide)),
      lit_none (w := str "NaN") (i := 0) (by decide) (hfirst (d := 'N') (by decide)),
      lit_none (w := str "Infinity") (i := 0) (by decide) (hfirst (d := 'I') (by decide)),
      lit_none (w := str "-Infinity") (i := 0) (by decide) (hfirst (d := '-') (by decide))]
  · simp only [scanConstant, constants, List.findSome?_cons, List.findSome?_nil,
      lit_none (w := str "null") (i := 0) (by decide) (hsign (d := 'n') (by decide)),
      lit_none (w := str "true") (i := 0) (by decide) (hsign (d := 't') (by decide)),
      lit_none (w := str "false") (i := 0) (by decide) (hsign (d := 'f') (by decide)),
      lit_none (w := str "NaN") (i := 0) (by decide) (hsign (d := 'N') (by decide)),
      lit_none (w := str "Infinity") (i := 0) (by decide) (hsign (d := 'I') (by decide)),
      lit_none (w := str "-Infinity") (i := 1) (by decide) hsecond]

section Numbers

variable {digits rest : Str}

theorem digits_append (h : ∀ d ∈ digits, isDigit d = true)
    (hrest : ∀ c ∈ rest.head?, isDigit c = false) :
    (digits ++ rest).takeWhile isDigit = digits ∧ (digits ++ rest).dropWhile isDigit = rest := by
  rw [List.takeWhile_append_of_pos h, List.dropWhile_append_of_pos h]
  cases rest with
  | nil => exact ⟨List.append_nil _, rfl⟩
  | cons c rest =>
    have hc : ¬ isDigit c = true := by simpa using hrest c rfl
    rw [List.takeWhile_cons_of_neg hc, List.dropWhile_cons_of_neg hc]
    exact ⟨List.append_nil _, rfl⟩

theorem scanNumber_unsigned {tail rest' : Str} (h : IsInteger digits)
    (hrest : ∀ c ∈ rest.head?, isDigit c = false) (hfraction : scanFraction rest = (tail, rest'))
    (hexponent : scanExponent rest' = ([], rest')) :
    scanNumber (digits ++ rest) = some (⟨false, digits, tail⟩, rest') := by
  obtain ⟨c, s, hcons, hc⟩ := h.cons
  have hsign : expect '-' (digits ++ rest) = none := by
    rw [hcons]
    exact expect_digit hc _ (by decide)
  unfold scanNumber
  rw [hsign]
  dsimp only
  rw [scanInteger_append h hrest]
  dsimp only
  rw [hfraction]
  dsimp only
  rw [hexponent, List.append_nil]
  rfl

theorem scanNumber_negative (h : IsInteger digits) (hrest : Follows rest) :
    scanNumber (ch '-' :: (digits ++ rest)) = some (⟨true, digits, []⟩, rest) := by
  have hsign : expect '-' (ch '-' :: (digits ++ rest)) = some (digits ++ rest) :=
    expect_eq_some.mpr rfl
  unfold scanNumber
  rw [hsign]
  dsimp only
  rw [scanInteger_append h hrest.not_digit]
  dsimp only
  rw [hrest.scanFraction]
  dsimp only
  rw [hrest.scanExponent]
  rfl

theorem scanFraction_append {c : CodePoint} {frac : Str} (hc : isDigit c = true)
    (hfrac : ∀ d ∈ frac, isDigit d = true) (hrest : Follows rest) :
    scanFraction (ch '.' :: c :: (frac ++ rest)) = (ch '.' :: c :: frac, rest) := by
  obtain ⟨htake, hdrop⟩ := digits_append hfrac hrest.not_digit
  rw [scanFraction, if_pos ⟨rfl, hc⟩, htake, hdrop]

end Numbers

theorem scanOnce_leaf (py : Interpreter) {c : CodePoint} (hc : isDigit c = true ∨ c = ch '-')
    (n : ℕ) (s : Str) : scanOnce py (n + 1) (c :: s) = scanLeaf py (c :: s) := by
  have hnone (d : Char) (hd : isDigit (ch d) = false) (hsign : ch '-' ≠ ch d) :
      expect d (c :: s) = none := by
    rcases hc with hc | rfl
    · exact expect_digit hc s hd
    · rw [Option.eq_none_iff_forall_ne_some]
      intro t ht
      rw [expect_eq_some] at ht
      exact hsign (List.cons.inj ht).1
  rw [scanOnce, hnone '"' (by decide) (by decide)]
  dsimp only
  rw [hnone '{' (by decide) (by decide)]
  dsimp only
  rw [hnone '[' (by decide) (by decide)]

theorem scanLeaf_number (py : Interpreter) {s rest : Str} {number : NumberText}
    (hconstant : scanConstant s = none) (hnumber : scanNumber s = some (number, rest))
    (hshort : number.digits.length ≤ 640) :
    scanLeaf py s =
      .ok (if number.tail = [] then .int number.integer else .float number.literal, rest) := by
  rw [scanLeaf, hconstant]
  dsimp only
  rw [hnumber]
  dsimp only
  rw [toJson_short py hshort]
  rfl

theorem scanOnce_int (py : Interpreter) {i : ℤ} (hshort : (decimal i.natAbs).length ≤ 640)
    {rest : Str} (hrest : Follows rest) (n : ℕ) :
    scanOnce py (n + 1) ((if i < 0 then [ch '-'] else []) ++ decimal i.natAbs ++ rest) =
      .ok (.int i, rest) := by
  obtain ⟨c, s, hcons, hc⟩ := (isInteger_decimal i.natAbs).cons
  have htext : decimal i.natAbs ++ rest = c :: (s ++ rest) := by
    rw [hcons, List.cons_append]
  obtain ⟨hplain, hsigned⟩ := scanConstant_number hc (s ++ rest)
  split_ifs with hneg
  · rw [List.append_assoc, List.singleton_append, scanOnce_leaf py (.inr rfl)]
    rw [← htext] at hsigned
    rw [scanLeaf_number py hsigned (scanNumber_negative (isInteger_decimal _) hrest) hshort]
    have hvalue : NumberText.integer ⟨true, decimal i.natAbs, []⟩ = i := by
      rw [NumberText.integer, if_pos rfl, digitsValue_decimal]
      omega
    rw [if_pos rfl, hvalue]
  · rw [List.nil_append, htext, scanOnce_leaf py (.inl hc), ← htext]
    rw [← htext] at hplain
    rw [scanLeaf_number py hplain (scanNumber_unsigned (isInteger_decimal _) hrest.not_digit
      hrest.scanFraction hrest.scanExponent) hshort]
    have hvalue : NumberText.integer ⟨false, decimal i.natAbs, []⟩ = i := by
      rw [NumberText.integer, if_neg Bool.false_ne_true, digitsValue_decimal]
      omega
    rw [if_pos rfl, hvalue]

theorem scanOnce_float (py : Interpreter) {literal : Str} (h : IsFraction literal)
    (hshort : literal.length ≤ 640) {rest : Str} (hrest : Follows rest) (n : ℕ) :
    scanOnce py (n + 1) (literal ++ rest) = .ok (.float literal, rest) := by
  obtain ⟨digits, d, frac, rfl, hdigits, hd, hfrac⟩ := h
  obtain ⟨c, s, hcons, hc⟩ := hdigits.cons
  have hlength : digits.length ≤ 640 := by
    rw [List.length_append] at hshort
    omega
  have hsplit : digits ++ ch '.' :: d :: frac ++ rest =
      digits ++ (ch '.' :: d :: (frac ++ rest)) := by
    rw [List.append_assoc]
    rfl
  have htext : digits ++ (ch '.' :: d :: (frac ++ rest)) =
      c :: (s ++ (ch '.' :: d :: (frac ++ rest))) := by
    rw [hcons, List.cons_append]
  have hdot : ∀ x ∈ (ch '.' :: d :: (frac ++ rest)).head?, isDigit x = false := by
    rintro x ⟨⟩
    decide
  obtain ⟨hplain, -⟩ := scanConstant_number hc (s ++ (ch '.' :: d :: (frac ++ rest)))
  rw [← htext] at hplain
  rw [hsplit, htext, scanOnce_leaf py (.inl hc), ← htext,
    scanLeaf_number py hplain (scanNumber_unsigned hdigits hdot
      (scanFraction_append hd hfrac hrest) hrest.scanExponent) hlength]
  rw [if_neg (List.cons_ne_nil _ _)]
  rfl

section Values

variable {gap : Str}

/-- How the text of a value starts. -/
structure Starts (c : CodePoint) : Prop where
  space : isJsonSpace c = false
  bracket : c ≠ ch ']'
  brace : c ≠ ch '}'
  mark : c ≠ 0xfeff

theorem starts_digit {c : CodePoint} (h : isDigit c = true) : Starts c := by
  have hne (d : CodePoint) (hd : isDigit d = false) : c ≠ d := by
    rintro rfl
    rw [hd] at h
    cases h
  refine ⟨isJsonSpace_of_isAlnum ?_, hne _ (by decide), hne _ (by decide), hne _ (by decide)⟩
  rw [isAlnum, h]
  rfl

theorem dumps_starts {v : Json} (h : v.Plain) (gap : Str) :
    ∃ c s, dumps gap v = c :: s ∧ Starts c := by
  cases v with
  | null => exact ⟨_, _, rfl, by decide, by decide, by decide, by decide⟩
  | bool b =>
    cases b with
    | true => exact ⟨_, _, rfl, by decide, by decide, by decide, by decide⟩
    | false => exact ⟨_, _, rfl, by decide, by decide, by decide, by decide⟩
  | int i =>
    obtain ⟨c, s, hcons, hc⟩ := (isInteger_decimal i.natAbs).cons
    rw [dumps, hcons]
    split_ifs
    · exact ⟨_, _, rfl, by decide, by decide, by decide, by decide⟩
    · exact ⟨c, s, rfl, starts_digit hc⟩
  | float literal =>
    rw [Json.Plain] at h
    obtain ⟨⟨digits, d, frac, rfl, hdigits, -⟩, -⟩ := h
    obtain ⟨c, s, rfl, hc⟩ := hdigits.cons
    exact ⟨c, _, by rw [dumps, List.cons_append], starts_digit hc⟩
  | str s => exact ⟨_, _, by rw [dumps, encodeString], by decide, by decide, by decide, by decide⟩
  | arr items => exact ⟨_, _, by rw [dumps], by decide, by decide, by decide, by decide⟩
  | obj fields => exact ⟨_, _, by rw [dumps], by decide, by decide, by decide, by decide⟩

theorem skipWs_cons {c : CodePoint} (h : isJsonSpace c = false) (s : Str) :
    skipWs (c :: s) = c :: s :=
  List.dropWhile_cons_of_neg (by simp [h])

theorem skipWs_gap (hgap : ∀ c ∈ gap, isJsonSpace c = true) {c : CodePoint}
    (h : isJsonSpace c = false) (s : Str) : skipWs (gap ++ c :: s) = c :: s := by
  rw [skipWs, List.dropWhile_append_of_pos hgap]
  exact skipWs_cons h s

theorem expect_cons (c : Char) (s : Str) : expect c (ch c :: s) = some s := expect_eq_some.mpr rfl

theorem expect_ne {c : CodePoint} {d : Char} (h : c ≠ ch d) (s : Str) : expect d (c :: s) = none := by
  rw [Option.eq_none_iff_forall_ne_some]
  intro t ht
  rw [expect_eq_some] at ht
  exact h (List.cons.inj ht).1

theorem delimiter_close {close : Char} (h : isJsonSpace (ch close) = false) (rest : Str) :
    delimiter close (ch close :: rest) = .close rest := by
  rw [delimiter, skipWs_cons h, expect_cons]

theorem delimiter_comma {close : Char} (hclose : ch ',' ≠ ch close)
    (hgap : ∀ c ∈ gap, isJsonSpace c = true) {c : CodePoint} (h : isJsonSpace c = false)
    (s : Str) : delimiter close (ch ',' :: (gap ++ c :: s)) = .comma (c :: s) := by
  rw [delimiter, skipWs_cons (by decide), expect_ne hclose]
  dsimp only
  rw [expect_cons]
  dsimp only
  rw [skipWs_gap hgap h]

theorem follows_items (gap : Str) (vs : List Json) (rest : Str) :
    Follows (dumpsMoreItems gap vs ++ rest) := by
  intro c hc
  cases vs with
  | nil =>
    rw [dumpsMoreItems] at hc
    cases hc
    exact .inr (.inl rfl)
  | cons v vs =>
    rw [dumpsMoreItems] at hc
    cases hc
    exact .inl rfl

theorem follows_fields (gap : Str) (fs : List (Str × Json)) (rest : Str) :
    Follows (dumpsMoreFields gap fs ++ rest) := by
  intro c hc
  cases fs with
  | nil =>
    rw [dumpsMoreFields] at hc
    cases hc
    exact .inr (.inr rfl)
  | cons f fs =>
    rw [dumpsMoreFields] at hc
    cases hc
    exact .inl rfl

theorem scanKey_encode {k : Str} (hk : Unpaired k) (hgap : ∀ c ∈ gap, isJsonSpace c = true)
    {c : CodePoint} (h : isJsonSpace c = false) (s : Str) :
    scanKey (encodeString k ++ ch ':' :: (gap ++ c :: s)) = some (k, c :: s) := by
  rw [scanKey, encodeString, List.cons_append, expect_cons, Option.bind_some,
    scanString_encodeChars hk]
  dsimp only
  rw [skipWs_cons (by decide), expect_cons, Option.map_some, skipWs_gap hgap h]

theorem dictSet_new {fields : List (Str × Json)} {k : Str} (h : k ∉ fields.map (·.1)) (v : Json) :
    dictSet fields k v = fields ++ [(k, v)] := by
  unfold dictSet
  rw [if_neg]
  intro hany
  obtain ⟨f, hf, hkey⟩ := List.any_eq_true.mp hany
  exact h (List.mem_map.mpr ⟨f, hf, by simpa using hkey⟩)

section Loops

variable {py : Interpreter} {n : ℕ} {s t rest : Str} {v : Json}

theorem scanElements_close {items : List Json} (hv : scanOnce py n s = .ok (v, t))
    (hd : delimiter ']' t = .close rest) :
    scanElements py (n + 1) s items = .ok (.arr (items ++ [v]), rest) := by
  rw [scanElements, hv]
  dsimp only [bind, Except.bind]
  rw [hd]
  rfl

theorem scanElements_comma {items : List Json} (hv : scanOnce py n s = .ok (v, t))
    (hd : delimiter ']' t = .comma rest) :
    scanElements py (n + 1) s items = scanElements py n rest (items ++ [v]) := by
  rw [scanElements, hv]
  dsimp only [bind, Except.bind]
  rw [hd]

variable {fields : List (Str × Json)} {k u : Str}

theorem scanMembers_close (hk : scanKey s = some (k, u)) (hv : scanOnce py n u = .ok (v, t))
    (hd : delimiter '}' t = .close rest) :
    scanMembers py (n + 1) s fields = .ok (.obj (dictSet fields k v), rest) := by
  rw [scanMembers, hk]
  dsimp only
  rw [hv]
  dsimp only [bind, Except.bind]
  rw [hd]
  rfl

theorem scanMembers_comma (hk : scanKey s = some (k, u)) (hv : scanOnce py n u = .ok (v, t))
    (hd : delimiter '}' t = .comma rest) :
    scanMembers py (n + 1) s fields = scanMembers py n rest (dictSet fields k v) := by
  rw [scanMembers, hk]
  dsimp only
  rw [hv]
  dsimp only [bind, Except.bind]
  rw [hd]

end Loops

theorem length_dumps_pos {v : Json} (h : v.Plain) (gap : Str) : 0 < (dumps gap v).length := by
  obtain ⟨c, s, hcons, -⟩ := dumps_starts h gap
  rw [hcons]
  exact Nat.zero_lt_succ _

mutual

theorem scanOnce_dumps (py : Interpreter) (hgap : ∀ c ∈ gap, isJsonSpace c = true) :
    ∀ (v : Json), v.Plain → ∀ (n : ℕ) (rest : Str), Follows rest →
      2 * (dumps gap v ++ rest).length + 1 ≤ n →
      scanOnce py n (dumps gap v ++ rest) = .ok (v, rest)
  | _, _, 0, _, _, hn => by omega
  | .null, _, n + 1, rest, _, _ => by
    rw [dumps]
    rfl
  | .bool true, _, n + 1, rest, _, _ => by
    rw [dumps]
    rfl
  | .bool false, _, n + 1, rest, _, _ => by
    rw [dumps]
    rfl
  | .int i, h, n + 1, rest, hrest, _ => by
    rw [Json.Plain] at h
    rw [dumps]
    exact scanOnce_int py h hrest n
  | .float literal, h, n + 1, rest, hrest, _ => by
    rw [Json.Plain] at h
    rw [dumps]
    exact scanOnce_float py h.1 h.2 hrest n
  | .str s, h, n + 1, rest, _, _ => by
    rw [Json.Plain] at h
    rw [dumps, encodeString, List.cons_append, scanOnce, expect_cons]
    dsimp only
    rw [scanString_encodeChars h]
    rfl
  -- a container costs a level here and one at its first element, hence the factor two in `hn`
  | .arr items, h, n + 1, rest, hrest, hn => by
    rw [Json.Plain] at h
    rw [dumps, List.cons_append] at hn ⊢
    rw [scanOnce, expect_ne (by decide)]
    dsimp only
    rw [expect_ne (by decide)]
    dsimp only
    rw [expect_cons]
    dsimp only
    cases items with
    | nil =>
      rw [dumpsItems, List.singleton_append, skipWs_cons (by decide), expect_cons]
      rfl
    | cons v vs =>
      have hv : v.Plain := by
        rw [PlainItems] at h
        exact h.1
      have hscan := scanElements_dumps py hgap (v :: vs) h (List.cons_ne_nil _ _) n [] rest
        (by rw [List.length_cons] at hn; omega)
      obtain ⟨c, s, hcons, hc⟩ := dumps_starts hv gap
      rw [dumpsItems, hcons, List.cons_append, List.cons_append] at hscan ⊢
      rw [skipWs_cons hc.space, expect_ne hc.bracket]
      exact hscan
  | .obj fields, h, n + 1, rest, hrest, hn => by
    rw [Json.Plain] at h
    rw [dumps, List.cons_append] at hn ⊢
    rw [scanOnce, expect_ne (by decide)]
    dsimp only
    rw [expect_cons]
    dsimp only
    cases fields with
    | nil =>
      rw [dumpsFields, List.singleton_append, skipWs_cons (by decide), expect_cons]
      rfl
    | cons f fs =>
      have hscan := scanMembers_dumps py hgap (f :: fs) h.2 (List.cons_ne_nil _ _) n [] rest
        (by rw [List.nil_append]; exact h.1) (by rw [List.length_cons] at hn; omega)
      obtain ⟨k, v⟩ := f
      rw [dumpsFields, encodeString, List.cons_append, List.cons_append] at hscan ⊢
      rw [skipWs_cons (by decide), expect_ne (by decide)]
      exact hscan

theorem scanElements_dumps (py : Interpreter) (hgap : ∀ c ∈ gap, isJsonSpace c = true) :
    ∀ (vs : List Json), PlainItems vs → vs ≠ [] → ∀ (n : ℕ) (items : List Json) (rest : Str),
      2 * (dumpsItems gap vs ++ rest).length + 2 ≤ n →
      scanElements py n (dumpsItems gap vs ++ rest) items = .ok (.arr (items ++ vs), rest)
  | [], _, hne, _, _, _, _ => absurd rfl hne
  | _ :: _, _, _, 0, _, _, hn => by omega
  | v :: vs, h, _, n + 1, items, rest, hn => by
    rw [PlainItems] at h
    rw [dumpsItems, List.append_assoc] at hn ⊢
    have hvalue := scanOnce_dumps py hgap v h.1 n (dumpsMoreItems gap vs ++ rest)
      (follows_items gap vs rest) (by omega)
    have hpos := length_dumps_pos h.1 gap
    cases vs with
    | nil =>
      rw [dumpsMoreItems, List.singleton_append] at hvalue ⊢
      exact scanElements_close hvalue (delimiter_close (by decide) rest)
    | cons w ws =>
      have hw : w.Plain := by
        have h2 := h.2
        rw [PlainItems] at h2
        exact h2.1
      obtain ⟨c, s, hcons, hc⟩ := dumps_starts hw gap
      have hmore : dumpsMoreItems gap (w :: ws) ++ rest =
          ch ',' :: (gap ++ (dumpsItems gap (w :: ws) ++ rest)) := by
        rw [dumpsMoreItems, dumpsItems, List.cons_append, List.append_assoc]
      -- after the comma the gap is skipped up to the first character of the next value
      have hcomma : delimiter ']' (dumpsMoreItems gap (w :: ws) ++ rest) =
          .comma (dumpsItems gap (w :: ws) ++ rest) := by
        rw [hmore, dumpsItems, hcons, List.cons_append, List.cons_append]
        exact delimiter_comma (by decide) hgap hc.space _
      rw [scanElements_comma hvalue hcomma, scanElements_dumps py hgap (w :: ws) h.2
        (List.cons_ne_nil _ _) n (items ++ [v]) rest (by
          rw [List.length_append, hmore, List.length_cons, List.length_append] at hn
          omega), List.append_assoc]
      rfl

theorem scanMembers_dumps (py : Interpreter) (hgap : ∀ c ∈ gap, isJsonSpace c = true) :
    ∀ (fs : List (Str × Json)), PlainFields fs → fs ≠ [] →
      ∀ (n : ℕ) (fields : List (Str × Json)) (rest : Str),
      ((fields ++ fs).map (·.1)).Nodup → 2 * (dumpsFields gap fs ++ rest).length + 2 ≤ n →
      scanMembers py n (dumpsFields gap fs ++ rest) fields = .ok (.obj (fields ++ fs), rest)
  | [], _, hne, _, _, _, _, _ => absurd rfl hne
  | _ :: _, _, _, 0, _, _, _, hn => by omega
  | (k, v) :: fs, h, _, n + 1, fields, rest, hkeys, hn => by
    rw [PlainFields] at h
    obtain ⟨hk, hv, hfs⟩ := h
    have htext : dumpsFields gap ((k, v) :: fs) ++ rest = encodeString k ++
        (ch ':' :: (gap ++ (dumps gap v ++ (dumpsMoreFields gap fs ++ rest)))) := by
      rw [dumpsFields]
      simp only [List.append_assoc, List.cons_append]
    rw [htext] at hn ⊢
    have hlength : (dumps gap v ++ (dumpsMoreFields gap fs ++ rest)).length + 1 ≤
        (encodeString k ++ (ch ':' ::
          (gap ++ (dumps gap v ++ (dumpsMoreFields gap fs ++ rest))))).length := by
      simp only [List.length_append, List.length_cons]
      omega
    have hvalue := scanOnce_dumps py hgap v hv n (dumpsMoreFields gap fs ++ rest)
      (follows_fields gap fs rest) (by omega)
    obtain ⟨c, s, hcons, hc⟩ := dumps_starts hv gap
    have hpos := length_dumps_pos hv gap
    have hkey : scanKey (encodeString k ++
        (ch ':' :: (gap ++ (dumps gap v ++ (dumpsMoreFields gap fs ++ rest))))) =
        some (k, dumps gap v ++ (dumpsMoreFields gap fs ++ rest)) := by
      rw [hcons, List.cons_append]
      exact scanKey_encode hk hgap hc.space _
    -- no key occurs twice, so the dictionary never overwrites and keeps the written order
    have hnew : k ∉ fields.map (·.1) := by
      rw [List.map_append, List.map_cons] at hkeys
      intro hmem
      exact (List.nodup_append.mp hkeys).2.2 k hmem k List.mem_cons_self rfl
    cases fs with
    | nil =>
      rw [dumpsMoreFields, List.singleton_append] at hkey hvalue ⊢
      rw [scanMembers_close hkey hvalue (delimiter_close (by decide) rest), dictSet_new hnew]
    | cons f fs =>
      obtain ⟨k', v'⟩ := f
      have hmore : dumpsMoreFields gap ((k', v') :: fs) ++ rest =
          ch ',' :: (gap ++ (dumpsFields gap ((k', v') :: fs) ++ rest)) := by
        rw [dumpsMoreFields, dumpsFields, List.cons_append, List.append_assoc]
      have hshorter : (dumpsFields gap ((k', v') :: fs) ++ rest).length <
          (dumpsMoreFields gap ((k', v') :: fs) ++ rest).length := by
        rw [hmore]
        simp only [List.length_cons, List.length_append]
        omega
      have hcomma : delimiter '}' (dumpsMoreFields gap ((k', v') :: fs) ++ rest) =
          .comma (dumpsFields gap ((k', v') :: fs) ++ rest) := by
        rw [hmore, dumpsFields, encodeString, List.cons_append, List.cons_append]
        exact delimiter_comma (by decide) hgap (by decide) _
      rw [scanMembers_comma hkey hvalue hcomma, dictSet_new hnew,
        scanMembers_dumps py hgap ((k', v') :: fs) hfs (List.cons_ne_nil _ _) n
          (fields ++ [(k, v)]) rest (by rw [List.append_assoc]; exact hkeys) (by
            rw [List.length_append] at hlength
            omega), List.append_assoc]
      rfl

end

/-- What `json.dumps` writes, `json.loads` reads back. -/
theorem loads_dumps (py : Interpreter) (hgap : ∀ c ∈ gap, isJsonSpace c = true) {v : Json}
    (h : v.Plain) : loads py (dumps gap v) = .ok v := by
  obtain ⟨c, s, hcons, hc⟩ := dumps_starts h gap
  have hmark : ¬ (dumps gap v).head? = some 0xfeff := by
    rw [hcons]
    intro hhead
    exact hc.mark (Option.some.inj hhead)
  have hskip : skipWs (dumps gap v) = dumps gap v := by
    rw [hcons]
    exact skipWs_cons hc.space s
  have hscan := scanOnce_dumps py hgap v h (fuel (dumps gap v)) [] (by rintro c ⟨⟩)
    (by rw [List.append_nil]; exact le_rfl)
  rw [List.append_nil] at hscan
  rw [loads, if_neg hmark, hskip, scanValue, hscan]
  rfl

end Values

theorem plain_int {n : ℤ} (h : n.natAbs < 2 ^ 32) : (Json.int n).Plain := by
  rw [Json.Plain]
  exact (length_decimal_le h).trans (by decide)

theorem plain_bool (b : Bool) : (Json.bool b).Plain := by
  rw [Json.Plain]
  trivial

theorem plain_str {s : Str} (h : Unpaired s) : (Json.str s).Plain := by
  rw [Json.Plain]
  exact h

theorem plainItems_iff {items : List Json} : PlainItems items ↔ ∀ v ∈ items, v.Plain := by
  induction items with
  | nil => simp [PlainItems]
  | cons v items ih => rw [PlainItems, ih, List.forall_mem_cons]

theorem plainFields_iff {fields : List (Str × Json)} :
    PlainFields fields ↔ ∀ f ∈ fields, Unpaired f.1 ∧ f.2.Plain := by
  induction fields with
  | nil => simp [PlainFields]
  | cons f fields ih =>
    obtain ⟨k, v⟩ := f
    rw [PlainFields, ih, List.forall_mem_cons, and_assoc]

theorem plain_arr_map {α : Type} {f : α → Json} {as : List α} (h : ∀ a ∈ as, (f a).Plain) :
    (Json.arr (as.map f)).Plain := by
  rw [Json.Plain, plainItems_iff, List.forall_mem_map]
  exact h

theorem plain_obj {fields : List (Str × Json)} (hkeys : (fields.map (·.1)).Nodup)
    (h : ∀ f ∈ fields, Unpaired f.1 ∧ f.2.Plain) : (Json.obj fields).Plain := by
  rw [Json.Plain, plainFields_iff]
  exact ⟨hkeys, h⟩

theorem unpaired_append {s t : Str} (hs : ∀ c ∈ s, ¬ isHigh c) (ht : Unpaired t) :
    Unpaired (s ++ t) := by
  induction s with
  | nil => exact ht
  | cons c s ih =>
    have hrest := ih fun d hd => hs d (List.mem_cons_of_mem _ hd)
    rw [List.cons_append]
    cases hcons : s ++ t with
    | nil => trivial
    | cons d u =>
      rw [hcons] at hrest
      exact ⟨fun h => hs c List.mem_cons_self h.1, hrest⟩

theorem unpaired_of_no_high {s : Str} (hs : ∀ c ∈ s, ¬ isHigh c) : Unpaired s := by
  have h := unpaired_append hs (t := []) trivial
  rwa [List.append_nil] at h

theorem unpaired_of_encodeUtf8 {s : Str} {bytes : List (BitVec 8)}
    (h : encodeUtf8 s = some bytes) : Unpaired s := by
  unfold encodeUtf8 at h
  split_ifs at h with hany
  refine unpaired_of_no_high fun c hc hhigh => hany (List.any_eq_true.mpr ⟨c, hc, ?_⟩)
  have hlast : c.val ≤ 0xdfff := hhigh.2.trans (by decide)
  simp only [isSurrogate, Bool.and_eq_true, decide_eq_true_eq]
  exact ⟨hhigh.1, hlast⟩

theorem dumpsMoreFields_close (gap : Str) (fs : List (Str × Json)) :
    ∃ s, dumpsMoreFields gap fs = s ++ [ch '}'] := by
  induction fs with
  | nil => exact ⟨[], rfl⟩
  | cons f fs ih =>
    obtain ⟨k, v⟩ := f
    obtain ⟨s, hs⟩ := ih
    rw [dumpsMoreFields, hs]
    exact ⟨ch ',' :: (gap ++ (encodeString k ++ (ch ':' :: (gap ++ (dumps gap v ++ s))))), by
      simp only [List.cons_append, List.append_assoc]⟩

theorem dumps_obj_close (gap : Str) (fs : List (Str × Json)) :
    ∃ s, dumps gap (.obj fs) = ch '{' :: (s ++ [ch '}']) := by
  rw [dumps]
  cases fs with
  | nil => exact ⟨[], rfl⟩
  | cons f fs =>
    obtain ⟨k, v⟩ := f
    obtain ⟨s, hs⟩ := dumpsMoreFields_close gap fs
    rw [dumpsFields, hs]
    exact ⟨encodeString k ++ (ch ':' :: (gap ++ (dumps gap v ++ s))), by
      simp only [List.cons_append, List.append_assoc]⟩

def Ascii (s : Str) : Prop := ∀ c ∈ s, c.val < 128

theorem ascii_append {s t : Str} (hs : Ascii s) (ht : Ascii t) : Ascii (s ++ t) := by
  intro c hc
  rcases List.mem_append.mp hc with hc | hc
  · exact hs c hc
  · exact ht c hc

theorem ascii_cons {c : CodePoint} {s : Str} (hc : c.val < 128) (hs : Ascii s) :
    Ascii (c :: s) := by
  intro d hd
  rcases List.mem_cons.mp hd with rfl | hd
  · exact hc
  · exact hs d hd

theorem ascii_of_isDigit {s : Str} (h : ∀ c ∈ s, isDigit c = true) : Ascii s := by
  intro c hc
  have := isDigit_iff.mp (h c hc)
  omega

theorem Ascii.not_high {s : Str} (h : Ascii s) : ∀ c ∈ s, ¬ isHigh c := by
  intro c hc hhigh
  have := h c hc
  have := hhigh.1
  omega

theorem ascii_unicodeEscape (n : ℕ) : Ascii (unicodeEscape n) := by
  have hdigit (m : ℕ) : (hexDigit (m % 16)).val < 128 := by
    have hm : m % 16 < 16 := Nat.mod_lt m (by decide)
    generalize m % 16 = d at hm
    interval_cases d <;> decide
  refine ascii_cons (by decide) (ascii_cons (by decide) ?_)
  exact ascii_cons (hdigit _) (ascii_cons (hdigit _) (ascii_cons (hdigit _)
    (ascii_cons (hdigit _) nofun)))

theorem ascii_encodeChar (c : CodePoint) : Ascii (encodeChar c) := by
  have hshort (e : CodePoint) (he : e.val < 128) : Ascii [ch '\\', e] :=
    ascii_cons (by decide) (ascii_cons he nofun)
  unfold encodeChar
  split_ifs with h1 h2 h3 h4 h5 h6 h7 hplain hbasic
  · exact hshort _ (by decide)
  · exact hshort _ (by decide)
  · exact hshort _ (by decide)
  · exact hshort _ (by decide)
  · exact hshort _ (by decide)
  · exact hshort _ (by decide)
  · exact hshort _ (by decide)
  · exact ascii_cons (by omega) nofun
  · exact ascii_unicodeEscape _
  · exact ascii_append (ascii_unicodeEscape _) (ascii_unicodeEscape _)

theorem ascii_encodeString (s : Str) : Ascii (encodeString s) := by
  refine ascii_cons (by decide) (ascii_append ?_ (ascii_cons (by decide) nofun))
  intro c hc
  obtain ⟨d, -, hc⟩ := List.mem_flatMap.mp hc
  exact ascii_encodeChar d c hc

theorem ascii_isFraction {s : Str} (h : IsFraction s) : Ascii s := by
  obtain ⟨digits, c, frac, rfl, hdigits, hc, hfrac⟩ := h
  have hinteger : Ascii digits := by
    rcases hdigits with rfl | ⟨d, s, rfl, -, hd, hs⟩
    · exact ascii_cons (by decide) nofun
    · exact ascii_of_isDigit (List.forall_mem_cons.mpr ⟨hd, hs⟩)
  exact ascii_append hinteger (ascii_cons (by decide)
    (ascii_of_isDigit (List.forall_mem_cons.mpr ⟨hc, hfrac⟩)))

mutual

/-- The text has no character beyond ASCII, whatever the strings in the value have. -/
theorem ascii_dumps {gap : Str} (hgap : Ascii gap) :
    ∀ v : Json, v.Plain → Ascii (dumps gap v)
  | .null, _ => by
    rw [dumps]
    exact fun c hc => of_decide_eq_true (List.all_eq_true.mp (by decide :
      (str "null").all (fun c => decide (c.val < 128)) = true) c hc)
  | .bool b, _ => by
    rw [dumps]
    have hall : (if b then str "true" else str "false").all (fun c => decide (c.val < 128)) = true := by
      cases b <;> decide
    exact fun c hc => of_decide_eq_true (List.all_eq_true.mp hall c hc)
  | .int n, _ => by
    rw [dumps]
    refine ascii_append ?_ (ascii_of_isDigit (isDigit_decimal _))
    split_ifs
    · exact ascii_cons (by decide) nofun
    · exact nofun
  | .float literal, h => by
    rw [dumps]
    rw [Json.Plain] at h
    exact ascii_isFraction h.1
  | .str s, _ => by
    rw [dumps]
    exact ascii_encodeString s
  | .arr items, h => by
    rw [dumps]
    rw [Json.Plain] at h
    exact ascii_cons (by decide) (ascii_dumpsItems hgap items h)
  | .obj fields, h => by
    rw [dumps]
    rw [Json.Plain] at h
    exact ascii_cons (by decide) (ascii_dumpsFields hgap fields h.2)

theorem ascii_dumpsItems {gap : Str} (hgap : Ascii gap) :
    ∀ vs : List Json, PlainItems vs → Ascii (dumpsItems gap vs)
  | [], _ => by
    rw [dumpsItems]
    exact ascii_cons (by decide) nofun
  | v :: vs, h => by
    rw [dumpsItems]
    rw [PlainItems] at h
    exact ascii_append (ascii_dumps hgap v h.1) (ascii_dumpsMoreItems hgap vs h.2)

theorem ascii_dumpsMoreItems {gap : Str} (hgap : Ascii gap) :
    ∀ vs : List Json, PlainItems vs → Ascii (dumpsMoreItems gap vs)
  | [], _ => by
    rw [dumpsMoreItems]
    exact ascii_cons (by decide) nofun
  | v :: vs, h => by
    rw [dumpsMoreItems]
    rw [PlainItems] at h
    exact ascii_cons (by decide) (ascii_append hgap (ascii_append (ascii_dumps hgap v h.1)
      (ascii_dumpsMoreItems hgap vs h.2)))

theorem ascii_dumpsFields {gap : Str} (hgap : Ascii gap) :
    ∀ fs : List (Str × Json), PlainFields fs → Ascii (dumpsFields gap fs)
  | [], _ => by
    rw [dumpsFields]
    exact ascii_cons (by decide) nofun
  | (k, v) :: fs, h => by
    rw [dumpsFields]
    rw [PlainFields] at h
    exact ascii_append (ascii_encodeString k) (ascii_cons (by decide) (ascii_append hgap
      (ascii_append (ascii_dumps hgap v h.2.1) (ascii_dumpsMoreFields hgap fs h.2.2))))

theorem ascii_dumpsMoreFields {gap : Str} (hgap : Ascii gap) :
    ∀ fs : List (Str × Json), PlainFields fs → Ascii (dumpsMoreFields gap fs)
  | [], _ => by
    rw [dumpsMoreFields]
    exact ascii_cons (by decide) nofun
  | (k, v) :: fs, h => by
    rw [dumpsMoreFields]
    rw [PlainFields] at h
    exact ascii_cons (by decide) (ascii_append hgap (ascii_append (ascii_encodeString k)
      (ascii_cons (by decide) (ascii_append hgap (ascii_append (ascii_dumps hgap v h.2.1)
        (ascii_dumpsMoreFields hgap fs h.2.2))))))

end

theorem encodeUtf8_ascii {s : Str} (h : Ascii s) :
    encodeUtf8 s = some (s.map fun c => BitVec.ofNat 8 c.val) := by
  have hno : s.any isSurrogate = false := by
    rw [List.any_eq_false]
    intro c hc hsurrogate
    have hval := h c hc
    simp only [isSurrogate, Bool.and_eq_true, decide_eq_true_eq] at hsurrogate
    have hle : 0xd800 ≤ c.val := hsurrogate.1
    omega
  have hbytes : s.flatMap utf8 = s.map fun c => BitVec.ofNat 8 c.val := by
    induction s with
    | nil => rfl
    | cons c s ih =>
      have hc : c < 0x80 := h c List.mem_cons_self
      rw [List.flatMap_cons, List.map_cons, utf8, if_pos hc,
        ih (fun d hd => h d (List.mem_cons_of_mem _ hd))
          (by rw [List.any_cons, Bool.or_eq_false_iff] at hno; exact hno.2)]
      rfl
  rw [encodeUtf8, hno, if_neg Bool.false_ne_true, hbytes]

end Lzamp.Lib.PyJson
