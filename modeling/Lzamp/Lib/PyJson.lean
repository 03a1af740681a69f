import Lzamp.Lib.Matching
import Lzamp.Lib.PyText

namespace Lzamp.Lib.PyJson
open PyText Matching

/-- A decoded value.  A float keeps its literal, and an object is a `dict` in insertion order. -/
inductive Json where
  | null
  | bool (b : Bool)
  | int (n : ℤ)
  | float (literal : Str)
  | str (s : Str)
  | arr (items : List Json)
  | obj (fields : List (Str × Json))

mutual

/-- Equality of values, computed. -/
def Json.same : Json → Json → Bool
  | .null, .null => true
  | .bool a, .bool b => a == b
  | .int a, .int b => a == b
  | .float a, .float b => a == b
  | .str a, .str b => a == b
  | .arr a, .arr b => sameItems a b
  | .obj a, .obj b => sameFields a b
  | _, _ => false

def sameItems : List Json → List Json → Bool
  | [], [] => true
  | a :: as, b :: bs => a.same b && sameItems as bs
  | _, _ => false

def sameFields : List (Str × Json) → List (Str × Json) → Bool
  | [], [] => true
  | (k, a) :: as, (l, b) :: bs => k == l && a.same b && sameFields as bs
  | _, _ => false

end

mutual

theorem Json.same_iff : ∀ a b : Json, a.same b = true ↔ a = b
  | .null, b => by cases b <;> simp [Json.same]
  | .bool a, b => by cases b <;> simp [Json.same]
  | .int a, b => by cases b <;> simp [Json.same]
  | .float a, b => by cases b <;> simp [Json.same]
  | .str a, b => by cases b <;> simp [Json.same]
  | .arr a, b => by cases b <;> simp [Json.same, sameItems_iff a]
  | .obj a, b => by cases b <;> simp [Json.same, sameFields_iff a]

theorem sameItems_iff : ∀ as bs : List Json, sameItems as bs = true ↔ as = bs
  | [], bs => by cases bs <;> simp [sameItems]
  | _ :: _, [] => by simp [sameItems]
  | a :: as, b :: bs => by simp [sameItems, Json.same_iff a b, sameItems_iff as bs]

theorem sameFields_iff : ∀ as bs : List (Str × Json), sameFields as bs = true ↔ as = bs
  | [], bs => by cases bs <;> simp [sameFields]
  | _ :: _, [] => by simp [sameFields]
  | (k, a) :: as, (l, b) :: bs => by
    simp [sameFields, Json.same_iff a b, sameFields_iff as bs]

end

instance : DecidableEq Json := fun a b => decidable_of_iff _ (Json.same_iff a b)

inductive JsonError where
  | decodeError
  | valueError
  | recursionError
deriving DecidableEq

abbrev Scan := Except JsonError

/-- Assignment to a key of a `dict`. -/
def dictSet (fields : List (Str × Json)) (key : Str) (value : Json) : List (Str × Json) :=
  if fields.any (·.1 = key) then fields.map fun f => if f.1 = key then (key, value) else f
  else fields ++ [(key, value)]

/-- `dict.get`, where a missing key is `None` as `null` is. -/
def dictGet (fields : List (Str × Json)) (key : Str) : Json :=
  ((fields.find? (·.1 = key)).map (·.2)).getD .null

theorem find?_dictSet (fields : List (Str × Json)) (key : Str) (value : Json) :
    (dictSet fields key value).find? (·.1 = key) = some (key, value) := by
  unfold dictSet
  split_ifs with h
  · induction fields with
    | nil => simp at h
    | cons f fields ih =>
      by_cases hf : f.1 = key
      · simp [hf]
      · simp only [List.any_cons, hf, decide_false, Bool.false_or] at h
        simpa [hf] using ih h
  · rw [List.find?_append, List.find?_eq_none.mpr]
    · simp
    · intro f hf hkey
      exact h (List.any_eq_true.mpr ⟨f, hf, hkey⟩)

def isJsonSpace (c : CodePoint) : Bool := c == ch ' ' || c == ch '\t' || c == ch '\n' || c == ch '\r'

def skipWs (s : Str) : Str := s.dropWhile isJsonSpace

def expect (c : Char) (s : Str) : Option Str := lit [ch c] s some

def escapes : List (CodePoint × CodePoint) :=
  [(ch '"', ch '"'), (ch '\\', ch '\\'), (ch '/', ch '/'), (ch 'b', 8), (ch 'f', 12), (ch 'n', 10),
    (ch 'r', 13), (ch 't', 9)]

def hex4 (a b c d : CodePoint) : Option ℕ :=
  match hexValue a, hexValue b, hexValue c, hexValue d with
  | some a, some b, some c, some d => some (4096 * a + 256 * b + 16 * c + d)
  | _, _, _, _ => none

def push (n : ℕ) (scanned : Option (Str × Str)) : Option (Str × Str) :=
  scanned.map fun r => (Fin.ofNat _ n :: r.1, r.2)

/-- `scanstring_unicode` in strict mode, after the opening quote: the string and what follows it. -/
def scanString : Str → Option (Str × Str)
  | [] => none
  | c :: s =>
    if c = ch '"' then some ([], s)
    else if c ≠ ch '\\' then if c ≤ 0x1f then none else push c.val (scanString s)
    else match s with
      | [] => none
      | e :: s =>
        if e ≠ ch 'u' then
          match escapes.find? (·.1 = e) with
          | none => none
          | some escape => push escape.2.val (scanString s)
        else match s with
          | a :: b :: c :: d :: s =>
            match hex4 a b c d with
            | none => none
            | some high =>
              let alone := push high (scanString s)
              -- a high surrogate takes a low one that follows it
              if 0xd800 ≤ high ∧ high ≤ 0xdbff ∧ 6 < s.length then
                match s with
                | x :: y :: a :: b :: c :: d :: t =>
                  if x = ch '\\' ∧ y = ch 'u' then
                    match hex4 a b c d with
                    | none => none
                    | some low =>
                      if 0xdc00 ≤ low ∧ low ≤ 0xdfff then
                        push (0x10000 + (high - 0xd800) * 0x400 + (low - 0xdc00)) (scanString t)
                      else alone
                  else alone
                | _ => alone
              else alone
          | _ => none

/-- The constants, in the order in which they are tried. -/
def constants : List (Str × Json) :=
  [(str "null", .null), (str "true", .bool true), (str "false", .bool false),
    (str "NaN", .float (str "NaN")), (str "Infinity", .float (str "Infinity")),
    (str "-Infinity", .float (str "-Infinity"))]

def scanConstant (s : Str) : Option (Json × Str) :=
  constants.findSome? fun c => lit c.1 s fun rest => some (c.2, rest)

/-- A number as it is spelled. -/
structure NumberText where
  negative : Bool
  digits : Str
  /-- The fraction and the exponent, which make it a float. -/
  tail : Str
deriving DecidableEq

/-- The digits before the fraction: one zero, or digits that do not start with one. -/
def scanInteger : Str → Option (Str × Str)
  | [] => none
  | c :: s =>
    if c = ch '0' then some ([c], s)
    else if isDigit c then some (c :: s.takeWhile isDigit, s.dropWhile isDigit)
    else none

def scanFraction : Str → Str × Str
  | c :: d :: s =>
    if c = ch '.' ∧ isDigit d then (c :: d :: s.takeWhile isDigit, s.dropWhile isDigit)
    else ([], c :: d :: s)
  | s => ([], s)

def scanSign : Str → Str × Str
  | c :: s => if c = ch '+' ∨ c = ch '-' then ([c], s) else ([], c :: s)
  | [] => ([], [])

def scanExponent : Str → Str × Str
  | c :: s =>
    let sign := scanSign s
    let digits := sign.2.takeWhile isDigit
    if (c = ch 'e' ∨ c = ch 'E') ∧ digits ≠ [] then
      (c :: (sign.1 ++ digits), sign.2.dropWhile isDigit)
    else ([], c :: s)
  | [] => ([], [])

/-- `_match_number_unicode`. -/
def scanNumber (s : Str) : Option (NumberText × Str) :=
  let unsigned := match expect '-' s with
    | some t => t
    | none => s
  match scanInteger unsigned with
  | none => none
  | some (digits, rest) =>
    let fraction := scanFraction rest
    let exponent := scanExponent fraction.2
    some (⟨(expect '-' s).isSome, digits, fraction.1 ++ exponent.1⟩, exponent.2)

def NumberText.integer (n : NumberText) : ℤ :=
  if n.negative then -digitsValue n.digits else digitsValue n.digits

def NumberText.literal (n : NumberText) : Str :=
  (if n.negative then [ch '-'] else []) ++ n.digits ++ n.tail

/-- An integer that `int` refuses. -/
abbrev NumberText.TooLong (py : Interpreter) (n : NumberText) : Prop :=
  n.tail = [] ∧ py.maxStrDigits ≠ 0 ∧ py.maxStrDigits < n.digits.length

def NumberText.toJson (py : Interpreter) (n : NumberText) : Scan Json :=
  if n.TooLong py then throw .valueError
  else if n.tail = [] then pure (.int n.integer)
  else pure (.float n.literal)

def scanLeaf (py : Interpreter) (s : Str) : Scan (Json × Str) :=
  match scanConstant s with
  | some r => pure r
  | none =>
    match scanNumber s with
    | none => throw .decodeError
    | some (number, rest) => do
      let value ← number.toJson py
      pure (value, rest)

/-- A key and its colon: the key and the text at the value. -/
def scanKey (s : Str) : Option (Str × Str) :=
  match (expect '"' s).bind scanString with
  | none => none
  | some (key, rest) => (expect ':' (skipWs rest)).map fun t => (key, skipWs t)

/-- What stands after an item: the end of its container, or a comma and the text at the next
item. -/
inductive Delimiter where
  | close (rest : Str)
  | comma (rest : Str)
  | other
deriving DecidableEq

def delimiter (close : Char) (s : Str) : Delimiter :=
  match expect close (skipWs s) with
  | some rest => .close rest
  | none =>
    match expect ',' (skipWs s) with
    | some rest => .comma (skipWs rest)
    | none => .other

mutual

/-- `scan_once_unicode`. -/
def scanOnce (py : Interpreter) : ℕ → Str → Scan (Json × Str)
  | 0, _ => throw .recursionError
  | n + 1, s =>
    match expect '"' s with
    | some t =>
      match scanString t with
      | none => throw .decodeError
      | some (value, rest) => pure (.str value, rest)
    | none =>
      match expect '{' s with
      | some t =>
        match expect '}' (skipWs t) with
        | some rest => pure (.obj [], rest)
        | none => scanMembers py n (skipWs t) []
      | none =>
        match expect '[' s with
        | some t =>
          match expect ']' (skipWs t) with
          | some rest => pure (.arr [], rest)
          | none => scanElements py n (skipWs t) []
        | none => scanLeaf py s

/-- The loop of `_parse_array_unicode`. -/
def scanElements (py : Interpreter) : ℕ → Str → List Json → Scan (Json × Str)
  | 0, _, _ => throw .recursionError
  | n + 1, s, items => do
    let (value, rest) ← scanOnce py n s
    match delimiter ']' rest with
    | .close rest => pure (.arr (items ++ [value]), rest)
    | .comma rest => scanElements py n rest (items ++ [value])
    | .other => throw .decodeError

/-- The loop of `_parse_object_unicode`. -/
def scanMembers (py : Interpreter) : ℕ → Str → List (Str × Json) → Scan (Json × Str)
  | 0, _, _ => throw .recursionError
  | n + 1, s, fields =>
    match scanKey s with
    | none => throw .decodeError
    | some (key, t) => do
      let (value, rest) ← scanOnce py n t
      match delimiter '}' rest with
      | .close rest => pure (.obj (dictSet fields key value), rest)
      | .comma rest => scanMembers py n rest (dictSet fields key value)
      | .other => throw .decodeError

end

def fuel (s : Str) : ℕ := 2 * s.length + 1

def scanValue (py : Interpreter) (s : Str) : Scan (Json × Str) := scanOnce py (fuel s) s

/-- `json.loads` of a `str`, as the C scanner of the standard library decodes it.  Beyond the
grammar of JSON it accepts NaN and the infinities, lets surrogates stand, and refuses a long integer
with a plain ValueError, which is not a JSONDecodeError. -/
def loads (py : Interpreter) (s : Str) : Scan Json :=
  if s.head? = some 0xfeff then throw .decodeError
  else do
    let (value, rest) ← scanValue py (skipWs s)
    if skipWs rest = [] then pure value else throw .decodeError

theorem expect_eq_some {c : Char} {s t : Str} : expect c s = some t ↔ s = ch c :: t := by
  simp [expect, lit_eq_some]

theorem length_of_expect {c : Char} {s t : Str} (h : expect c s = some t) :
    t.length < s.length := by
  rw [expect_eq_some.mp h]
  exact Nat.lt_succ_self _

theorem length_skipWs_le (s : Str) : (skipWs s).length ≤ s.length :=
  (List.dropWhile_sublist isJsonSpace).length_le

theorem length_push {n : ℕ} {s : Str} {r : Str × Str}
    (ih : ∀ {r}, scanString s = some r → r.2.length < s.length)
    (h : push n (scanString s) = some r) : r.2.length < s.length := by
  simp only [push, Option.map_eq_some_iff] at h
  obtain ⟨r', hr', rfl⟩ := h
  have hlt : r'.2.length < s.length := ih hr'
  exact hlt

theorem length_scanString {s : Str} {r : Str × Str} (h : scanString s = some r) :
    r.2.length < s.length := by
  fun_induction scanString s generalizing r with
  | case1 | case3 | case5 | case6 | case8 | case9 | case15 => cases h
  | case2 =>
    cases h
    exact Nat.lt_succ_self _
  | _ =>
    -- one more character, and a rest that is the rest of a shorter text
    rename_i ih
    have hlt := length_push ih h
    simp only [List.length_cons] at hlt ⊢
    omega

theorem length_scanConstant {s : Str} {r : Json × Str} (h : scanConstant s = some r) :
    r.2.length < s.length := by
  obtain ⟨c, hc, hr⟩ := List.exists_of_findSome?_eq_some h
  obtain ⟨t, rfl, ht⟩ := lit_eq_some.mp hr
  have hne : ∀ c ∈ constants, c.1 ≠ [] := by
    simp only [constants, List.forall_mem_cons]
    exact ⟨by decide, by decide, by decide, by decide, by decide, by decide, by simp⟩
  have hpos := List.length_pos_of_ne_nil (hne c hc)
  cases ht
  rw [List.length_append]
  exact Nat.lt_add_of_pos_left hpos

theorem length_scanInteger {s : Str} {r : Str × Str} (h : scanInteger s = some r) :
    r.2.length < s.length := by
  cases s with
  | nil => cases h
  | cons c s =>
    have hdrop := (List.dropWhile_sublist (l := s) isDigit).length_le
    rw [scanInteger] at h
    split_ifs at h
    · cases h
      exact Nat.lt_succ_self _
    · cases h
      exact Nat.lt_succ_of_le hdrop

theorem length_scanFraction (s : Str) : (scanFraction s).2.length ≤ s.length := by
  unfold scanFraction
  split
  · rename_i c d s
    have hdrop := (List.dropWhile_sublist (l := s) isDigit).length_le
    split_ifs
    · simp only [List.length_cons]
      omega
    · exact le_rfl
  · exact le_rfl

theorem length_scanSign (s : Str) : (scanSign s).2.length ≤ s.length := by
  unfold scanSign
  split
  · split_ifs
    · simp
    · exact le_rfl
  · exact le_rfl

theorem length_scanExponent (s : Str) : (scanExponent s).2.length ≤ s.length := by
  unfold scanExponent
  split
  · rename_i c s
    have hsign := length_scanSign s
    have hdrop := (List.dropWhile_sublist (l := (scanSign s).2) isDigit).length_le
    dsimp only
    split_ifs
    · simp only [List.length_cons]
      omega
    · exact le_rfl
  · exact le_rfl

theorem length_scanNumber {s : Str} {r : NumberText × Str} (h : scanNumber s = some r) :
    r.2.length < s.length := by
  unfold scanNumber at h
  dsimp only at h
  have hle : (match expect '-' s with | some t => t | none => s).length ≤ s.length := by
    split
    · exact (length_of_expect ‹_›).le
    · exact le_rfl
  generalize (match expect '-' s with | some t => t | none => s) = unsigned at h hle
  split at h
  · cases h
  · rename_i digits rest hinteger
    have h1 := length_scanInteger hinteger
    have h2 := length_scanFraction rest
    have h3 := length_scanExponent (scanFraction rest).2
    cases h
    dsimp only at h1 ⊢
    omega

theorem length_scanLeaf {py : Interpreter} {s : Str} {r : Json × Str}
    (h : scanLeaf py s = .ok r) : r.2.length < s.length := by
  unfold scanLeaf at h
  split at h
  · rename_i r' hr'
    cases h
    exact length_scanConstant hr'
  · split at h
    · cases h
    · rename_i number rest hnumber
      cases hvalue : number.toJson py with
      | error e =>
        rw [hvalue] at h
        cases h
      | ok value =>
        rw [hvalue] at h
        cases h
        exact length_scanNumber hnumber

theorem length_scanKey {s key t : Str} (h : scanKey s = some (key, t)) : t.length < s.length := by
  unfold scanKey at h
  split at h
  · cases h
  · rename_i key' rest hkey
    obtain ⟨u, hu, hstring⟩ := Option.bind_eq_some_iff.mp hkey
    obtain ⟨v, hv, heq⟩ := Option.map_eq_some_iff.mp h
    have h1 := length_of_expect hu
    have h2 : rest.length < u.length := length_scanString hstring
    have h3 := length_skipWs_le rest
    have h4 := length_of_expect hv
    have h5 := length_skipWs_le v
    cases heq
    omega

theorem length_of_close {c : Char} {s rest : Str} (h : delimiter c s = .close rest) :
    rest.length < s.length := by
  unfold delimiter at h
  split at h
  · rename_i hclose
    cases h
    exact (length_of_expect hclose).trans_le (length_skipWs_le s)
  · split at h <;> cases h

theorem length_of_comma {c : Char} {s rest : Str} (h : delimiter c s = .comma rest) :
    rest.length < s.length := by
  unfold delimiter at h
  split at h
  · cases h
  · split at h
    · rename_i t hcomma
      cases h
      have h1 := length_of_expect hcomma
      have h2 := length_skipWs_le s
      have h3 := length_skipWs_le t
      omega
    · cases h

theorem length_scan (py : Interpreter) (n : ℕ) :
    (∀ s r, scanOnce py n s = .ok r → r.2.length < s.length) ∧
    (∀ s items r, scanElements py n s items = .ok r → r.2.length < s.length) ∧
    (∀ s fields r, scanMembers py n s fields = .ok r → r.2.length < s.length) := by
  -- the three scanners call each other, each with less fuel
  induction n with
  | zero => exact ⟨nofun, nofun, nofun⟩
  | succ n ih =>
    obtain ⟨ihOnce, ihElements, ihMembers⟩ := ih
    refine ⟨fun s r h => ?_, fun s items r h => ?_, fun s fields r h => ?_⟩
    · rw [scanOnce] at h
      split at h
      · rename_i t ht
        have hlt := length_of_expect ht
        split at h
        · cases h
        · rename_i hstring
          cases h
          exact (length_scanString hstring).trans hlt
      split at h
      · rename_i t ht
        have hlt := length_of_expect ht
        have hws := length_skipWs_le t
        split at h
        · rename_i hclose
          cases h
          exact (length_of_expect hclose).trans (by omega)
        · exact (ihMembers _ _ _ h).trans (by omega)
      split at h
      · rename_i t ht
        have hlt := length_of_expect ht
        have hws := length_skipWs_le t
        split at h
        · rename_i hclose
          cases h
          exact (length_of_expect hclose).trans (by omega)
        · exact (ihElements _ _ _ h).trans (by omega)
      · exact length_scanLeaf h
    · rw [scanElements] at h
      obtain ⟨⟨value, rest⟩, hvalue, h⟩ := bind_eq_ok.mp h
      have hlt : rest.length < s.length := ihOnce _ _ hvalue
      dsimp only at h
      split at h
      · rename_i hclose
        cases h
        exact (length_of_close hclose).trans hlt
      · rename_i hcomma
        exact (ihElements _ _ _ h).trans ((length_of_comma hcomma).trans hlt)
      · cases h
    · rw [scanMembers] at h
      split at h
      · cases h
      rename_i key t hkey
      obtain ⟨⟨value, rest⟩, hvalue, h⟩ := bind_eq_ok.mp h
      have hlt : rest.length < t.length := ihOnce _ _ hvalue
      have hkey := length_scanKey hkey
      dsimp only at h
      split at h
      · rename_i hclose
        cases h
        exact (length_of_close hclose).trans (hlt.trans hkey)
      · rename_i hcomma
        exact (ihMembers _ _ _ h).trans ((length_of_comma hcomma).trans (hlt.trans hkey))
      · cases h

section Fuel

variable {py : Interpreter}

/-- With enough fuel the result does not depend on it. -/
theorem scan_stable (n : ℕ) :
    (∀ m s, 2 * s.length < n → 2 * s.length < m → scanOnce py n s = scanOnce py m s) ∧
    (∀ m s items, 2 * s.length + 1 < n → 2 * s.length + 1 < m →
      scanElements py n s items = scanElements py m s items) ∧
    (∀ m s fields, 2 * s.length + 1 < n → 2 * s.length + 1 < m →
      scanMembers py n s fields = scanMembers py m s fields) := by
  induction n with
  | zero => exact ⟨nofun, nofun, nofun⟩
  | succ n ih =>
    obtain ⟨ihOnce, ihElements, ihMembers⟩ := ih
    refine ⟨fun m s hn hm => ?_, fun m s items hn hm => ?_, fun m s fields hn hm => ?_⟩
    · obtain ⟨m, rfl⟩ := Nat.exists_eq_add_one_of_ne_zero (Nat.ne_zero_of_lt hm)
      -- a bracket is a character read, and that pays for the two levels below it
      have hinside {c : Char} {t : Str} (ht : expect c s = some t) :
          2 * (skipWs t).length + 1 < n ∧ 2 * (skipWs t).length + 1 < m := by
        have hlt := length_of_expect ht
        have hws := length_skipWs_le t
        omega
      rw [scanOnce, scanOnce]
      split
      · rfl
      split
      · rename_i t ht
        split
        · rfl
        · exact ihMembers m _ _ (hinside ht).1 (hinside ht).2
      split
      · rename_i t ht
        split
        · rfl
        · exact ihElements m _ _ (hinside ht).1 (hinside ht).2
      · rfl
    · obtain ⟨m, rfl⟩ := Nat.exists_eq_add_one_of_ne_zero (Nat.ne_zero_of_lt hm)
      rw [scanElements, scanElements, ihOnce m s (by omega) (by omega)]
      cases hvalue : scanOnce py m s with
      | error e => rfl
      | ok r =>
        have hlt := (length_scan py m).1 _ _ hvalue
        simp only [bind, Except.bind]
        split
        · rfl
        · rename_i hcomma
          have := length_of_comma hcomma
          exact ihElements m _ _ (by omega) (by omega)
        · rfl
    · obtain ⟨m, rfl⟩ := Nat.exists_eq_add_one_of_ne_zero (Nat.ne_zero_of_lt hm)
      rw [scanMembers, scanMembers]
      split
      · rfl
      rename_i key t hkey
      have hlt := length_scanKey hkey
      rw [ihOnce m t (by omega) (by omega)]
      cases hvalue : scanOnce py m t with
      | error e => rfl
      | ok r =>
        have hlt := (length_scan py m).1 _ _ hvalue
        simp only [bind, Except.bind]
        split
        · rfl
        · rename_i hcomma
          have := length_of_comma hcomma
          exact ihMembers m _ _ (by omega) (by omega)
        · rfl

theorem scanOnce_eq_scanValue {n : ℕ} {s : Str} (hn : 2 * s.length < n) :
    scanOnce py n s = scanValue py s :=
  (scan_stable n).1 _ s hn (Nat.lt_succ_self _)

theorem scanLeaf_ne_recursionError (s : Str) : scanLeaf py s ≠ .error .recursionError := by
  unfold scanLeaf
  split
  · nofun
  split
  · nofun
  · rename_i number rest _
    unfold NumberText.toJson
    split_ifs <;> nofun

theorem scan_ne_recursionError (n : ℕ) :
    (∀ s, 2 * s.length < n → scanOnce py n s ≠ .error .recursionError) ∧
    (∀ s items, 2 * s.length + 1 < n → scanElements py n s items ≠ .error .recursionError) ∧
    (∀ s fields, 2 * s.length + 1 < n → scanMembers py n s fields ≠ .error .recursionError) := by
  -- as for stability: whatever is scanned next is shorter by a character for two of fuel
  induction n with
  | zero => exact ⟨nofun, nofun, nofun⟩
  | succ n ih =>
    obtain ⟨ihOnce, ihElements, ihMembers⟩ := ih
    refine ⟨fun s hn => ?_, fun s items hn h => ?_, fun s fields hn h => ?_⟩
    · have hinside {c : Char} {t : Str} (ht : expect c s = some t) :
          2 * (skipWs t).length + 1 < n := by
        have hlt := length_of_expect ht
        have hws := length_skipWs_le t
        omega
      rw [scanOnce]
      split
      · split <;> nofun
      split
      · rename_i t ht
        split
        · nofun
        · exact ihMembers _ _ (hinside ht)
      split
      · rename_i t ht
        split
        · nofun
        · exact ihElements _ _ (hinside ht)
      · exact scanLeaf_ne_recursionError s
    · rw [scanElements] at h
      rcases bind_eq_error.mp h with h | ⟨⟨value, rest⟩, hvalue, h⟩
      · exact ihOnce s (by omega) h
      · have hlt : rest.length < s.length := (length_scan py n).1 _ _ hvalue
        dsimp only at h
        split at h
        · cases h
        · rename_i hcomma
          have := length_of_comma hcomma
          exact ihElements _ _ (by omega) h
        · cases h
    · rw [scanMembers] at h
      split at h
      · cases h
      rename_i key t hkey
      have hkey := length_scanKey hkey
      rcases bind_eq_error.mp h with h | ⟨⟨value, rest⟩, hvalue, h⟩
      · exact ihOnce t (by omega) h
      · have hlt : rest.length < t.length := (length_scan py n).1 _ _ hvalue
        dsimp only at h
        split at h
        · cases h
        · rename_i hcomma
          have := length_of_comma hcomma
          exact ihMembers _ _ (by omega) h
        · cases h

/-- `loads` never runs out of fuel. -/
theorem loads_ne_recursionError (s : Str) : loads py s ≠ .error .recursionError := by
  unfold loads
  split_ifs
  · nofun
  · intro h
    rcases bind_eq_error.mp h with h | ⟨⟨value, rest⟩, -, h⟩
    · exact (scan_ne_recursionError _).1 _ (Nat.lt_succ_self _) h
    · dsimp only at h
      split_ifs at h <;> cases h

end Fuel

end Lzamp.Lib.PyJson
