import Lzamp.Agent.Rejections
import Lzamp.Lib.PyJsonValues

namespace Lzamp.Agent
open Lib Lib.PyText Lib.PyJson Lib.Matching

/-- Integers in decimal, strings verbatim. -/
def valueText : Json → Str
  | .int n => if n < 0 then ch '-' :: decimal n.natAbs else decimal n.natAbs
  | .str s => s
  | _ => []

/-- `<parameter=K>V</parameter>`. -/
def parameterText (argument : Str × Json) : Str :=
  str "<parameter=" ++ (argument.1 ++ (str ">" ++ (valueText argument.2 ++ str "</parameter>")))

def nativeText (tool : Tool) (arguments : List (Str × Json)) : Str :=
  str "<tool_call>" ++ (str "<function=" ++ (str tool.name ++ (str ">" ++
    (arguments.flatMap parameterText ++ (str "</function>" ++ str "</tool_call>")))))

/-- The printing characters of ASCII, without the space. -/
def isPrinting (c : CodePoint) : Bool := 32 < c.val && c.val < 127

theorem isSpace_of_isPrinting {c : CodePoint} (h : isPrinting c = true) : isSpace c = false := by
  simp only [isPrinting, Bool.and_eq_true, decide_eq_true_eq] at h
  exact isSpace_of_printing h.1 h.2

theorem isPrinting_of_isAlnum {c : CodePoint} (h : isAlnum c = true) : isPrinting c = true := by
  rw [isAlnum_iff] at h
  simp only [isPrinting, Bool.and_eq_true, decide_eq_true_eq]
  omega

theorem isPrinting_of_isNameChar {c : CodePoint} (h : isNameChar c = true) :
    isPrinting c = true := by
  by_cases hunderscore : c = ch '_'
  · rw [hunderscore]
    decide
  · have hword : isAlnum c = true := by
      simpa [isNameChar, isNameStart, isAlnum, hunderscore, or_comm, or_left_comm, or_assoc] using h
    exact isPrinting_of_isAlnum hword

/-- `[A-Za-z_][A-Za-z0-9_]*`. -/
def isIdentifier : Str → Bool
  | [] => false
  | c :: s => isNameStart c && s.all isNameChar

theorem isPrinting_of_isIdentifier {s : Str} (h : isIdentifier s = true) :
    ∀ c ∈ s, isPrinting c = true := by
  cases s with
  | nil => simp
  | cons c s =>
    simp only [isIdentifier, Bool.and_eq_true, List.all_eq_true] at h
    rw [List.forall_mem_cons]
    exact ⟨isPrinting_of_isNameChar (by simp [isNameChar, h.1]),
      fun d hd => isPrinting_of_isNameChar (h.2 d hd)⟩

theorem identifier_append {β : Type} {name : Str} (h : isIdentifier name = true) (rest : Str)
    (k : Str → Str → Option β) :
    (identifier (name ++ (str ">" ++ rest)) fun name s => lit (str ">") s fun s => k name s) =
      k name rest := by
  cases name with
  | nil => cases h
  | cons c t =>
    simp only [isIdentifier, Bool.and_eq_true, List.all_eq_true] at h
    have hstop : ∀ got d rest, isNameChar d = true →
        (lit (str ">") (d :: rest) fun s => k (c :: got) s) = none := by
      intro got d rest hd
      have hne : ch '>' ≠ d := by
        rintro rfl
        exact absurd hd (by decide)
      exact if_neg hne
    have htake : (t ++ (str ">" ++ rest)).takeWhile isNameChar = t := by
      rw [List.takeWhile_append_of_pos h.2]
      exact List.append_nil t
    have hdrop : (t ++ (str ">" ++ rest)).dropWhile isNameChar = str ">" ++ rest :=
      List.dropWhile_append_of_pos h.2
    rw [List.cons_append, identifier, if_pos h.1, greedy_eq hstop, htake, hdrop, lit_append]

theorem greedy_isSpace {β : Type} {s : Str} (h : ∀ c ∈ s.head?, isPrinting c = true)
    (k : Str → Str → Option β) : greedy isSpace s k = k [] s :=
  greedy_of_head fun c hc => isSpace_of_isPrinting (h c hc)

theorem greedy_isSpace_tag {β : Type} (w : String) (s : Str) (k : Str → Str → Option β)
    (h : (str w).head?.any isPrinting = true) :
    greedy isSpace (str w ++ s) k = k [] (str w ++ s) := by
  cases hw : str w with
  | nil =>
    rw [hw] at h
    cases h
  | cons d t =>
    rw [hw] at h
    refine greedy_isSpace (fun c hc => ?_) k
    cases hc
    exact h

/-- The tag that closes a parameter does not start inside a word. -/
theorem nativeParameter_text {argument : Str × Json} (hname : isIdentifier argument.1 = true)
    (hvalue : ∀ c ∈ valueText argument.2, isAlnum c = true) (rest : Str) :
    nativeParameter (parameterText argument ++ rest) =
      some ((argument.1, valueText argument.2), rest) := by
  have hclose : (str "</parameter>" ++ rest).head? = some (ch '<') := rfl
  have hend : parameterEnd (argument.1, valueText argument.2) (str "</parameter>" ++ rest) =
      some ((argument.1, valueText argument.2), rest) := by
    rw [parameterEnd, greedy_isSpace_tag _ _ _ (by decide), lit_append]
  have hinside : ∀ got more, more ≠ [] → valueText argument.2 = got ++ more →
      parameterEnd (argument.1, got) (more ++ (str "</parameter>" ++ rest)) = none := by
    intro got more hmore hsplit
    obtain ⟨c, more, rfl⟩ := List.exists_cons_of_ne_nil hmore
    have hc : isAlnum c = true := hvalue c (by simp [hsplit])
    have hne : ch '<' ≠ c := by
      rintro rfl
      exact absurd hc (by decide)
    rw [parameterEnd, greedy_isSpace fun d hd => by cases hd; exact isPrinting_of_isAlnum hc]
    exact if_neg hne
  have hhead : ∀ c ∈ (valueText argument.2 ++ (str "</parameter>" ++ rest)).head?,
      isPrinting c = true := by
    intro c hc
    cases hvalues : valueText argument.2 with
    | nil =>
      rw [hvalues, List.nil_append, hclose] at hc
      cases hc
      decide
    | cons d value =>
      rw [hvalues] at hc
      cases hc
      exact isPrinting_of_isAlnum (hvalue c (by simp [hvalues]))
  simp only [parameterText, List.append_assoc]
  rw [nativeParameter, greedy_isSpace_tag _ _ _ (by decide), lit_append, identifier_append hname,
    greedy_isSpace hhead]
  exact reluctant_eq hend hinside

section Block

variable {arguments : List (Str × Json)}

/-- Names that are identifiers and values that are words. -/
def Spellable (arguments : List (Str × Json)) : Prop :=
  ∀ argument ∈ arguments, isIdentifier argument.1 = true ∧
    ∀ c ∈ valueText argument.2, isAlnum c = true

theorem Spellable.findAll (h : Spellable arguments) {n : ℕ} (hn : arguments.length ≤ n) :
    Matching.findAll nativeParameter n (arguments.flatMap parameterText) =
      (arguments.map fun argument => ([], argument.1, valueText argument.2), []) := by
  induction arguments generalizing n with
  | nil => cases n <;> rfl
  | cons argument arguments ih =>
    obtain ⟨n, rfl⟩ : ∃ m, n = m + 1 := ⟨n - 1, by rw [List.length_cons] at hn; omega⟩
    obtain ⟨hname, hvalue⟩ := h argument List.mem_cons_self
    have hmatch := nativeParameter_text hname hvalue (arguments.flatMap parameterText)
    have hrest := ih (fun a ha => h a (List.mem_cons_of_mem _ ha)) (n := n)
      (by rw [List.length_cons] at hn; omega)
    rw [List.flatMap_cons, Matching.findAll, search_eq_of_match hmatch]
    dsimp only
    rw [hrest]
    rfl

theorem length_le_flatMap_parameterText :
    arguments.length ≤ (arguments.flatMap parameterText).length := by
  induction arguments with
  | nil => exact Nat.zero_le _
  | cons argument arguments ih =>
    have hpos : 0 < (parameterText argument).length := by
      rw [parameterText, List.length_append]
      exact Nat.lt_of_lt_of_le (by decide) (Nat.le_add_right (str "<parameter=").length _)
    rw [List.flatMap_cons, List.length_append, List.length_cons]
    omega

theorem Spellable.nativeParameters (h : Spellable arguments) :
    Agent.nativeParameters (arguments.flatMap parameterText) =
      (arguments.map fun argument => ([], argument.1, valueText argument.2), []) :=
  h.findAll (Nat.le_succ_of_le length_le_flatMap_parameterText)

theorem isPrinting_str {w : String} (h : (str w).all isPrinting = true) :
    ∀ c ∈ str w, isPrinting c = true := List.all_eq_true.mp h

theorem Spellable.printing (h : Spellable arguments) :
    ∀ c ∈ arguments.flatMap parameterText, isPrinting c = true := by
  intro c hc
  obtain ⟨argument, hmem, hc⟩ := List.mem_flatMap.mp hc
  obtain ⟨hname, hvalue⟩ := h argument hmem
  simp only [parameterText, List.mem_append] at hc
  rcases hc with hc | hc | hc | hc | hc
  · exact isPrinting_str (by decide) c hc
  · exact isPrinting_of_isIdentifier hname c hc
  · exact isPrinting_str (by decide) c hc
  · exact isPrinting_of_isAlnum (hvalue c hc)
  · exact isPrinting_str (by decide) c hc

theorem nativeEnd_eq_some {β : Type} {b b' : β} {s : Str} (h : nativeEnd b s = some b') :
    ∃ before between, s = before ++ (str "</function>" ++ (between ++ str "</tool_call>")) ∧
      (∀ c ∈ before, isSpace c = true) ∧ ∀ c ∈ between, isSpace c = true := by
  obtain ⟨before, t, hs, hbefore, hfunction⟩ := exists_of_greedy h
  obtain ⟨u, ht, hmiddle⟩ := lit_eq_some.mp hfunction
  obtain ⟨between, v, hu, hbetween, hcall⟩ := exists_of_greedy hmiddle
  obtain ⟨w, hv, hlast⟩ := lit_eq_some.mp hcall
  split_ifs at hlast with hw
  exact ⟨before, between, by rw [hs, ht, hu, hv, hw, List.append_nil], hbefore, hbetween⟩

theorem nativeEnd_inside {β : Type} {b : β} {more : Str} (hmore : more ≠ [])
    (h : ∀ c ∈ more, isPrinting c = true) :
    nativeEnd b (more ++ (str "</function>" ++ str "</tool_call>")) = none := by
  rw [Option.eq_none_iff_forall_ne_some]
  intro b' hb'
  obtain ⟨before, between, hsplit, hbefore, hbetween⟩ := nativeEnd_eq_some hb'
  have hall : ∀ c ∈ more ++ (str "</function>" ++ str "</tool_call>"), isSpace c = false := by
    intro c hc
    apply isSpace_of_isPrinting
    rcases List.mem_append.mp hc with hc | hc
    · exact h c hc
    · exact List.all_eq_true.mp (by decide) c hc
  rw [hsplit] at hall
  have hnil {t : Str} (ht : ∀ c ∈ t, isSpace c = true)
      (hmem : ∀ c ∈ t, c ∈ before ++ (str "</function>" ++ (between ++ str "</tool_call>"))) :
      t = [] := by
    refine List.eq_nil_iff_forall_not_mem.mpr fun c hc => ?_
    have hno := hall c (hmem c hc)
    rw [ht c hc] at hno
    cases hno
  have h1 : before = [] := hnil hbefore fun c hc => by simp [hc]
  have h2 : between = [] := hnil hbetween fun c hc => by simp [hc]
  rw [h1, h2, List.nil_append, List.nil_append] at hsplit
  exact hmore (List.append_left_eq_self.mp hsplit)

theorem isIdentifier_name (tool : Tool) : isIdentifier (str tool.name) = true := by
  cases tool <;> (rw [Tool.name, str_ofList]; decide)

theorem Spellable.nativeToolCall (h : Spellable arguments) (tool : Tool) :
    Agent.nativeToolCall (nativeText tool arguments) =
      some (str tool.name, arguments.flatMap parameterText) := by
  have hend : nativeEnd (str tool.name, arguments.flatMap parameterText)
      (str "</function>" ++ str "</tool_call>") =
        some (str tool.name, arguments.flatMap parameterText) := by
    rw [nativeEnd, greedy_isSpace_tag _ _ _ (by decide), lit_append,
      ← List.append_nil (str "</tool_call>"), greedy_isSpace_tag _ _ _ (by decide)]
    exact lit_append (str "</tool_call>") [] _
  have hinside : ∀ got more, more ≠ [] → arguments.flatMap parameterText = got ++ more →
      nativeEnd (str tool.name, got) (more ++ (str "</function>" ++ str "</tool_call>")) = none := by
    intro got more hmore hsplit
    exact nativeEnd_inside hmore fun c hc => h.printing c (by simp [hsplit, hc])
  have hhead : ∀ c ∈ (arguments.flatMap parameterText ++
      (str "</function>" ++ str "</tool_call>")).head?, isPrinting c = true := by
    intro c hc
    rcases List.mem_append.mp (List.mem_of_mem_head? hc) with hc | hc
    · exact h.printing c hc
    · exact List.all_eq_true.mp (by decide) c hc
  rw [Agent.nativeToolCall, nativeText, lit_append,
    greedy_isSpace_tag _ _ _ (by decide), lit_append,
    identifier_append (isIdentifier_name tool), greedy_isSpace hhead]
  exact reluctant_eq hend hinside

theorem Spellable.strip_nativeText (h : Spellable arguments) (tool : Tool) :
    strip (nativeText tool arguments) = nativeText tool arguments := by
  refine strip_of_no_space fun c hc => isSpace_of_isPrinting ?_
  simp only [nativeText, List.mem_append] at hc
  rcases hc with hc | hc | hc | hc | hc | hc | hc
  · exact isPrinting_str (by decide) c hc
  · exact isPrinting_str (by decide) c hc
  · exact isPrinting_of_isIdentifier (isIdentifier_name tool) c hc
  · exact isPrinting_str (by decide) c hc
  · exact h.printing c hc
  · exact isPrinting_str (by decide) c hc
  · exact isPrinting_str (by decide) c hc

end Block

/-- A word that no constant starts. -/
structure Word (s : Str) : Prop where
  alnum : ∀ c ∈ s, isAlnum c = true
  constant : scanConstant s = none
  length : s.length ≤ 640

/-- An unsigned word of 32 bits, or a string that is a word. -/
def Plain : Json → Prop
  | .int n => 0 ≤ n ∧ n < 2 ^ 32
  | .str s => Word s
  | _ => False

/-- A string that comes back as a number. -/
def SpellsNumberValue : Json → Prop
  | .str s => SpellsNumber s
  | _ => False

theorem valueText_int {n : ℤ} (h : 0 ≤ n) : valueText (.int n) = decimal n.toNat := by
  have hn : n.natAbs = n.toNat := by omega
  rw [valueText, if_neg (by omega), hn]

theorem Plain.alnum {value : Json} (h : Plain value) : ∀ c ∈ valueText value, isAlnum c = true := by
  cases value with
  | int n =>
    rw [valueText_int h.1]
    exact fun c hc => by simp [isAlnum, isDigit_decimal _ c hc]
  | str s => exact Word.alnum h
  | _ => cases h

theorem nativeValue_plain (py : Interpreter) {value : Json} (h : Plain value) :
    (¬ SpellsNumberValue value ∧ nativeValue py (valueText value) = .ok value) ∨
      (SpellsNumberValue value ∧ ∃ w, nativeValue py (valueText value) = .ok w ∧ ∀ t, w ≠ .str t) := by
  cases value with
  | int n =>
    refine .inl ⟨not_false, ?_⟩
    have hlength := length_decimal_le (n := n.toNat) (by have := h.2; have := h.1; omega)
    have hn : ((n.toNat : ℕ) : ℤ) = n := Int.toNat_of_nonneg h.1
    rw [valueText_int h.1, nativeValue, loads_decimal py (by omega), hn]
    rfl
  | str s =>
    have hword : Word s := h
    rcases loads_word_cases py hword.alnum hword.constant hword.length with
      ⟨hs, w, hw, hne⟩ | ⟨hs, herror⟩
    · refine .inr ⟨hs, w, ?_, hne⟩
      rw [valueText, nativeValue, hw]
      rfl
    · refine .inl ⟨hs, ?_⟩
      rw [valueText, nativeValue, herror]
      rfl
  | _ => cases h

/-- The arguments that a native block gives: the same, but for strings that spell numbers. -/
def ReadBack (arguments found : List (Str × Json)) : Prop :=
  List.Forall₂ (fun argument result => result.1 = argument.1 ∧
    ((¬ SpellsNumberValue argument.2 ∧ result.2 = argument.2) ∨
      (SpellsNumberValue argument.2 ∧ ∀ t, result.2 ≠ .str t))) arguments found

theorem collectParameters_plain (py : Interpreter) {arguments : List (Str × Json)}
    (hplain : ∀ argument ∈ arguments, Plain argument.2) (done : List (Str × Json))
    (hkeys : ((done ++ arguments).map (·.1)).Nodup) :
    ∃ found, ReadBack arguments found ∧
      collectParameters py (arguments.map fun argument => ([], argument.1, valueText argument.2))
        done = .ok (done ++ found) := by
  induction arguments generalizing done with
  | nil => exact ⟨[], .nil, by rw [List.append_nil]; rfl⟩
  | cons argument arguments ih =>
    have hvalue := hplain argument List.mem_cons_self
    have hstrip : strip (valueText argument.2) = valueText argument.2 :=
      strip_of_no_space fun c hc =>
        isSpace_of_isPrinting (isPrinting_of_isAlnum (hvalue.alnum c hc))
    have hnew : ¬ done.any (·.1 = argument.1) = true := by
      intro hany
      obtain ⟨f, hf, heq⟩ := List.any_eq_true.mp hany
      rw [List.map_append, List.nodup_append] at hkeys
      exact hkeys.2.2 f.1 (List.mem_map_of_mem hf) argument.1 (by simp) (of_decide_eq_true heq)
    have hset (w : Json) : dictSet done argument.1 w = done ++ [(argument.1, w)] := by
      rw [dictSet, if_neg hnew]
    have hstep (w : Json) (hw : nativeValue py (valueText argument.2) = .ok w)
        (hback : (¬ SpellsNumberValue argument.2 ∧ w = argument.2) ∨
          (SpellsNumberValue argument.2 ∧ ∀ t, w ≠ .str t)) :
        ∃ found, ReadBack (argument :: arguments) found ∧
          collectParameters py
            ((argument :: arguments).map fun argument => ([], argument.1, valueText argument.2))
            done = .ok (done ++ found) := by
      have hkeys' : ((done ++ [(argument.1, w)] ++ arguments).map (·.1)).Nodup := by
        simpa using hkeys
      obtain ⟨found, hfound, hcollect⟩ :=
        ih (fun a ha => hplain a (List.mem_cons_of_mem _ ha)) _ hkeys'
      refine ⟨(argument.1, w) :: found, .cons ⟨rfl, hback⟩ hfound, ?_⟩
      rw [List.map_cons, collectParameters, if_neg (by decide), if_neg hnew, hstrip, hw, ok_bind,
        hset, hcollect, List.append_assoc]
      rfl
    rcases nativeValue_plain py hvalue with ⟨hno, hw⟩ | ⟨hyes, w, hw, hne⟩
    · exact hstep argument.2 hw (.inl ⟨hno, rfl⟩)
    · exact hstep w hw (.inr ⟨hyes, hne⟩)

theorem validateDecision_eq {py : Interpreter} {fields : List (Str × Json)} {name : Str} {tool : Tool}
    (hfields : ∀ field ∈ fields, field.1 ∈ ["name", "arguments"].map str)
    (hname : dictGet fields (str "name") = .str name) (htool : canonicalName py name = str tool.name) :
    validateDecision py (.obj fields) =
      validateArguments py tool (dictGet fields (str "arguments")) := by
  have hregistered : registeredTool (canonicalToolName py (.str name)) = .ok tool := by
    rw [canonicalToolName, htool, registeredTool, toolOfName_name]
    rfl
  rw [validateDecision, (strictObject_ok "decision").mpr ⟨rfl, hfields⟩, ok_bind, hname,
    hregistered, ok_bind]

theorem canonicalName_name (py : Interpreter) (tool : Tool) :
    canonicalName py (str tool.name) = str tool.name := by
  have hstrip : strip (str tool.name) = str tool.name := strip_of_no_space fun c hc =>
    isSpace_of_isPrinting (isPrinting_of_isIdentifier (isIdentifier_name tool) c hc)
  have hascii : ∀ c ∈ str tool.name, c < 128 := by
    intro c hc
    have := isPrinting_of_isIdentifier (isIdentifier_name tool) c hc
    simp only [isPrinting, Bool.and_eq_true, decide_eq_true_eq] at this
    change c.val < 128
    omega
  have hcompact : collapseUnderscores ((str tool.name).map lowerAscii) = str tool.name := by
    cases tool <;> (rw [Tool.name, str_ofList]; decide)
  have halias : toolNameAliases.find? (fun entry => str entry.1 = str tool.name) = none := by
    cases tool <;> simp [toolNameAliases, Tool.name]
  rw [canonicalName, hstrip, py.lower_ascii _ hascii, hcompact, halias]

theorem parseDecision_nativeText (py : Interpreter) (tool : Tool) {arguments : List (Str × Json)}
    (hkeys : (arguments.map (·.1)).Nodup)
    (hnames : ∀ argument ∈ arguments, isIdentifier argument.1 = true)
    (hplain : ∀ argument ∈ arguments, Plain argument.2) :
    ∃ found, ReadBack arguments found ∧
      parseDecision py (nativeText tool arguments) = validateArguments py tool (.obj found) := by
  have hspell : Spellable arguments := fun a ha => ⟨hnames a ha, (hplain a ha).alnum⟩
  obtain ⟨found, hfound, hcollect⟩ := collectParameters_plain py hplain [] hkeys
  rw [List.nil_append] at hcollect
  refine ⟨found, hfound, ?_⟩
  have hread : readDecision py (nativeText tool arguments) =
      .ok (.obj [(str "name", .str (str tool.name)), (str "arguments", .obj found)]) := by
    rw [readDecision, hspell.strip_nativeText, hspell.nativeToolCall]
    dsimp only
    rw [nativeDecision, hspell.nativeParameters]
    dsimp only
    rw [hcollect, ok_bind, if_neg fun h => h.1 rfl]
    rfl
  have hfields : ∀ field ∈ [(str "name", Json.str (str tool.name)), (str "arguments", .obj found)],
      field.1 ∈ ["name", "arguments"].map str := by simp
  rw [parseDecision, hread, ok_bind, validateDecision_eq hfields rfl (canonicalName_name py tool)]
  rfl

section Accepted

variable {py : Interpreter} {tool : Tool} {arguments : List (Str × Json)} {d : Decision}

theorem lookup_of_mem (hkeys : (arguments.map (·.1)).Nodup) {field : String} {value : Json}
    (h : (str field, value) ∈ arguments) : lookup arguments field = some value := by
  induction arguments with
  | nil => cases h
  | cons argument arguments ih =>
    rw [List.map_cons, List.nodup_cons] at hkeys
    rcases List.mem_cons.mp h with rfl | h
    · simp [lookup]
    · have hne : ¬ argument.1 = str field := fun heq =>
        hkeys.1 (heq ▸ List.mem_map_of_mem h)
      simpa [lookup, hne] using ih hkeys.2 h

theorem lookup_normalizeFields {normalized : List (Str × Json)} {properties : List (String × Rule)}
    (h : normalizeFields arguments properties = .ok normalized) {field : String} {value : Json}
    (hvalue : lookup normalized field = some value) : lookup arguments field = some value := by
  induction properties generalizing normalized with
  | nil =>
    cases h
    cases hvalue
  | cons property properties ih =>
    obtain ⟨field', rule⟩ := property
    rw [normalizeFields] at h
    split at h
    · exact ih h hvalue
    · rename_i value' hvalue'
      obtain ⟨_, -, h⟩ := bind_eq_ok.mp h
      obtain ⟨rest, hrest, h⟩ := bind_eq_ok.mp h
      cases h
      by_cases hfield : str field' = str field
      · have : value' = value := by simpa [lookup, hfield] using hvalue
        rw [← this, ← hvalue', lookup, lookup, hfield]
      · exact ih hrest (by simpa [lookup, hfield] using hvalue)

/-- The field that `_validate_hex` checks. -/
def Tool.hexField : Tool → Option String
  | .i2cWrite | .spiTransfer => some "data_hex"
  | .i2cWriteRead => some "prefix_hex"
  | _ => none

theorem word_of_hex {s : Str} (h : ∀ c ∈ s, (hexValue c).isSome = true) (hlength : s.length ≤ 640) :
    Word s :=
  ⟨fun c hc => isAlnum_of_hexValue (h c hc), scanConstant_hex h, hlength⟩

theorem word_of_validateHex {value result : Str} {field : String} {low high : ℕ} (hhigh : high ≤ 8)
    (h : validateHex py value field low high = .ok result) : Word value := by
  unfold validateHex at h
  split_ifs at h with hform hsize
  · cases h
  · cases h
  · push Not at hform hsize
    exact word_of_hex (List.all_eq_true.mp hform.2) (by omega)

theorem word_of_finishArguments {normalized result : List (Str × Json)} {field : String}
    (hfield : tool.hexField = some field) (h : finishArguments py tool normalized = .ok result) :
    ∃ s, lookup normalized field = some (.str s) ∧ Word s := by
  have hhex (field : String) (low high : ℕ) (hhigh : high ≤ 8)
      (h : normalizeHex py field low high normalized = .ok result) :
      ∃ s, lookup normalized field = some (.str s) ∧ Word s := by
    obtain ⟨s, hs, h⟩ := bind_eq_ok.mp h
    obtain ⟨_, hcheck, -⟩ := bind_eq_ok.mp h
    exact ⟨s, strItem_ok hs, word_of_validateHex hhigh hcheck⟩
  cases tool <;> cases hfield
  · exact hhex _ _ _ (by decide) h
  · exact hhex _ _ _ (by decide) h
  · exact hhex _ _ _ (by decide) h

theorem validateArguments_ok (h : validateArguments py tool (.obj arguments) = .ok d) :
    (∀ argument ∈ arguments, ∃ property ∈ tool.properties, argument.1 = str property.1) ∧
    (∀ property ∈ tool.properties, ∀ value, lookup arguments property.1 = some value →
      FieldOk property.2 value) ∧
    ∀ field, tool.hexField = some field → ∃ s, lookup arguments field = some (.str s) ∧ Word s := by
  have hnames {allowed : List String} {fields : List (Str × Json)} {label : String}
      (h : strictObject (.obj arguments) allowed label = .ok fields) :
      fields = arguments ∧ ∀ a ∈ arguments, a.1 ∈ allowed.map str := by
    obtain ⟨heq, hall⟩ := (strictObject_ok label).mp h
    cases heq
    exact ⟨rfl, hall⟩
  unfold validateArguments at h
  split_ifs at h with hincrement
  · -- the increment has a validator of its own, with the same bounds as its schema
    subst hincrement
    obtain ⟨fields, hfields, hrest⟩ := bind_eq_ok.mp h
    obtain ⟨rfl, hall⟩ := hnames hfields
    refine ⟨fun a ha => ⟨_, .head _, by simpa using hall a ha⟩, ?_, by simp [Tool.hexField]⟩
    intro property hproperty value hvalue
    obtain rfl : property = ("value", integerSchema 0 4294967294) := by
      simpa [Tool.properties] using hproperty
    dsimp only at hvalue hrest
    rw [hvalue] at hrest
    split at hrest
    · cases ‹some _ = none›
    · rename_i n hn
      cases hn
      split_ifs at hrest with hrange
      · cases hrest
      · push Not at hrange
        refine ⟨n, rfl, by simp, ?_, ?_⟩
        · rintro m ⟨⟩
          exact hrange.1
        · rintro m ⟨⟩
          have := hrange.2
          omega
    · cases hrest
  · obtain ⟨fields, hfields, hfrom⟩ := bind_eq_ok.mp h
    obtain ⟨rfl, hall⟩ := hnames hfields
    obtain ⟨_, -, hloop⟩ := bind_eq_ok.mp hfrom
    obtain ⟨normalized, hnormalized, hlast⟩ := bind_eq_ok.mp hloop
    obtain ⟨finished, hfinished, -⟩ := bind_eq_ok.mp hlast
    refine ⟨fun a ha => ?_, fun property hproperty value hvalue =>
      fieldOk_of_normalizeFields hnormalized hproperty hvalue, fun field hfield => ?_⟩
    · obtain ⟨name, hname, heq⟩ := List.mem_map.mp (hall a ha)
      obtain ⟨property, hproperty, rfl⟩ := List.mem_map.mp hname
      exact ⟨property, hproperty, heq.symm⟩
    · obtain ⟨s, hs, hword⟩ := word_of_finishArguments hfield hfinished
      exact ⟨s, lookup_normalizeFields hnormalized hs, hword⟩

/-- Every integer of a schema is an unsigned word of 32 bits. -/
def Rule.bounded : Rule → Bool
  | .integer (some allowed) _ _ => allowed.all fun n => 0 ≤ n && n < 2 ^ 32
  | .integer none (some minimum) (some maximum) => 0 ≤ minimum && maximum < 2 ^ 32
  | .integer none _ _ => false
  | .string _ _ => true

theorem bounded_properties (tool : Tool) : tool.properties.all (·.2.bounded) = true := by
  cases tool <;> decide

theorem FieldOk.bounded {rule : Rule} {n : ℤ} (h : FieldOk rule (.int n))
    (hrule : rule.bounded = true) : 0 ≤ n ∧ n < 2 ^ 32 := by
  cases rule with
  | integer enum minimum maximum =>
    obtain ⟨m, hm, henum, hlow, hhigh⟩ := h
    cases hm
    cases enum with
    | some allowed =>
      have := List.all_eq_true.mp hrule n (henum allowed rfl)
      simpa using this
    | none =>
      cases minimum with
      | none => cases hrule
      | some low =>
        cases maximum with
        | none => cases hrule
        | some high =>
          simp only [Rule.bounded, Bool.and_eq_true, decide_eq_true_eq] at hrule
          have := hlow low rfl
          have := hhigh high rfl
          omega
  | string enum maxLength =>
    obtain ⟨s, hs, -⟩ := h
    cases hs

/-- A string of a schema is a direction or is checked to be hexadecimal. -/
def Tool.spells (tool : Tool) : String × Rule → Bool
  | (_, .integer _ _ _) => true
  | (field, .string enum _) => enum == some ["input", "output"] || tool.hexField == some field

theorem spells_properties {tool : Tool} (h : tool ≠ .uartWrite) :
    tool.properties.all tool.spells = true := by
  cases tool <;> first | exact absurd rfl h | decide

theorem word_direction {s : Str} (h : s ∈ ["input", "output"].map str) : Word s := by
  simp only [List.map_cons, List.map_nil, List.mem_cons, List.not_mem_nil, or_false] at h
  rcases h with rfl | rfl
  · exact ⟨List.all_eq_true.mp (by decide), by decide, by decide⟩
  · exact ⟨List.all_eq_true.mp (by decide), by decide, by decide⟩

theorem isIdentifier_properties (tool : Tool) :
    tool.properties.all (fun property => isIdentifier (str property.1)) = true := by
  cases tool <;> decide

theorem plain_of_accepted (htool : tool ≠ .uartWrite) (hkeys : (arguments.map (·.1)).Nodup)
    (h : validateArguments py tool (.obj arguments) = .ok d) :
    ∀ argument ∈ arguments, isIdentifier argument.1 = true ∧ Plain argument.2 := by
  obtain ⟨hnames, hok, hhex⟩ := validateArguments_ok h
  rintro ⟨name, value⟩ hmem
  obtain ⟨⟨field, rule⟩, hproperty, rfl⟩ := hnames _ hmem
  refine ⟨List.all_eq_true.mp (isIdentifier_properties tool) _ hproperty, ?_⟩
  have hvalue := lookup_of_mem hkeys hmem
  have hfield := hok _ hproperty value hvalue
  have hspells := List.all_eq_true.mp (spells_properties htool) _ hproperty
  cases rule with
  | integer enum minimum maximum =>
    obtain ⟨n, rfl, -⟩ := id hfield
    exact hfield.bounded (List.all_eq_true.mp (bounded_properties tool) _ hproperty)
  | string enum maxLength =>
    obtain ⟨s, rfl, -, henum⟩ := hfield
    simp only [Tool.spells, Bool.or_eq_true, beq_iff_eq] at hspells
    rcases hspells with rfl | hspells
    · exact word_direction (henum _ rfl)
    · obtain ⟨s', hs', hword⟩ := hhex field hspells
      cases hvalue.symm.trans hs'
      exact hword

end Accepted

/-- `text` is the JSON object of a call of `tool` with `arguments`. -/
def JsonForm (py : Interpreter) (tool : Tool) (arguments : List (Str × Json)) (text : Str) : Prop :=
  nativeToolCall (strip text) = none ∧ ∃ fields name,
    loads py (unwrapToolCall (strip text)) = .ok (.obj fields) ∧
    dictGet fields (str "name") = .str name ∧ canonicalName py name = str tool.name ∧
    dictGet fields (str "arguments") = .obj arguments

theorem JsonForm.accepted {py : Interpreter} {tool : Tool} {arguments : List (Str × Json)}
    {text : Str} {d : Decision} (hform : JsonForm py tool arguments text)
    (h : parseDecision py text = .ok d) :
    (arguments.map (·.1)).Nodup ∧ validateArguments py tool (.obj arguments) = .ok d := by
  obtain ⟨hnative, fields, name, hloads, hname, htool, harguments⟩ := hform
  have hread : readDecision py text = .ok (.obj fields) := by
    rw [readDecision, hnative]
    dsimp only
    rw [jsonDecision, hloads]
    rfl
  rw [parseDecision, hread, ok_bind] at h
  obtain ⟨fields', hstrict, -⟩ := bind_eq_ok.mp h
  obtain ⟨heq, hfields⟩ := (strictObject_ok "decision").mp hstrict
  cases heq
  rw [validateDecision_eq hfields hname htool, harguments] at h
  have hdistinct := (loads_distinct hloads).dictGet (str "arguments")
  rw [harguments] at hdistinct
  cases hdistinct with
  | obj hkeys _ => exact ⟨hkeys, h⟩

theorem ReadBack.eq {arguments found : List (Str × Json)} (h : ReadBack arguments found)
    (hno : ∀ argument ∈ arguments, ¬ SpellsNumberValue argument.2) : found = arguments := by
  induction h with
  | nil => rfl
  | @cons argument result arguments found hhead _ ih =>
    rw [ih fun a ha => hno a (List.mem_cons_of_mem _ ha)]
    rcases hhead.2 with ⟨-, hvalue⟩ | ⟨hspells, -⟩
    · rw [← Prod.mk.eta (p := result), hhead.1, hvalue]
    · exact absurd hspells (hno argument List.mem_cons_self)

theorem ReadBack.names {arguments found : List (Str × Json)} (h : ReadBack arguments found) :
    found.map (·.1) = arguments.map (·.1) := by
  induction h with
  | nil => rfl
  | cons hhead _ ih => rw [List.map_cons, List.map_cons, ih, hhead.1]

theorem ReadBack.exists_of_spells {arguments found : List (Str × Json)} (h : ReadBack arguments found)
    {argument : Str × Json} (hmem : argument ∈ arguments) (hspells : SpellsNumberValue argument.2) :
    ∃ w, (argument.1, w) ∈ found ∧ ∀ t, w ≠ .str t := by
  induction h with
  | nil => cases hmem
  | @cons argument' result arguments found hhead _ ih =>
    rcases List.mem_cons.mp hmem with rfl | hmem
    · rcases hhead.2 with ⟨hno, -⟩ | ⟨-, hne⟩
      · exact absurd hspells hno
      · exact ⟨result.2, by rw [← hhead.1]; exact List.mem_cons_self, hne⟩
    · obtain ⟨w, hw, hne⟩ := ih hmem
      exact ⟨w, List.mem_cons_of_mem _ hw, hne⟩

theorem native_syntax_agrees_iff (py : Interpreter) (tool : Tool) (arguments : List (Str × Json))
    (text : Str) (d : Decision) (htool : tool ≠ .uartWrite) (hform : JsonForm py tool arguments text)
    (haccepted : parseDecision py text = .ok d) :
    parseDecision py (nativeText tool arguments) = .ok d ↔
      ∀ argument ∈ arguments, ∀ s, argument.2 = .str s → ¬ SpellsNumber s := by
  obtain ⟨hkeys, hok⟩ := hform.accepted haccepted
  have hplain := plain_of_accepted htool hkeys hok
  obtain ⟨found, hfound, hnative⟩ := parseDecision_nativeText py tool hkeys
    (fun a ha => (hplain a ha).1) fun a ha => (hplain a ha).2
  rw [hnative]
  constructor
  · rintro haccepts ⟨name, value⟩ hmem s rfl hspells
    -- the string is a number in the native block, but its rule asks for a string
    obtain ⟨hnames, hrules, -⟩ := validateArguments_ok hok
    obtain ⟨-, hrules', -⟩ := validateArguments_ok haccepts
    obtain ⟨⟨field, rule⟩, hproperty, rfl⟩ := hnames _ hmem
    obtain ⟨w, hw, hne⟩ := hfound.exists_of_spells hmem hspells
    have hfield := hrules _ hproperty _ (lookup_of_mem hkeys hmem)
    have hfield' := hrules' _ hproperty _ (lookup_of_mem (hfound.names ▸ hkeys) hw)
    cases rule with
    | integer enum minimum maximum =>
      obtain ⟨n, hn, -⟩ := hfield
      cases hn
    | string enum maxLength =>
      obtain ⟨t, ht, -⟩ := hfield'
      exact hne t ht
  · intro hno
    rw [hfound.eq fun a ha hspells => ?_, hok]
    cases hvalue : a.2 with
    | str s =>
      rw [hvalue] at hspells
      exact hno a ha s hvalue hspells
    | _ =>
      rw [hvalue] at hspells
      exact hspells

def i2cDecision (data : String) : Str :=
  str "\x7b\"name\":\"zephyr_i2c_write\",\"arguments\":\x7b\"address\":8,\"data_hex\":\"" ++
    (str data ++ str "\"\x7d\x7d")

def i2cArguments (data : String) : List (Str × Json) :=
  [(str "address", .int 8), (str "data_hex", .str (str data))]

theorem jsonForm_i2cDecision {data : String}
    (hnative : nativeToolCall (strip (i2cDecision data)) = none)
    (h : loads asciiInterpreter (unwrapToolCall (strip (i2cDecision data))) =
      .ok (.obj [(str "name", .str (str Tool.i2cWrite.name)),
        (str "arguments", .obj (i2cArguments data))])) :
    JsonForm asciiInterpreter .i2cWrite (i2cArguments data) (i2cDecision data) :=
  ⟨hnative, _, _, h, rfl, canonicalName_name asciiInterpreter .i2cWrite, rfl⟩

theorem native_syntax_agrees_ff :
    parseDecision asciiInterpreter (nativeText .i2cWrite (i2cArguments "ff")) =
      .ok ⟨str "zephyr_i2c_write", i2cArguments "ff"⟩ := by
  refine (native_syntax_agrees_iff asciiInterpreter .i2cWrite (i2cArguments "ff") (i2cDecision "ff")
    _ nofun (jsonForm_i2cDecision (by decide +kernel) (by decide +kernel)) (by decide +kernel)).mpr ?_
  simp only [i2cArguments, List.forall_mem_cons]
  refine ⟨nofun, fun s hs hspells => ?_, nofun⟩
  cases hs
  exact absurd hspells.head (by decide)

/-- The data `10` is an integer in the native block. -/
theorem native_syntax_refuses_10 :
    JsonForm asciiInterpreter .i2cWrite (i2cArguments "10") (i2cDecision "10") ∧
    parseDecision asciiInterpreter (i2cDecision "10") =
      .ok ⟨str "zephyr_i2c_write", i2cArguments "10"⟩ ∧
    parseDecision asciiInterpreter (nativeText .i2cWrite (i2cArguments "10")) =
      raiseAgent "invalid_arguments" "data_hex is not a valid string" :=
  ⟨jsonForm_i2cDecision (by decide +kernel) (by decide +kernel), by decide +kernel,
    by decide +kernel⟩

end Lzamp.Agent
