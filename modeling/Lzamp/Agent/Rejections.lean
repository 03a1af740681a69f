import Lzamp.Agent.Allowlist
import Lzamp.Lib.PyJsonErrors

namespace Lzamp.Agent
open Lib Lib.PyText Lib.PyJson

/-- A value or an `AgentError`. -/
def Clean {α : Type} (result : Py α) : Prop := (∃ a, result = .ok a) ∨ Rejects result

section Clean

variable {α β : Type}

theorem clean_ok (a : α) : Clean (.ok a : Py α) := .inl ⟨a, rfl⟩

theorem clean_raiseAgent (code message : String) : Clean (raiseAgent code message : Py α) :=
  .inr (rejects_raiseAgent code message)

theorem not_clean_error {e : Exn} (h : ∀ error, e ≠ .agent error) : ¬ Clean (.error e : Py α) := by
  rintro (⟨a, ha⟩ | ⟨error, herror⟩)
  · cases ha
  · exact h error (Except.error.inj herror)

theorem Clean.bind {x : Py α} {f : α → Py β} (hx : Clean x) (hf : ∀ a, x = .ok a → Clean (f a)) :
    Clean (x >>= f) := by
  rcases hx with ⟨a, ha⟩ | ⟨error, herror⟩
  · rw [ha]
    exact hf a ha
  · rw [herror]
    exact .inr ⟨error, rfl⟩

end Clean

theorem strictObject_clean (value : Json) (allowed : List String) (label : String) :
    Clean (strictObject value allowed label) := by
  unfold strictObject
  split
  · split_ifs
    · exact clean_raiseAgent _ _
    · exact clean_ok _
  · exact clean_raiseAgent _ _

theorem strictObject_ok (label : String) {value : Json} {allowed : List String}
    {fields : List (Str × Json)} : strictObject value allowed label = .ok fields ↔
      value = .obj fields ∧ ∀ field ∈ fields, field.1 ∈ allowed.map str := by
  unfold strictObject
  split
  · rename_i fields'
    split_ifs with h
    · refine iff_of_false nofun ?_
      rintro ⟨heq, hall⟩
      cases heq
      obtain ⟨field, hmem, hfield⟩ := List.any_eq_true.mp h
      exact (of_decide_eq_true hfield) (hall field hmem)
    · constructor
      · intro heq
        cases heq
        refine ⟨rfl, fun field hmem => ?_⟩
        by_contra hfield
        exact h (List.any_eq_true.mpr ⟨field, hmem, decide_eq_true hfield⟩)
      · rintro ⟨heq, -⟩
        cases heq
        rfl
  · rename_i hne
    exact iff_of_false nofun fun h => hne fields h.1

theorem checkField_clean (field : String) (rule : Rule) (value : Json) :
    Clean (checkField field rule value) := by
  rcases checkField_cases field rule value with ⟨-, h⟩ | ⟨-, h⟩
  · rw [h]
    exact clean_ok _
  · exact .inr h

theorem requireFields_clean (arguments : List (Str × Json)) (fields : List String) :
    Clean (requireFields arguments fields) := by
  induction fields with
  | nil => exact clean_ok _
  | cons field fields ih =>
    rw [requireFields]
    split_ifs
    · exact clean_raiseAgent _ _
    · exact ih

theorem normalizeFields_clean (arguments : List (Str × Json)) (properties : List (String × Rule)) :
    Clean (normalizeFields arguments properties) := by
  induction properties with
  | nil => exact clean_ok _
  | cons property properties ih =>
    obtain ⟨field, rule⟩ := property
    rw [normalizeFields]
    split
    · exact ih
    · exact (checkField_clean _ _ _).bind fun _ _ => ih.bind fun _ _ => clean_ok _

theorem validateIncrement_clean (arguments : Json) : Clean (validateIncrement arguments) := by
  refine (strictObject_clean _ _ _).bind fun fields _ => ?_
  split
  · exact clean_raiseAgent _ _
  · split_ifs
    · exact clean_raiseAgent _ _
    · exact clean_ok _
  · exact clean_raiseAgent _ _

theorem validateHex_clean (py : Interpreter) (value : Str) (field : String) (low high : ℕ) :
    Clean (validateHex py value field low high) := by
  unfold validateHex
  split_ifs
  · exact clean_raiseAgent _ _
  · exact clean_raiseAgent _ _
  · exact clean_ok _

theorem normalizeHex_clean {py : Interpreter} {tool : Tool} {normalized : List (Str × Json)}
    (hfits : Fits tool normalized) {field : String} {enum : Option (List String)}
    {maxLength : Option ℕ} (hmem : (field, .string enum maxLength) ∈ tool.properties)
    (low high : ℕ) : Clean (normalizeHex py field low high normalized) := by
  obtain ⟨s, hs⟩ := hfits.strItem field hmem
  refine Clean.bind (.inl ⟨s, hs⟩) fun value _ => ?_
  exact (validateHex_clean _ _ _ _ _).bind fun _ _ => clean_ok _

theorem finishArguments_clean {py : Interpreter} {tool : Tool} {normalized : List (Str × Json)}
    (hfits : Fits tool normalized)
    (huart : tool = .uartWrite → ∀ s, lookup normalized "data" = some (.str s) →
      encodeUtf8 s ≠ none) :
    Clean (finishArguments py tool normalized) := by
  cases tool with
  | i2cWrite => exact normalizeHex_clean hfits (.tail _ (.head _)) 1 8
  | spiTransfer => exact normalizeHex_clean hfits (.tail _ (.tail _ (.head _))) 1 8
  | i2cWriteRead => exact normalizeHex_clean hfits (.tail _ (.head _)) 1 3
  | uartWrite =>
    obtain ⟨s, hs⟩ := hfits.strItem "data" (.tail _ (.head _))
    refine Clean.bind (.inl ⟨s, hs⟩) fun data hdata => ?_
    split
    · rename_i hnone
      exact absurd hnone (huart rfl data (strItem_ok hdata))
    · split_ifs
      · exact clean_raiseAgent _ _
      · exact clean_ok _
  | pwmSet =>
    obtain ⟨duty, hduty, -⟩ := hfits.word "duty_ns" (.tail _ (.head _)) le_rfl (by decide)
    obtain ⟨period, hperiod, -⟩ := hfits.word "period_ns" (.head _) (by decide) (by decide)
    refine Clean.bind (.inl ⟨duty, hduty⟩) fun _ _ => ?_
    refine Clean.bind (.inl ⟨period, hperiod⟩) fun _ _ => ?_
    split_ifs
    · exact clean_raiseAgent _ _
    · exact clean_ok _
  | _ => exact clean_ok _

/-- The fields of a decision that `_strict_object` lets through. -/
def DecisionFields (decision : Json) (fields : List (Str × Json)) : Prop :=
  decision = .obj fields ∧ ∀ field ∈ fields, field.1 ∈ ["name", "arguments"].map str

/-- The name is a list or an object. -/
def UnhashableName (decision : Json) : Prop :=
  ∃ fields, DecisionFields decision fields ∧
    ((∃ items, dictGet fields (str "name") = .arr items) ∨
      ∃ members, dictGet fields (str "name") = .obj members)

/-- A UART write that passes its schema, with a surrogate in its data. -/
def SurrogateData (py : Interpreter) (decision : Json) : Prop :=
  ∃ fields name arguments port data, DecisionFields decision fields ∧
    dictGet fields (str "name") = .str name ∧ canonicalName py name = str Tool.uartWrite.name ∧
    dictGet fields (str "arguments") = .obj arguments ∧
    (∀ argument ∈ arguments, argument.1 ∈ ["port", "data"].map str) ∧
    lookup arguments "port" = some (.int port) ∧ port ∈ uartPorts ∧
    lookup arguments "data" = some (.str data) ∧ data.length ≤ 8 ∧
    ∃ c ∈ data, isSurrogate c = true

theorem ok_bind {ε α β : Type} (a : α) (f : α → Except ε β) : (Except.ok a >>= f) = f a := rfl

theorem validateDecision_of_unhashable (py : Interpreter) {decision : Json}
    (h : UnhashableName decision) : validateDecision py decision = .error .typeError := by
  obtain ⟨fields, hfields, hname⟩ := h
  have hstrict := (strictObject_ok "decision").mpr hfields
  rw [validateDecision, hstrict, ok_bind]
  rcases hname with ⟨items, hname⟩ | ⟨members, hname⟩ <;> rw [hname] <;> rfl

theorem normalizeFields_uart {arguments : List (Str × Json)} {port : ℤ} {data : Str}
    (hport : lookup arguments "port" = some (.int port)) (hmem : port ∈ uartPorts)
    (hdata : lookup arguments "data" = some (.str data)) (hlength : data.length ≤ 8) :
    normalizeFields arguments Tool.uartWrite.properties =
      .ok [(str "port", .int port), (str "data", .str data)] := by
  have hportOk : checkField "port" portSchema (.int port) = .ok () := by
    rcases checkField_cases "port" portSchema (.int port) with ⟨-, h⟩ | ⟨hno, -⟩
    · exact h
    · refine absurd ⟨port, rfl, fun allowed h => ?_, nofun, nofun⟩ hno
      cases h
      exact hmem
  have hdataOk : checkField "data" (.string none (some 8)) (.str data) = .ok () := by
    rcases checkField_cases "data" (.string none (some 8)) (.str data) with ⟨-, h⟩ | ⟨hno, -⟩
    · exact h
    · refine absurd ⟨data, rfl, fun m h => ?_, nofun⟩ hno
      cases h
      exact hlength
  simp only [Tool.properties, normalizeFields, hport, hdata, hportOk, hdataOk, ok_bind]
  rfl

theorem validateDecision_of_surrogate {py : Interpreter} {decision : Json}
    (h : SurrogateData py decision) : validateDecision py decision = .error .unicodeEncodeError := by
  obtain ⟨fields, name, arguments, port, data, hfields, hname, htool, hargs, hnames, hport, hmem,
    hdata, hlength, hsurrogate⟩ := h
  have hstrict := (strictObject_ok "decision").mpr hfields
  have hinner : strictObject (dictGet fields (str "arguments"))
      (Tool.uartWrite.properties.map (·.1)) "arguments" = .ok arguments :=
    (strictObject_ok "arguments").mpr ⟨hargs, hnames⟩
  have hrequired : requireFields arguments Tool.uartWrite.required = .ok () := by
    simp [Tool.required, requireFields, hport, hdata, pure, Except.pure]
  have hnormalized := normalizeFields_uart hport hmem hdata hlength
  have hencode : encodeUtf8 data = none := encodeUtf8_eq_none.mpr hsurrogate
  rw [validateDecision, hstrict, ok_bind, hname]
  have hregistered : registeredTool (canonicalToolName py (.str name)) = .ok .uartWrite := by
    rw [canonicalToolName, htool, registeredTool, toolOfName_name]
    rfl
  have hfinish : finishArguments py .uartWrite [(str "port", .int port), (str "data", .str data)] =
      .error .unicodeEncodeError := by
    have hitem : strItem [(str "port", .int port), (str "data", .str data)] "data" = .ok data := rfl
    rw [finishArguments, hitem, ok_bind, hencode]
    rfl
  rw [hregistered, ok_bind, validateArguments, if_neg (by decide), hinner, ok_bind, hrequired,
    ok_bind, hnormalized, ok_bind, hfinish]
  rfl

theorem registeredTool_clean (py : Interpreter) {name : Json}
    (h : ¬ ((∃ items, name = .arr items) ∨ ∃ members, name = .obj members)) :
    Clean (registeredTool (canonicalToolName py name)) := by
  cases name with
  | str name =>
    rw [canonicalToolName, registeredTool]
    split
    · exact clean_ok _
    · exact clean_raiseAgent _ _
  | arr items => exact absurd (.inl ⟨items, rfl⟩) h
  | obj members => exact absurd (.inr ⟨members, rfl⟩) h
  | _ => exact clean_raiseAgent _ _

theorem toolOfName_eq_some {name : Str} {tool : Tool} (h : toolOfName name = some tool) :
    name = str tool.name := by
  have hname := List.find?_some h
  exact (of_decide_eq_true hname).symm

theorem registeredTool_ok {py : Interpreter} {value : Json} {tool : Tool}
    (h : registeredTool (canonicalToolName py value) = .ok tool) :
    ∃ name, value = .str name ∧ canonicalName py name = str tool.name := by
  cases value with
  | str name =>
    rw [canonicalToolName, registeredTool] at h
    split at h
    · rename_i htool
      cases h
      exact ⟨name, rfl, toolOfName_eq_some htool⟩
    · cases h
  | _ => cases h

theorem fieldOk_of_normalizeFields {arguments normalized : List (Str × Json)}
    {properties : List (String × Rule)}
    (h : normalizeFields arguments properties = .ok normalized) {field : String} {rule : Rule}
    (hmem : (field, rule) ∈ properties) {value : Json} (hvalue : lookup arguments field = some value) :
    FieldOk rule value := by
  induction properties generalizing normalized with
  | nil => cases hmem
  | cons property properties ih =>
    obtain ⟨field', rule'⟩ := property
    rw [normalizeFields] at h
    split at h
    · rename_i hnone
      rcases List.mem_cons.mp hmem with heq | hmem
      · cases heq
        rw [hnone] at hvalue
        cases hvalue
      · exact ih h hmem
    · rename_i value' hvalue'
      obtain ⟨_, hcheck, h⟩ := bind_eq_ok.mp h
      obtain ⟨rest, hrest, -⟩ := bind_eq_ok.mp h
      rcases List.mem_cons.mp hmem with heq | hmem
      · cases heq
        cases hvalue.symm.trans hvalue'
        exact checkField_ok hcheck
      · exact ih hrest hmem

theorem validateDecision_clean_iff {py : Interpreter} {decision : Json} :
    Clean (validateDecision py decision) ↔
      ¬ (UnhashableName decision ∨ SurrogateData py decision) := by
  constructor
  · rintro hclean (h | h)
    · rw [validateDecision_of_unhashable py h] at hclean
      exact not_clean_error (fun _ h => by cases h) hclean
    · rw [validateDecision_of_surrogate h] at hclean
      exact not_clean_error (fun _ h => by cases h) hclean
  · intro hno
    push Not at hno
    obtain ⟨hhash, hsurrogate⟩ := hno
    -- check by check, each raising nothing but its own rejection
    refine (strictObject_clean _ _ _).bind fun fields hfields => ?_
    rw [strictObject_ok] at hfields
    refine (registeredTool_clean py fun h => hhash ⟨fields, hfields, h⟩).bind fun tool htool => ?_
    unfold validateArguments
    split_ifs with hincrement
    · exact validateIncrement_clean _
    · refine (strictObject_clean _ _ _).bind fun arguments harguments => ?_
      rw [strictObject_ok] at harguments
      refine (requireFields_clean _ _).bind fun _ hrequired => ?_
      refine (normalizeFields_clean _ _).bind fun normalized hnormalized => ?_
      have hall : ∀ p ∈ tool.properties, (lookup arguments p.1).isSome := by
        intro p hp
        refine requireFields_ok hrequired p.1 ?_
        rw [required_eq_properties]
        exact List.mem_map_of_mem hp
      have hfits : Fits tool normalized := normalizeFields_ok hall hnormalized
      refine (finishArguments_clean hfits ?_).bind fun _ _ => clean_ok _
      rintro rfl s hs hencode
      -- the data passed its schema, so the decision is one of those that are excluded
      obtain ⟨name, hname, hcanonical⟩ := registeredTool_ok htool
      obtain ⟨v, hv⟩ := Option.isSome_iff_exists.mp (hall ("port", portSchema) (.head _))
      obtain ⟨v', hv'⟩ := Option.isSome_iff_exists.mp
        (hall ("data", .string none (some 8)) (.tail _ (.head _)))
      obtain ⟨port, rfl, hport, -⟩ := fieldOk_of_normalizeFields hnormalized (.head _) hv
      obtain ⟨data, rfl, hlength, -⟩ :=
        fieldOk_of_normalizeFields hnormalized (.tail _ (.head _)) hv'
      have heq := normalizeFields_uart hv (hport _ rfl) hv' (hlength 8 rfl)
      cases hnormalized.symm.trans heq
      have hdata : data = s := by
        have hlookup : lookup [(str "port", .int port), (str "data", .str data)] "data" =
            some (.str data) := rfl
        cases hlookup.symm.trans hs
        rfl
      subst hdata
      exact hsurrogate ⟨fields, name, arguments, port, data, hfields, hname, hcanonical, harguments.1,
        harguments.2, hv, hport _ rfl, hv', hlength 8 rfl, encodeUtf8_eq_none.mp hencode⟩

/-- `json.loads` comes to an integer that `int` refuses. -/
def LongJson (py : Interpreter) (s : Str) : Prop :=
  s.head? ≠ some 0xfeff ∧ MeetsLongInteger py (skipWs s)

theorem nativeValue_cases (py : Interpreter) (raw : Str) :
    (LongJson py raw ∧ nativeValue py raw = .error .valueError) ∨
      (¬ LongJson py raw ∧ ∃ value, nativeValue py raw = .ok value) := by
  unfold nativeValue LongJson
  rw [← loads_eq_valueError]
  split
  · rename_i value h
    exact .inr ⟨by rw [h]; nofun, value, rfl⟩
  · rename_i h
    exact .inr ⟨by rw [h]; nofun, _, rfl⟩
  · rename_i h
    exact .inl ⟨h, rfl⟩
  · rename_i h
    exact absurd h (loads_ne_recursionError raw)

/-- Among the parameters, after those whose names are `names`, there is such an integer, and up to
it nothing stands between them and no name is repeated. -/
def LongParameter (py : Interpreter) (parameters : List (Str × Str × Str)) (names : List Str) :
    Prop :=
  ∃ before parameter after, parameters = before ++ parameter :: after ∧
    (∀ p ∈ before ++ [parameter], strip p.1 = []) ∧
    (names ++ (before ++ [parameter]).map (·.2.1)).Nodup ∧ LongJson py (strip parameter.2.2)

section LongParameter

variable {py : Interpreter} {parameter : Str × Str × Str} {parameters : List (Str × Str × Str)}
  {names : List Str}

theorem LongParameter.head (h : LongParameter py (parameter :: parameters) names) :
    strip parameter.1 = [] ∧ parameter.2.1 ∉ names := by
  obtain ⟨before, long, after, heq, hgaps, hnodup, -⟩ := h
  have hmem : parameter ∈ before ++ [long] := by
    cases before with
    | nil =>
      cases heq
      exact List.mem_singleton_self _
    | cons p before =>
      cases heq
      exact List.mem_cons_self
  refine ⟨hgaps _ hmem, fun hname => ?_⟩
  rw [List.nodup_append] at hnodup
  exact hnodup.2.2 _ hname _ (List.mem_map_of_mem hmem) rfl

theorem longParameter_cons (hgap : strip parameter.1 = []) (hname : parameter.2.1 ∉ names)
    (hnames : names.Nodup) :
    LongParameter py (parameter :: parameters) names ↔
      LongJson py (strip parameter.2.2) ∨
        LongParameter py parameters (names ++ [parameter.2.1]) := by
  constructor
  · rintro ⟨before, long, after, heq, hgaps, hnodup, hlong⟩
    cases before with
    | nil =>
      cases heq
      exact .inl hlong
    | cons p before =>
      cases heq
      refine .inr ⟨before, long, after, rfl, fun q hq => hgaps q (List.mem_cons_of_mem _ hq), ?_,
        hlong⟩
      simpa using hnodup
  · rintro (hlong | ⟨before, long, after, heq, hgaps, hnodup, hlong⟩)
    · refine ⟨[], parameter, parameters, rfl, by simpa using hgap, ?_, hlong⟩
      have hdisjoint : names.Disjoint [parameter.2.1] := by simpa using hname
      exact hnames.append (List.nodup_singleton _) hdisjoint
    · refine ⟨parameter :: before, long, after, by rw [heq]; rfl, ?_, by simpa using hnodup, hlong⟩
      intro q hq
      rcases List.mem_cons.mp hq with rfl | hq
      · exact hgap
      · exact hgaps q hq

end LongParameter

theorem map_fst_dictSet {arguments : List (Str × Json)} {key : Str} (value : Json)
    (h : ¬ arguments.any (·.1 = key) = true) :
    (dictSet arguments key value).map (·.1) = arguments.map (·.1) ++ [key] := by
  rw [dictSet, if_neg h, List.map_append]
  rfl

theorem collectParameters_cases (py : Interpreter) (parameters : List (Str × Str × Str))
    {arguments : List (Str × Json)} (hnames : (arguments.map (·.1)).Nodup) :
    (LongParameter py parameters (arguments.map (·.1)) ∧
        collectParameters py parameters arguments = .error .valueError) ∨
      (¬ LongParameter py parameters (arguments.map (·.1)) ∧
        Clean (collectParameters py parameters arguments)) := by
  induction parameters generalizing arguments with
  | nil =>
    refine .inr ⟨?_, clean_ok _⟩
    rintro ⟨before, parameter, after, heq, -⟩
    exact absurd heq (by simp)
  | cons parameter parameters ih =>
    obtain ⟨gap, name, value⟩ := parameter
    rw [collectParameters]
    split_ifs with hgap hname
    · exact .inr ⟨fun h => hgap h.head.1, clean_raiseAgent _ _⟩
    · refine .inr ⟨fun h => h.head.2 ?_, clean_raiseAgent _ _⟩
      obtain ⟨argument, hmem, heq⟩ := List.any_eq_true.mp hname
      exact List.mem_map.mpr ⟨argument, hmem, of_decide_eq_true heq⟩
    · have hfresh : name ∉ arguments.map (·.1) := by
        intro hmem
        obtain ⟨argument, hmem, heq⟩ := List.mem_map.mp hmem
        exact hname (List.any_eq_true.mpr ⟨argument, hmem, decide_eq_true heq⟩)
      rw [longParameter_cons (not_not.mp hgap) hfresh hnames]
      rcases nativeValue_cases py (strip value) with ⟨hlong, hvalue⟩ | ⟨hlong, v, hvalue⟩
      · rw [hvalue]
        exact .inl ⟨.inl hlong, rfl⟩
      · rw [hvalue, ok_bind, or_iff_right hlong, ← map_fst_dictSet v hname]
        refine ih ?_
        rw [map_fst_dictSet v hname]
        exact hnames.append (List.nodup_singleton _) (by simpa using hfresh)

/-- The text meets such an integer in one of its two syntaxes. -/
def LongLiteral (py : Interpreter) (text : Str) : Prop :=
  match nativeToolCall (strip text) with
  | some (_, body) => LongParameter py (nativeParameters body).1 []
  | none => LongJson py (unwrapToolCall (strip text))

theorem jsonDecision_cases (py : Interpreter) (s : Str) :
    (LongJson py (unwrapToolCall s) ∧ jsonDecision py s = .error .valueError) ∨
      (¬ LongJson py (unwrapToolCall s) ∧ Clean (jsonDecision py s)) := by
  unfold jsonDecision LongJson
  rw [← loads_eq_valueError]
  split
  · rename_i h
    exact .inr ⟨by rw [h]; nofun, clean_ok _⟩
  · rename_i h
    exact .inr ⟨by rw [h]; nofun, clean_raiseAgent _ _⟩
  · rename_i h
    exact .inl ⟨h, rfl⟩
  · rename_i h
    exact absurd h (loads_ne_recursionError _)

theorem nativeDecision_cases (py : Interpreter) (name body : Str) :
    (LongParameter py (nativeParameters body).1 [] ∧
        nativeDecision py name body = .error .valueError) ∨
      (¬ LongParameter py (nativeParameters body).1 [] ∧ Clean (nativeDecision py name body)) := by
  have hnames : (([] : List (Str × Json)).map (·.1)).Nodup := List.nodup_nil
  refine (collectParameters_cases py (nativeParameters body).1 hnames).imp ?_ ?_
  · rintro ⟨hlong, hvalue⟩
    refine ⟨hlong, ?_⟩
    rw [nativeDecision, hvalue]
    rfl
  · rintro ⟨hlong, hclean⟩
    refine ⟨hlong, hclean.bind fun arguments _ => ?_⟩
    dsimp only
    split_ifs
    · exact clean_raiseAgent _ _
    · exact clean_ok _

theorem readDecision_cases (py : Interpreter) (text : Str) :
    (LongLiteral py text ∧ readDecision py text = .error .valueError) ∨
      (¬ LongLiteral py text ∧ Clean (readDecision py text)) := by
  unfold LongLiteral readDecision
  cases nativeToolCall (strip text) with
  | none => exact jsonDecision_cases py (strip text)
  | some call => exact nativeDecision_cases py call.1 call.2

/-- What raises something other than an `AgentError`. -/
def Escapes (py : Interpreter) (text : Str) : Prop :=
  LongLiteral py text ∨ ∃ decision, readDecision py text = .ok decision ∧
    (UnhashableName decision ∨ SurrogateData py decision)

theorem parse_decision_clean_iff (py : Interpreter) (text : Str) :
    ((∃ d, parseDecision py text = .ok d) ∨
      ∃ error, parseDecision py text = .error (.agent error)) ↔ ¬ Escapes py text := by
  change Clean (parseDecision py text) ↔ _
  unfold Escapes parseDecision
  rcases readDecision_cases py text with ⟨hlong, hread⟩ | ⟨hlong, hread⟩
  · rw [hread]
    refine iff_of_false (not_clean_error fun _ h => by cases h) ?_
    exact fun h => h (.inl hlong)
  · rw [or_iff_right hlong]
    rcases hread with ⟨decision, hread⟩ | ⟨error, hread⟩
    · rw [hread, ok_bind, validateDecision_clean_iff]
      simp
    · rw [hread]
      refine iff_of_true (.inr ⟨error, rfl⟩) ?_
      rintro ⟨decision, hdecision, -⟩
      cases hdecision

def listName : Str := str "\x7b\"name\":[]\x7d"

theorem parse_decision_list_name :
    ¬ ((∃ d, parseDecision asciiInterpreter listName = .ok d) ∨
      ∃ error, parseDecision asciiInterpreter listName = .error (.agent error)) := by
  have herror : (match parseDecision asciiInterpreter listName with
      | .error .typeError => true
      | _ => false) = true := by decide +kernel
  rintro (⟨d, h⟩ | ⟨error, h⟩) <;> rw [h] at herror <;> cases herror

end Lzamp.Agent
