import Lzamp.Agent.NativeSyntax
import Lzamp.Lib.PyJsonDumps

namespace Lzamp.Agent
open Lib.PyText Lib.PyJson Lib.Matching

def Tool.description : Tool → String
  | .increment => "Ask the Zephyr CPU3 test service to add one to an unsigned 32-bit integer."
  | .gpioRead => "Read one Zephyr-owned RK3588 GPIO3 input line."
  | .gpioConfig => "Configure an owned GPIO3 line as input or output."
  | .gpioWrite => "Write an owned GPIO3 output line."
  | .uartWrite => "Write at most eight UTF-8 bytes to UART5 or UART7."
  | .uartRead => "Read up to eight bytes from UART5 or UART7."
  | .i2cWrite => "Write up to eight hexadecimal bytes on I2C7."
  | .i2cRead => "Read up to eight bytes from an I2C7 address."
  | .i2cWriteRead => "Write a one-to-three-byte register prefix then read I2C7."
  | .imuRead =>
    "Read raw acceleration, temperature, and gyroscope data from the verified I2C7 MPU6500-class IMU."
  | .spiTransfer => "Full-duplex SPI0 transfer of up to eight hexadecimal bytes."
  | .pwmSet => "Set PWM7 period, duty and polarity."
  | .pwmStop => "Stop PWM7 output."
  | .adcRead => "Read one RK3588 SARADC channel."

def jsonText (s : String) : Json := .str (str s)

def optionalField {α : Type} (key : String) (value : α → Json) : Option α → List (Str × Json)
  | none => []
  | some a => [(str key, value a)]

/-- The schema of one property as the model sees it. -/
def Rule.schema : Rule → Json
  | .integer enum minimum maximum => .obj ((str "type", jsonText "integer") ::
      (optionalField "enum" (fun values => .arr (values.map .int)) enum ++
        (optionalField "minimum" .int minimum ++ optionalField "maximum" .int maximum)))
  | .string enum maxLength => .obj ((str "type", jsonText "string") ::
      (optionalField "enum" (fun values => .arr (values.map jsonText)) enum ++
        optionalField "maxLength" (fun n : ℕ => .int n) maxLength))

def parametersSchema (properties : List (String × Rule)) (required : List String) : Json :=
  .obj [(str "type", jsonText "object"),
    (str "properties", .obj (properties.map fun property => (str property.1, property.2.schema))),
    (str "required", .arr (required.map jsonText)), (str "additionalProperties", .bool false)]

def toolSchema (name description : String) (properties : List (String × Rule))
    (required : List String) : Json :=
  .obj [(str "type", jsonText "function"), (str "function", .obj [(str "name", jsonText name),
    (str "description", jsonText description),
    (str "parameters", parametersSchema properties required)])]

def Tool.schema (tool : Tool) : Json :=
  toolSchema tool.name tool.description tool.properties tool.required

/-- `TOOL_SCHEMAS` as the model sees it. -/
def toolSchemasJson : Json := .arr (toolSchemas.map Tool.schema)

/-- `system_prompt` for a server with native tools. -/
def nativePrompt : Str :=
  str "Choose exactly one registered tool. Return only one " ++
    str "<tool_call>\x7bJSON\x7d</tool_call> block and no prose."

/-- `system_prompt` for a server without them. -/
def routerPrompt : Str :=
  str "You are a tool decision router. Choose exactly one registered " ++
    (str "tool from this JSON schema list: " ++ (dumps [] toolSchemasJson ++
      (str ". Return exactly one object " ++ str "with name and arguments, and no prose.")))

def chatMessage (role : String) (content : Str) : Json :=
  .obj [(str "role", jsonText role), (str "content", .str content)]

def requestFields (model : Str) (messages : List Json) : List (Str × Json) :=
  [(str "model", .str model), (str "messages", .arr messages), (str "stream", .bool false),
    (str "temperature", .float (str "0.0")), (str "top_k", .int 1), (str "max_tokens", .int 128),
    (str "enable_thinking", .bool false)]

def buildModelRequest (model prompt : Str) (nativeTools : Bool) : Json :=
  if nativeTools then
    .obj (requestFields model [chatMessage "system" nativePrompt, chatMessage "user" prompt] ++
      [(str "tools", toolSchemasJson)])
  else
    .obj (requestFields model [chatMessage "user" (routerPrompt ++ (str "\nRequest: " ++ prompt))])

def buildChatRequest (model prompt : Str) : Json :=
  .obj (requestFields model [chatMessage "user" prompt])

/-- The body of the POST: `json.dumps(body)`. -/
def requestText (body : Json) : Str := dumps [ch ' '] body

def isAscii (s : String) : Bool := (str s).all fun c => decide (c.val < 128)

theorem ascii_str {s : String} (h : isAscii s = true) : Ascii (str s) :=
  fun c hc => of_decide_eq_true (List.all_eq_true.mp h c hc)

theorem unpaired_str {s : String} (h : isAscii s = true) : Unpaired (str s) :=
  unpaired_of_no_high (ascii_str h).not_high

theorem plain_text {s : String} (h : isAscii s = true) : (jsonText s).Plain := by
  rw [jsonText, Json.Plain]
  exact unpaired_str h

theorem plain_field {key : String} (hkey : isAscii key = true) {v : Json} (hv : v.Plain) :
    Unpaired (str key) ∧ v.Plain :=
  ⟨unpaired_str hkey, hv⟩

theorem plain_optional {α : Type} {key : String} {value : α → Json} {o : Option α}
    (hkey : isAscii key = true) (h : ∀ a ∈ o, (value a).Plain) :
    ∀ f ∈ optionalField key value o, Unpaired f.1 ∧ f.2.Plain := by
  cases o with
  | none => exact nofun
  | some a =>
    rw [optionalField, List.forall_mem_singleton]
    exact ⟨unpaired_str hkey, h a rfl⟩

/-- Words of 32 bits and ASCII strings only. -/
def Rule.printable : Rule → Bool
  | .integer enum minimum maximum =>
    (enum.all fun values => values.all fun n => decide (n.natAbs < 2 ^ 32)) &&
      ((minimum.all fun n => decide (n.natAbs < 2 ^ 32)) &&
        maximum.all fun n => decide (n.natAbs < 2 ^ 32))
  | .string enum maxLength =>
    (enum.all fun values => values.all isAscii) && maxLength.all fun n => decide (n < 2 ^ 32)

theorem printable_properties (tool : Tool) :
    tool.properties.all (fun property => isAscii property.1 && property.2.printable) = true := by
  cases tool <;> decide

theorem Rule.plain_schema {rule : Rule} (h : rule.printable = true) : rule.schema.Plain := by
  cases rule with
  | integer enum minimum maximum =>
    simp only [Rule.printable, Bool.and_eq_true, Option.all_eq_true, List.all_eq_true,
      decide_eq_true_eq] at h
    obtain ⟨henum, hminimum, hmaximum⟩ := h
    refine plain_obj ?_ ?_
    · cases enum <;> cases minimum <;> cases maximum <;> simp [optionalField]
    · rw [List.forall_mem_cons, List.forall_mem_append, List.forall_mem_append]
      exact ⟨⟨unpaired_str (by decide), plain_text (by decide)⟩,
        plain_optional (by decide) fun values hvalues =>
          plain_arr_map fun n hn => plain_int (henum values hvalues n hn),
        plain_optional (by decide) fun n hn => plain_int (hminimum n hn),
        plain_optional (by decide) fun n hn => plain_int (hmaximum n hn)⟩
  | string enum maxLength =>
    simp only [Rule.printable, Bool.and_eq_true, Option.all_eq_true, List.all_eq_true,
      decide_eq_true_eq] at h
    obtain ⟨henum, hmaxLength⟩ := h
    refine plain_obj ?_ ?_
    · cases enum <;> cases maxLength <;> simp [optionalField]
    · rw [List.forall_mem_cons, List.forall_mem_append]
      exact ⟨⟨unpaired_str (by decide), plain_text (by decide)⟩,
        plain_optional (by decide) fun values hvalues =>
          plain_arr_map fun s hs => plain_text (henum values hvalues s hs),
        plain_optional (by decide) fun n hn => plain_int (hmaxLength n hn)⟩

theorem Tool.isAscii_texts (tool : Tool) :
    isAscii tool.name = true ∧ isAscii tool.description = true ∧
      tool.required.all isAscii = true := by
  cases tool <;> decide

theorem plain_properties (tool : Tool) : (Json.obj (tool.properties.map fun property =>
    (str property.1, property.2.schema))).Plain := by
  refine plain_obj ?_ ?_
  · rw [List.map_map]
    exact nodup_properties tool
  · rw [List.forall_mem_map]
    intro property hproperty
    have h := List.all_eq_true.mp (printable_properties tool) property hproperty
    rw [Bool.and_eq_true] at h
    exact plain_field h.1 (Rule.plain_schema h.2)

theorem plain_parameters (tool : Tool) :
    (parametersSchema tool.properties tool.required).Plain := by
  have hrequired : (Json.arr (tool.required.map jsonText)).Plain :=
    plain_arr_map fun field hfield =>
      plain_text (List.all_eq_true.mp tool.isAscii_texts.2.2 field hfield)
  rw [parametersSchema]
  refine plain_obj (by simp) ?_
  simp only [List.forall_mem_cons]
  exact ⟨plain_field (by decide) (plain_text (by decide)),
    plain_field (by decide) (plain_properties tool), plain_field (by decide) hrequired,
    plain_field (by decide) (plain_bool false), List.forall_mem_nil _⟩

theorem Tool.plain_schema (tool : Tool) : tool.schema.Plain := by
  have hfunction : (Json.obj [(str "name", jsonText tool.name),
      (str "description", jsonText tool.description),
      (str "parameters", parametersSchema tool.properties tool.required)]).Plain := by
    refine plain_obj (by simp) ?_
    simp only [List.forall_mem_cons]
    exact ⟨plain_field (by decide) (plain_text tool.isAscii_texts.1),
      plain_field (by decide) (plain_text tool.isAscii_texts.2.1),
      plain_field (by decide) (plain_parameters tool), List.forall_mem_nil _⟩
  rw [Tool.schema, toolSchema]
  refine plain_obj (by simp) ?_
  simp only [List.forall_mem_cons]
  exact ⟨plain_field (by decide) (plain_text (by decide)), plain_field (by decide) hfunction,
    List.forall_mem_nil _⟩

theorem plain_toolSchemas : toolSchemasJson.Plain := plain_arr_map fun tool _ => tool.plain_schema

theorem ascii_routerPrompt : Ascii routerPrompt :=
  ascii_append (ascii_str (by decide)) (ascii_append (ascii_str (by decide)) (ascii_append
    (ascii_dumps (List.forall_mem_nil _) _ plain_toolSchemas)
    (ascii_append (ascii_str (by decide)) (ascii_str (by decide)))))

theorem plain_message {role : String} (hrole : isAscii role = true) {content : Str}
    (h : Unpaired content) : (chatMessage role content).Plain := by
  rw [chatMessage]
  refine plain_obj (by simp) ?_
  simp only [List.forall_mem_cons]
  exact ⟨plain_field (by decide) (plain_text hrole), plain_field (by decide) (plain_str h),
    List.forall_mem_nil _⟩

theorem plain_temperature : (Json.float (str "0.0")).Plain := by
  rw [Json.Plain]
  exact ⟨⟨[ch '0'], ch '0', [], by decide, .inl rfl, by decide, List.forall_mem_nil _⟩, by decide⟩

theorem plain_requestFields {model : Str} (hmodel : Unpaired model) {messages : List Json}
    (h : ∀ m ∈ messages, m.Plain) :
    ∀ f ∈ requestFields model messages, Unpaired f.1 ∧ f.2.Plain := by
  have hmessages : (Json.arr messages).Plain := by
    rw [Json.Plain]
    exact plainItems_iff.mpr h
  simp only [requestFields, List.forall_mem_cons]
  exact ⟨plain_field (by decide) (plain_str hmodel), plain_field (by decide) hmessages,
    plain_field (by decide) (plain_bool false), plain_field (by decide) plain_temperature,
    plain_field (by decide) (plain_int (by decide)), plain_field (by decide) (plain_int (by decide)),
    plain_field (by decide) (plain_bool false), List.forall_mem_nil _⟩

theorem ascii_nativePrompt : Ascii nativePrompt :=
  ascii_append (ascii_str (by decide)) (ascii_str (by decide))

theorem plain_buildModelRequest {model prompt : Str} (hmodel : Unpaired model)
    (hprompt : Unpaired prompt) (nativeTools : Bool) :
    (buildModelRequest model prompt nativeTools).Plain := by
  cases nativeTools with
  | true =>
    rw [buildModelRequest, if_pos rfl]
    refine plain_obj (by simp [requestFields]) ?_
    rw [List.forall_mem_append, List.forall_mem_singleton]
    refine ⟨plain_requestFields hmodel ?_, plain_field (by decide) plain_toolSchemas⟩
    simp only [List.forall_mem_cons]
    exact ⟨plain_message (by decide) (unpaired_of_no_high ascii_nativePrompt.not_high),
      plain_message (by decide) hprompt, List.forall_mem_nil _⟩
  | false =>
    rw [buildModelRequest, if_neg Bool.false_ne_true]
    refine plain_obj (by simp [requestFields]) (plain_requestFields hmodel ?_)
    rw [List.forall_mem_singleton]
    exact plain_message (by decide) (unpaired_append ascii_routerPrompt.not_high
      (unpaired_append (ascii_str (by decide)).not_high hprompt))

theorem plain_buildChatRequest {model prompt : Str} (hmodel : Unpaired model)
    (hprompt : Unpaired prompt) : (buildChatRequest model prompt).Plain := by
  rw [buildChatRequest]
  refine plain_obj (by simp [requestFields]) (plain_requestFields hmodel ?_)
  rw [List.forall_mem_singleton]
  exact plain_message (by decide) hprompt

/-- A request is sent without an error of its encoding, and the server reads what was built. -/
theorem request_read_back (py : Interpreter) (model prompt : Str) (body : Json)
    (hmodel : Unpaired model) (hprompt : Unpaired prompt)
    (hbody : body = buildChatRequest model prompt ∨
      ∃ nativeTools, body = buildModelRequest model prompt nativeTools) :
    encodeUtf8 (requestText body) = some ((requestText body).map fun c => BitVec.ofNat 8 c.val) ∧
      loads py (requestText body) = .ok body ∧
      loads py (dumps [] toolSchemasJson) = .ok toolSchemasJson := by
  have hplain : body.Plain := by
    rcases hbody with rfl | ⟨nativeTools, rfl⟩
    · exact plain_buildChatRequest hmodel hprompt
    · exact plain_buildModelRequest hmodel hprompt nativeTools
  have hblank : Ascii [ch ' '] := List.forall_mem_singleton.mpr (by decide)
  have hgap : ∀ c ∈ [ch ' '], isJsonSpace c = true := List.forall_mem_singleton.mpr (by decide)
  refine ⟨?_, ?_, loads_dumps py (List.forall_mem_nil _) plain_toolSchemas⟩
  · exact encodeUtf8_ascii (ascii_dumps hblank body hplain)
  · rw [requestText]
    exact loads_dumps py hgap hplain

theorem request_read_back_chat : loads asciiInterpreter
    (requestText (buildChatRequest (str "rkllm") (str "hi"))) =
      .ok (buildChatRequest (str "rkllm") (str "hi")) :=
  (request_read_back asciiInterpreter (str "rkllm") (str "hi") _ (unpaired_str (by decide))
    (unpaired_str (by decide)) (.inl rfl)).2.1

def Decision.json (d : Decision) : Json :=
  .obj [(str "name", .str d.name), (str "arguments", .obj d.arguments)]

section Answer

variable {py : Interpreter} {tool : Tool} {arguments : List (Str × Json)} {gap : Str}

theorem Fits.nodup (h : Fits tool arguments) : (arguments.map (·.1)).Nodup := by
  rw [h.names, required_eq_properties, List.map_map]
  exact nodup_properties tool

theorem Fits.property (h : Fits tool arguments) {argument : Str × Json} (hmem : argument ∈ arguments) :
    ∃ property ∈ tool.properties, argument.1 = str property.1 := by
  have hkey : argument.1 ∈ arguments.map (·.1) := List.mem_map_of_mem hmem
  rw [h.names, required_eq_properties, List.map_map] at hkey
  obtain ⟨property, hproperty, heq⟩ := List.mem_map.mp hkey
  exact ⟨property, hproperty, heq.symm⟩

theorem Fits.increment (h : Fits .increment arguments) :
    ∃ n : ℤ, arguments = [(str "value", .int n)] ∧ 0 ≤ n ∧ n ≤ 4294967294 := by
  rcases h with _ | ⟨⟨hkey, n, hn, -, hlow, hhigh⟩, hrest⟩
  cases hrest
  refine ⟨n, ?_, hlow 0 rfl, hhigh _ rfl⟩
  rw [← hn, ← hkey]

theorem checkField_fits {field : String} {rule : Rule} {value : Json} (h : FieldOk rule value) :
    checkField field rule value = .ok () := by
  rcases checkField_cases field rule value with ⟨-, hok⟩ | ⟨hno, -⟩
  · exact hok
  · exact absurd h hno

theorem requireFields_isSome {fields : List String}
    (h : ∀ field ∈ fields, (lookup arguments field).isSome) :
    requireFields arguments fields = .ok () := by
  induction fields with
  | nil => rfl
  | cons field fields ih =>
    have hnone : ¬ (lookup arguments field).isNone = true := by
      rw [Option.isNone_iff_eq_none]
      intro hnone
      have hsome := h field List.mem_cons_self
      rw [hnone] at hsome
      cases hsome
    rw [requireFields, if_neg hnone]
    exact ih fun f hf => h f (List.mem_cons_of_mem _ hf)

theorem normalizeFields_fits {all : List (Str × Json)} {properties : List (String × Rule)}
    (h : List.Forall₂ (fun property argument => argument.1 = str property.1 ∧
      FieldOk property.2 argument.2) properties arguments)
    (hkeys : (all.map (·.1)).Nodup) (hall : ∀ argument ∈ arguments, argument ∈ all) :
    normalizeFields all properties = .ok arguments := by
  induction h with
  | nil => rfl
  | @cons property argument properties arguments hhead _ ih =>
    obtain ⟨field, rule⟩ := property
    obtain ⟨key, value⟩ := argument
    obtain ⟨rfl, hok⟩ : key = str field ∧ FieldOk rule value := hhead
    have hvalue : lookup all field = some value := lookup_of_mem hkeys (hall _ List.mem_cons_self)
    have hrest := ih fun a ha => hall a (List.mem_cons_of_mem _ ha)
    rw [normalizeFields, hvalue]
    dsimp only
    rw [checkField_fits hok, ok_bind, hrest]
    rfl

theorem lower_lowerHex {low high : ℕ} {s : Str} (h : LowerHex low high s) : py.lower s = s := by
  have hascii : ∀ c ∈ s, c < 128 := by
    intro c hc
    have := isLowerHex_iff.mp (h.digits c hc)
    change c.val < 128
    omega
  have hid : ∀ c ∈ s, lowerAscii c = c := by
    intro c hc
    have hrange := isLowerHex_iff.mp (h.digits c hc)
    refine if_neg ?_
    simp only [isUpper, Bool.and_eq_true, decide_eq_true_eq]
    rintro ⟨hle, hge⟩
    have hle' : 65 ≤ c.val := hle
    have hge' : c.val ≤ 90 := hge
    omega
  rw [py.lower_ascii s hascii, List.map_congr_left hid, List.map_id']

theorem validateHex_lowerHex {low high : ℕ} {s : Str} (h : LowerHex low high s) (field : String) :
    validateHex py s field low high = .ok s := by
  have hdigits : (s.all fun c => (hexValue c).isSome) = true := by
    rw [List.all_eq_true]
    intro c hc
    have := isLowerHex_iff.mp (h.digits c hc)
    rw [hexValue_isSome_iff]
    omega
  have hlow := h.low_le
  have hhigh := h.le_high
  rw [validateHex, if_neg (not_or.mpr ⟨not_not.mpr h.whole, not_not.mpr hdigits⟩),
    if_neg (by omega), lower_lowerHex h]
  rfl

theorem dictSet_lookup (hkeys : (arguments.map (·.1)).Nodup) {field : String} {value : Json}
    (h : lookup arguments field = some value) : dictSet arguments (str field) value = arguments := by
  obtain ⟨a, ha, -⟩ := Option.map_eq_some_iff.mp h
  have hfound := List.find?_some ha
  have hkey : a.1 = str field := of_decide_eq_true hfound
  have hany : arguments.any (·.1 = str field) = true :=
    List.any_eq_true.mpr ⟨a, List.mem_of_find?_eq_some ha, decide_eq_true hkey⟩
  have hsame : ∀ f ∈ arguments, (if f.1 = str field then (str field, value) else f) = f := by
    rintro ⟨key, v⟩ hf
    split_ifs with hk
    · obtain rfl : key = str field := hk
      cases (lookup_of_mem hkeys hf).symm.trans h
      rfl
    · rfl
  rw [dictSet, if_pos hany, List.map_congr_left hsame, List.map_id']

theorem strItem_lookup {field : String} {s : Str} (h : lookup arguments field = some (.str s)) :
    strItem arguments field = .ok s := by
  rw [strItem, h]
  rfl

theorem intItem_lookup {field : String} {n : ℤ} (h : lookup arguments field = some (.int n)) :
    intItem arguments field = .ok n := by
  rw [intItem, h]
  rfl

theorem normalizeHex_lowerHex (hkeys : (arguments.map (·.1)).Nodup) {field : String}
    {low high : ℕ} (h : ∃ s, lookup arguments field = some (.str s) ∧ LowerHex low high s) :
    normalizeHex py field low high arguments = .ok arguments := by
  obtain ⟨s, hs, hhex⟩ := h
  rw [normalizeHex, strItem_lookup hs, ok_bind, validateHex_lowerHex hhex, ok_bind,
    dictSet_lookup hkeys hs]
  rfl

theorem finishArguments_refined (hkeys : (arguments.map (·.1)).Nodup)
    (h : Refined tool arguments) : finishArguments py tool arguments = .ok arguments := by
  cases tool with
  | i2cWrite => exact normalizeHex_lowerHex hkeys h
  | spiTransfer => exact normalizeHex_lowerHex hkeys h
  | i2cWriteRead => exact normalizeHex_lowerHex hkeys h
  | uartWrite =>
    obtain ⟨s, bytes, hs, hbytes, hlow, hhigh⟩ := h
    have hsize : ¬ (bytes = [] ∨ 8 < bytes.length) := by
      rintro (rfl | hlong)
      · cases hlow
      · omega
    rw [finishArguments, strItem_lookup hs, ok_bind, hbytes]
    dsimp only
    rw [if_neg hsize]
    rfl
  | pwmSet =>
    obtain ⟨duty, period, hduty, hperiod, hle⟩ := h
    rw [finishArguments, intItem_lookup hduty, ok_bind, intItem_lookup hperiod, ok_bind,
      if_neg (by omega)]
    rfl
  | _ => rfl

theorem validateArguments_fits (hfits : Fits tool arguments) (hrefined : Refined tool arguments) :
    validateArguments py tool (.obj arguments) = .ok ⟨str tool.name, arguments⟩ := by
  have hnames : ∀ argument ∈ arguments, argument.1 ∈ (tool.properties.map (·.1)).map str := by
    intro argument hmem
    obtain ⟨property, hproperty, heq⟩ := hfits.property hmem
    rw [List.map_map]
    exact List.mem_map.mpr ⟨property, hproperty, heq.symm⟩
  by_cases htool : tool = .increment
  · subst htool
    obtain ⟨n, rfl, hlow, hhigh⟩ := hfits.increment
    have hvalue : lookup [(str "value", Json.int n)] "value" = some (.int n) := by simp [lookup]
    have hstrict : strictObject (.obj [(str "value", Json.int n)]) ["value"] "arguments" =
        .ok [(str "value", Json.int n)] := (strictObject_ok "arguments").mpr ⟨rfl, hnames⟩
    rw [validateArguments, if_pos rfl, validateIncrement, hstrict, ok_bind, hvalue]
    dsimp only
    rw [if_neg (by omega)]
    rfl
  · have hall : ∀ field ∈ tool.required, (lookup arguments field).isSome := by
      intro field hfield
      rw [required_eq_properties] at hfield
      obtain ⟨property, hproperty, rfl⟩ := List.mem_map.mp hfield
      obtain ⟨value, hvalue, -⟩ := lookup_of_forall₂ hfits (nodup_properties tool) hproperty
      rw [hvalue]
      rfl
    rw [validateArguments, if_neg htool, (strictObject_ok "arguments").mpr ⟨rfl, hnames⟩, ok_bind,
      requireFields_isSome hall, ok_bind,
      normalizeFields_fits hfits hfits.nodup fun _ h => h, ok_bind,
      finishArguments_refined hfits.nodup hrefined]
    rfl

theorem brace_ne_tag (s t : Str) : ch '{' :: s ≠ str "<tool_call>" ++ t := by
  intro h
  have hhead : (str "<tool_call>" ++ t).head? = some (ch '<') := rfl
  rw [← h] at hhead
  exact absurd (Option.some.inj hhead) (by decide)

theorem readDecision_obj {fields : List (Str × Json)} (h : (Json.obj fields).Plain)
    (hgap : ∀ c ∈ gap, isJsonSpace c = true) :
    readDecision py (dumps gap (.obj fields)) = .ok (.obj fields) := by
  have hloads := loads_dumps py hgap h
  obtain ⟨s, hs⟩ := dumps_obj_close gap fields
  rw [hs] at hloads ⊢
  have hstrip : strip (ch '{' :: (s ++ [ch '}'])) = ch '{' :: (s ++ [ch '}']) := by
    refine strip_eq_self ?_ ?_
    · intro c hc
      cases hc
      decide
    · intro c hc
      rw [← List.cons_append, List.getLast?_concat] at hc
      cases hc
      decide
  have hnative : nativeToolCall (ch '{' :: (s ++ [ch '}'])) = none := by
    rw [Option.eq_none_iff_forall_ne_some]
    intro r hr
    obtain ⟨t, ht, -⟩ := lit_eq_some.mp hr
    exact brace_ne_tag _ _ ht
  have hunwrap : unwrapToolCall (ch '{' :: (s ++ [ch '}'])) = ch '{' :: (s ++ [ch '}']) := by
    refine if_neg ?_
    rintro ⟨⟨t, ht⟩, -⟩
    exact brace_ne_tag _ _ ht.symm
  rw [readDecision, hstrip, hnative]
  dsimp only
  rw [jsonDecision, hunwrap, hloads]
  rfl

theorem Fits.uartWrite (h : Fits .uartWrite arguments) : ∃ (n : ℤ) (s : Str),
    arguments = [(str "port", .int n), (str "data", .str s)] ∧ n ∈ uartPorts := by
  rcases h with _ | ⟨⟨hport, n, hn, henum, -⟩, hrest⟩
  rcases hrest with _ | ⟨⟨hdata, s, hs, -⟩, hrest⟩
  cases hrest
  refine ⟨n, s, ?_, henum _ rfl⟩
  rw [← hn, ← hs, ← hport, ← hdata]

theorem Plain.json {value : Json} (h : Plain value) : value.Plain := by
  cases value with
  | int n => exact plain_int (by have := h.1; have := h.2; omega)
  | str s =>
    refine plain_str (unpaired_of_no_high fun c hc hhigh => ?_)
    have hprinting := isPrinting_of_isAlnum (h.alnum c hc)
    simp only [isPrinting, Bool.and_eq_true, decide_eq_true_eq] at hprinting
    have := hhigh.1
    omega
  | _ => cases h

theorem plain_argument (hfits : Fits tool arguments) (hrefined : Refined tool arguments) :
    ∀ argument ∈ arguments, argument.2.Plain := by
  by_cases htool : tool = .uartWrite
  · subst htool
    -- The data may be any text; that it could be encoded says that no surrogate stands in it.
    obtain ⟨n, s, rfl, hport⟩ := hfits.uartWrite
    obtain ⟨s', bytes, hs', hbytes, -⟩ := hrefined
    have hdata : lookup [(str "port", Json.int n), (str "data", .str s)] "data" = some (.str s) := by
      simp [lookup]
    cases hdata.symm.trans hs'
    have hword : ∀ m ∈ uartPorts, m.natAbs < 2 ^ 32 := by decide
    simp only [List.forall_mem_cons]
    exact ⟨plain_int (hword n hport), plain_str (unpaired_of_encodeUtf8 hbytes),
      List.forall_mem_nil _⟩
  · intro argument hmem
    have hok : validateArguments asciiInterpreter tool (.obj arguments) =
        .ok ⟨str tool.name, arguments⟩ := validateArguments_fits hfits hrefined
    exact (plain_of_accepted htool hfits.nodup hok argument hmem).2.json

theorem plain_decision (hfits : Fits tool arguments) (hrefined : Refined tool arguments) :
    (Decision.json ⟨str tool.name, arguments⟩).Plain := by
  have harguments : (Json.obj arguments).Plain := by
    refine plain_obj hfits.nodup fun argument hmem => ⟨?_, plain_argument hfits hrefined argument hmem⟩
    obtain ⟨property, hproperty, heq⟩ := hfits.property hmem
    have h := List.all_eq_true.mp (printable_properties tool) property hproperty
    rw [Bool.and_eq_true] at h
    rw [heq]
    exact unpaired_str h.1
  rw [Decision.json]
  refine plain_obj (by simp) ?_
  simp only [List.forall_mem_cons]
  exact ⟨plain_field (by decide) (plain_text tool.isAscii_texts.1),
    plain_field (by decide) harguments, List.forall_mem_nil _⟩

theorem parseDecision_json (hfits : Fits tool arguments) (hrefined : Refined tool arguments)
    (hgap : ∀ c ∈ gap, isJsonSpace c = true) :
    parseDecision py (dumps gap (Decision.json ⟨str tool.name, arguments⟩)) =
      .ok ⟨str tool.name, arguments⟩ := by
  have hfields : ∀ field ∈ [(str "name", Json.str (str tool.name)), (str "arguments",
      .obj arguments)], field.1 ∈ ["name", "arguments"].map str := by simp
  have hplain := plain_decision hfits hrefined
  rw [Decision.json] at hplain ⊢
  rw [parseDecision, readDecision_obj hplain hgap, ok_bind,
    validateDecision_eq hfields rfl (canonicalName_name py tool)]
  exact validateArguments_fits hfits hrefined

end Answer

/-- The answers that come back as they were written are those that keep to the schema of their tool
and to what it checks beyond it. -/
theorem written_decision_accepted_iff (py : Interpreter) (tool : Tool)
    (arguments : List (Str × Json)) (gap : Str) (hgap : ∀ c ∈ gap, isJsonSpace c = true) :
    parseDecision py (dumps gap (Decision.json ⟨str tool.name, arguments⟩)) =
        .ok ⟨str tool.name, arguments⟩ ↔
      Fits tool arguments ∧ Refined tool arguments := by
  constructor
  · intro h
    obtain ⟨decision, -, h⟩ := bind_eq_ok.mp h
    obtain ⟨tool', hname, hfits, hrefined⟩ := validateDecision_ok h
    obtain rfl := Tool.eq_of_name hname
    exact ⟨hfits, hrefined⟩
  · rintro ⟨hfits, hrefined⟩
    exact parseDecision_json hfits hrefined hgap

def wakeArguments : List (Str × Json) :=
  [(str "address", .int 104), (str "data_hex", .str (str "6b00"))]

theorem written_decision_accepted_i2c :
    parseDecision asciiInterpreter
        (dumps [ch ' '] (Decision.json ⟨str Tool.i2cWrite.name, wakeArguments⟩)) =
      .ok ⟨str Tool.i2cWrite.name, wakeArguments⟩ := by
  have hfits : Fits .i2cWrite wakeArguments := by
    refine .cons ⟨rfl, 104, rfl, ?_, ?_, ?_⟩ (.cons ⟨rfl, str "6b00", rfl, ?_, ?_⟩ .nil) <;>
      decide
  have hrefined : Refined .i2cWrite wakeArguments :=
    ⟨str "6b00", by decide +kernel, List.all_eq_true.mp (by decide), by decide, by decide, by decide⟩
  exact (written_decision_accepted_iff asciiInterpreter .i2cWrite wakeArguments [ch ' ']
    (List.forall_mem_singleton.mpr (by decide))).mpr ⟨hfits, hrefined⟩

/-- What was validated once is validated again, and to the same decision. -/
theorem accepted_decision_fixed (py : Interpreter) (text gap : Str) (d : Decision)
    (hgap : ∀ c ∈ gap, isJsonSpace c = true) (h : parseDecision py text = .ok d) :
    parseDecision py (dumps gap d.json) = .ok d := by
  obtain ⟨decision, -, h⟩ := bind_eq_ok.mp h
  obtain ⟨tool, hname, hfits, hrefined⟩ := validateDecision_ok h
  obtain ⟨name, arguments⟩ := d
  obtain rfl : name = str tool.name := hname
  exact parseDecision_json hfits hrefined hgap

theorem accepted_decision_fixed_adc : ∃ d, parseDecision asciiInterpreter adcDecision = .ok d ∧
    parseDecision asciiInterpreter (dumps [ch ' '] d.json) = .ok d := by
  have hok : (parseDecision asciiInterpreter adcDecision).toBool = true := by decide +kernel
  cases h : parseDecision asciiInterpreter adcDecision with
  | error e =>
    rw [h] at hok
    cases hok
  | ok d =>
    exact ⟨d, rfl, accepted_decision_fixed asciiInterpreter adcDecision [ch ' '] d
      (List.forall_mem_singleton.mpr (by decide)) h⟩

end Lzamp.Agent
