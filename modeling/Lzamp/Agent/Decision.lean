import Lzamp.Agent.Calls
import Lzamp.Lib.PyJson

namespace Lzamp.Agent
open Lib.PyText Lib.PyJson Lib.Matching

inductive Tool where
  | increment
  | gpioRead
  | gpioConfig
  | gpioWrite
  | uartWrite
  | uartRead
  | i2cWrite
  | i2cRead
  | i2cWriteRead
  | imuRead
  | spiTransfer
  | pwmSet
  | pwmStop
  | adcRead
deriving DecidableEq

/-- The `TOOL_*` names. -/
def Tool.name : Tool → String
  | .increment => "zephyr_increment"
  | .gpioRead => "zephyr_gpio_read"
  | .gpioConfig => "zephyr_gpio_config"
  | .gpioWrite => "zephyr_gpio_write"
  | .uartWrite => "zephyr_uart_write"
  | .uartRead => "zephyr_uart_read"
  | .i2cWrite => "zephyr_i2c_write"
  | .i2cRead => "zephyr_i2c_read"
  | .i2cWriteRead => "zephyr_i2c_write_read"
  | .imuRead => "zephyr_imu_read"
  | .spiTransfer => "zephyr_spi_transfer"
  | .pwmSet => "zephyr_pwm_set"
  | .pwmStop => "zephyr_pwm_stop"
  | .adcRead => "zephyr_adc_read"

/-- The schema of one property, without its description, which only the model sees. -/
inductive Rule where
  | integer (enum : Option (List ℤ)) (minimum maximum : Option ℤ)
  | string (enum : Option (List String)) (maxLength : Option ℕ)

def integerSchema (minimum maximum : ℤ) : Rule := .integer none (some minimum) (some maximum)

def uartPorts : List ℤ := [5, 7]

def lineSchema : Rule := .integer (some gpioReadLines) none none

def portSchema : Rule := .integer (some uartPorts) none none

/-- `properties` of the tool's schema. -/
def Tool.properties : Tool → List (String × Rule)
  | .increment => [("value", integerSchema 0 4294967294)]
  | .gpioRead => [("line", lineSchema)]
  | .gpioConfig => [("line", lineSchema), ("direction", .string (some ["input", "output"]) none),
      ("value", integerSchema 0 1)]
  | .gpioWrite => [("line", lineSchema), ("value", integerSchema 0 1)]
  | .uartWrite => [("port", portSchema), ("data", .string none (some 8))]
  | .uartRead => [("port", portSchema), ("length", integerSchema 1 8)]
  | .i2cWrite => [("address", integerSchema 0 127), ("data_hex", .string none (some 16))]
  | .i2cRead => [("address", integerSchema 0 127), ("length", integerSchema 1 8)]
  | .i2cWriteRead => [("address", integerSchema 0 127), ("prefix_hex", .string none (some 6)),
      ("length", integerSchema 1 8)]
  | .imuRead => []
  | .spiTransfer => [("chip_select", integerSchema 0 1), ("mode", integerSchema 0 3),
      ("data_hex", .string none (some 16))]
  | .pwmSet => [("period_ns", integerSchema 1 4294967295), ("duty_ns", integerSchema 0 4294967295),
      ("polarity", integerSchema 0 1)]
  | .pwmStop => []
  | .adcRead => [("channel", integerSchema 0 7)]

def Tool.required : Tool → List String
  | .increment => ["value"]
  | .gpioRead => ["line"]
  | .gpioConfig => ["line", "direction", "value"]
  | .gpioWrite => ["line", "value"]
  | .uartWrite => ["port", "data"]
  | .uartRead => ["port", "length"]
  | .i2cWrite => ["address", "data_hex"]
  | .i2cRead => ["address", "length"]
  | .i2cWriteRead => ["address", "prefix_hex", "length"]
  | .imuRead => []
  | .spiTransfer => ["chip_select", "mode", "data_hex"]
  | .pwmSet => ["period_ns", "duty_ns", "polarity"]
  | .pwmStop => []
  | .adcRead => ["channel"]

def toolSchemas : List Tool :=
  [.increment, .gpioRead, .gpioConfig, .gpioWrite, .uartWrite, .uartRead, .i2cWrite, .i2cRead,
    .i2cWriteRead, .imuRead, .spiTransfer, .pwmSet, .pwmStop, .adcRead]

def allowedTools : List Str := toolSchemas.map fun tool => str tool.name

def toolNameAliases : List (String × Tool) :=
  [("zephyr_ii_c_write_read", .i2cWriteRead), ("zephyr_iic_write_read", .i2cWriteRead),
    ("zephyr_imu_reading", .imuRead)]

def toolOfName (name : Str) : Option Tool := toolSchemas.find? fun tool => str tool.name = name

/-- `re.sub(r"_+", "_", name)`. -/
def collapseUnderscores : Str → Str
  | [] => []
  | c :: s =>
    if c = ch '_' ∧ s.head? = some (ch '_') then collapseUnderscores s
    else c :: collapseUnderscores s

/-- `_canonical_tool_name` of a string. -/
def canonicalName (py : Interpreter) (name : Str) : Str :=
  let compact := collapseUnderscores (py.lower (strip name))
  match toolNameAliases.find? fun entry => str entry.1 = compact with
  | some entry => str entry.2.name
  | none => compact

def canonicalToolName (py : Interpreter) : Json → Json
  | .str name => .str (canonicalName py name)
  | value => value

def isNameStart (c : CodePoint) : Bool := isUpper c || isLower c || c == ch '_'

def isNameChar (c : CodePoint) : Bool := isNameStart c || isDigit c

/-- `[A-Za-z_][A-Za-z0-9_]*`. -/
def identifier {β : Type} : Str → (Str → Str → Option β) → Option β
  | [], _ => none
  | c :: s, k => if isNameStart c then greedy isNameChar s fun got rest => k (c :: got) rest else none

theorem exists_of_identifier {β : Type} {s : Str} {k : Str → Str → Option β} {b : β}
    (h : identifier s k = some b) : ∃ got rest, s = got ++ rest ∧ k got rest = some b := by
  cases s with
  | nil => cases h
  | cons c s =>
    rw [identifier] at h
    split_ifs at h
    obtain ⟨got, rest, rfl, -, hk⟩ := exists_of_greedy h
    exact ⟨c :: got, rest, rfl, hk⟩

/-- From the end of the body of `NATIVE_TOOL_CALL_RE` on. -/
def nativeEnd {β : Type} (b : β) (s : Str) : Option β :=
  greedy isSpace s fun _ s =>
  lit (str "</function>") s fun s =>
  greedy isSpace s fun _ s =>
  lit (str "</tool_call>") s fun s =>
  if s = [] then some b else none

/-- `NATIVE_TOOL_CALL_RE.fullmatch`: the groups `name` and `body`. -/
def nativeToolCall (s : Str) : Option (Str × Str) :=
  lit (str "<tool_call>") s fun s =>
  greedy isSpace s fun _ s =>
  lit (str "<function=") s fun s =>
  identifier s fun name s =>
  lit (str ">") s fun s =>
  greedy isSpace s fun _ s =>
  reluctant s fun body s => nativeEnd (name, body) s

/-- From the end of the value of `NATIVE_PARAMETER_RE` on. -/
def parameterEnd {β : Type} (b : β) (s : Str) : Option (β × Str) :=
  greedy isSpace s fun _ s =>
  lit (str "</parameter>") s fun s => some (b, s)

/-- `NATIVE_PARAMETER_RE` at one place: the groups `name` and `value`, and what follows. -/
def nativeParameter (s : Str) : Option ((Str × Str) × Str) :=
  greedy isSpace s fun _ s =>
  lit (str "<parameter=") s fun s =>
  identifier s fun name s =>
  lit (str ">") s fun s =>
  greedy isSpace s fun _ s =>
  reluctant s fun value s => parameterEnd (name, value) s

/-- `NATIVE_PARAMETER_RE.finditer`, with the text before each match and after the last. -/
def nativeParameters (body : Str) : List (Str × Str × Str) × Str :=
  findAll nativeParameter (body.length + 1) body

theorem length_nativeParameter {s rest : Str} {b : Str × Str}
    (h : nativeParameter s = some (b, rest)) : rest.length < s.length := by
  have hopening : 0 < (str "<parameter=").length := by decide
  obtain ⟨_, s₁, hs, -, hopen⟩ := exists_of_greedy h
  obtain ⟨s₂, hs₁, hname⟩ := lit_eq_some.mp hopen
  obtain ⟨_, s₃, hs₂, hclose⟩ := exists_of_identifier hname
  obtain ⟨s₄, hs₃, hspace⟩ := lit_eq_some.mp hclose
  obtain ⟨_, s₅, hs₄, -, hvalue⟩ := exists_of_greedy hspace
  obtain ⟨_, s₆, hs₅, hend⟩ := exists_of_reluctant hvalue
  obtain ⟨_, s₇, hs₆, -, hlast⟩ := exists_of_greedy hend
  obtain ⟨s₈, hs₇, hrest⟩ := lit_eq_some.mp hlast
  cases hrest
  rw [hs, hs₁, hs₂, hs₃, hs₄, hs₅, hs₆, hs₇]
  simp only [List.length_append]
  omega

/-- The bound on the number of matches leaves none out. -/
theorem search_nativeParameters (body : Str) :
    search nativeParameter (nativeParameters body).2 = none :=
  search_findAll (fun _ _ _ => length_nativeParameter) (Nat.lt_succ_self _)

/-- A parameter's value: JSON if it can be read as JSON, or the text itself. -/
def nativeValue (py : Interpreter) (raw : Str) : Py Json :=
  match loads py raw with
  | .ok value => pure value
  | .error .decodeError => pure (.str raw)
  | .error .valueError => throw .valueError
  | .error .recursionError => throw .recursionError

def collectParameters (py : Interpreter) :
    List (Str × Str × Str) → List (Str × Json) → Py (List (Str × Json))
  | [], arguments => pure arguments
  | (gap, name, value) :: parameters, arguments =>
    if strip gap ≠ [] then
      raiseAgent "invalid_json" "native tool call contains unsupported content"
    else if arguments.any (·.1 = name) then
      raiseAgent "invalid_decision" "native tool call repeats a parameter"
    else do
      let value ← nativeValue py (strip value)
      collectParameters py parameters (dictSet arguments name value)

def emptyNativeParameterTolerance : List Tool := [.imuRead]

def nativeDecision (py : Interpreter) (name body : Str) : Py Json := do
  let found := nativeParameters body
  let arguments ← collectParameters py found.1 []
  let trailing := strip found.2
  if trailing ≠ [] ∧ ¬ (trailing = str "</parameter>" ∧
      ∃ tool ∈ emptyNativeParameterTolerance, canonicalName py name = str tool.name) then
    raiseAgent "invalid_json" "native tool call contains unsupported content"
  else pure (.obj [(str "name", .str name), (str "arguments", .obj arguments)])

/-- The text inside a `<tool_call>` wrapper. -/
def unwrapToolCall (s : Str) : Str :=
  if str "<tool_call>" <+: s ∧ str "</tool_call>" <:+ s then
    strip ((s.drop 11).take (s.length - 23))
  else s

def jsonDecision (py : Interpreter) (s : Str) : Py Json :=
  match loads py (unwrapToolCall s) with
  | .ok value => pure value
  | .error .decodeError =>
    raiseAgent "invalid_json" "model output is not one exact JSON tool call"
  | .error .valueError => throw .valueError
  | .error .recursionError => throw .recursionError

/-- The decision that a text spells, before it is validated. -/
def readDecision (py : Interpreter) (text : Str) : Py Json :=
  match nativeToolCall (strip text) with
  | some (name, body) => nativeDecision py name body
  | none => jsonDecision py (strip text)

/-- `_strict_object`: the fields of an object that has no others. -/
def strictObject (value : Json) (allowed : List String) (label : String) :
    Py (List (Str × Json)) :=
  match value with
  | .obj fields =>
    if fields.any fun field => field.1 ∉ allowed.map str then
      raiseAgent "invalid_decision" (label ++ " contains unsupported fields")
    else pure fields
  | _ => raiseAgent "invalid_decision" (label ++ " must be an object")

/-- `name not in ALLOWED_TOOLS`, which has to hash the name. -/
def registeredTool : Json → Py Tool
  | .str name =>
    match toolOfName name with
    | some tool => pure tool
    | none => raiseAgent "tool_not_allowed" "tool is not registered"
  | .arr _ | .obj _ => throw .typeError
  | _ => raiseAgent "tool_not_allowed" "tool is not registered"

def lookup (arguments : List (Str × Json)) (field : String) : Option Json :=
  (arguments.find? (·.1 = str field)).map (·.2)

/-- `arguments[field]` where a string is expected. -/
def strItem (arguments : List (Str × Json)) (field : String) : Py Str :=
  match lookup arguments field with
  | none => throw .keyError
  | some (.str s) => pure s
  | some _ => throw .typeError

def intItem (arguments : List (Str × Json)) (field : String) : Py ℤ :=
  match lookup arguments field with
  | none => throw .keyError
  | some (.int n) => pure n
  | some _ => throw .typeError

structure Decision where
  name : Str
  arguments : List (Str × Json)
deriving DecidableEq

/-- The branch for TOOL_INCREMENT. -/
def validateIncrement (arguments : Json) : Py Decision := do
  let arguments ← strictObject arguments ["value"] "arguments"
  match lookup arguments "value" with
  | none => raiseAgent "invalid_arguments" "value is required"
  | some (.int value) =>
    if value < 0 ∨ 0xffffffff ≤ value then
      raiseAgent "invalid_arguments" "value must be between 0 and 4294967294"
    else pure ⟨str Tool.increment.name, [(str "value", .int value)]⟩
  | some _ => raiseAgent "invalid_arguments" "value must be an integer"

def requireFields (arguments : List (Str × Json)) : List String → Py Unit
  | [] => pure ()
  | field :: fields =>
    if (lookup arguments field).isNone then
      raiseAgent "invalid_arguments" (field ++ " is required")
    else requireFields arguments fields

def checkField (field : String) : Rule → Json → Py Unit
  | .integer enum minimum maximum, .int value =>
    if ∃ allowed ∈ enum, value ∉ allowed then
      raiseAgent "invalid_arguments" (field ++ " is outside the allowlist")
    else if value < minimum.getD value ∨ maximum.getD value < value then
      raiseAgent "invalid_arguments" (field ++ " is outside the allowed range")
    else pure ()
  | .integer _ _ _, _ => raiseAgent "invalid_arguments" (field ++ " must be an integer")
  | .string enum maxLength, .str value =>
    if maxLength.getD value.length < value.length then
      raiseAgent "invalid_arguments" (field ++ " is not a valid string")
    else if ∃ allowed ∈ enum, value ∉ allowed.map str then
      raiseAgent "invalid_arguments" (field ++ " is outside the allowlist")
    else pure ()
  | .string _ _, _ => raiseAgent "invalid_arguments" (field ++ " is not a valid string")

/-- The loop that builds `normalized`. -/
def normalizeFields (arguments : List (Str × Json)) :
    List (String × Rule) → Py (List (Str × Json))
  | [] => pure []
  | (field, rule) :: properties =>
    match lookup arguments field with
    | none => normalizeFields arguments properties
    | some value => do
      checkField field rule value
      let normalized ← normalizeFields arguments properties
      pure ((str field, value) :: normalized)

def validateHex (py : Interpreter) (value : Str) (field : String) (minimumBytes maximumBytes : ℕ) :
    Py Str :=
  if value.length % 2 ≠ 0 ∨ ¬ value.all fun c => (hexValue c).isSome then
    raiseAgent "invalid_arguments" (field ++ " must contain complete hexadecimal bytes")
  else if value.length / 2 < minimumBytes ∨ maximumBytes < value.length / 2 then
    raiseAgent "invalid_arguments" (field ++ " must contain " ++ toString minimumBytes ++ " to " ++
      toString maximumBytes ++ " bytes")
  else pure (py.lower value)

/-- `normalized[field] = _validate_hex(normalized[field], ...)`. -/
def normalizeHex (py : Interpreter) (field : String) (minimumBytes maximumBytes : ℕ)
    (normalized : List (Str × Json)) : Py (List (Str × Json)) := do
  let value ← strItem normalized field
  let value ← validateHex py value field minimumBytes maximumBytes
  pure (dictSet normalized (str field) (.str value))

/-- The checks that a tool has beyond its schema. -/
def finishArguments (py : Interpreter) (tool : Tool) (normalized : List (Str × Json)) :
    Py (List (Str × Json)) :=
  match tool with
  | .i2cWrite | .spiTransfer => normalizeHex py "data_hex" 1 8 normalized
  | .i2cWriteRead => normalizeHex py "prefix_hex" 1 3 normalized
  | .uartWrite => do
    let data ← strItem normalized "data"
    match encodeUtf8 data with
    | none => throw .unicodeEncodeError
    | some encoded =>
      if encoded = [] ∨ 8 < encoded.length then
        raiseAgent "invalid_arguments" "data must encode to between one and eight bytes"
      else pure normalized
  | .pwmSet => do
    let duty ← intItem normalized "duty_ns"
    let period ← intItem normalized "period_ns"
    if period < duty then raiseAgent "invalid_arguments" "duty_ns must not exceed period_ns"
    else pure normalized
  | _ => pure normalized

/-- `parse_decision` from the branch on TOOL_INCREMENT on. -/
def validateArguments (py : Interpreter) (tool : Tool) (arguments : Json) : Py Decision :=
  if tool = .increment then validateIncrement arguments
  else do
    let arguments ← strictObject arguments (tool.properties.map (·.1)) "arguments"
    requireFields arguments tool.required
    let normalized ← normalizeFields arguments tool.properties
    let normalized ← finishArguments py tool normalized
    pure ⟨str tool.name, normalized⟩

/-- The part of `parse_decision` that follows the two syntaxes. -/
def validateDecision (py : Interpreter) (decision : Json) : Py Decision := do
  let decision ← strictObject decision ["name", "arguments"] "decision"
  let tool ← registeredTool (canonicalToolName py (dictGet decision (str "name")))
  validateArguments py tool (dictGet decision (str "arguments"))

/-- `parse_decision` of a text that a model produced.  A JSON object and a native tool-call block
end in the same validation. -/
def parseDecision (py : Interpreter) (text : Str) : Py Decision := do
  let decision ← readDecision py text
  validateDecision py decision

structure PeripheralCall where
  operation : ℤ
  arg0 : ℤ
  arg1 : ℤ
  arg2 : ℤ
  data : List U8
deriving DecidableEq

/-- `bytes.fromhex(arguments[field])`. -/
def hexItem (arguments : List (Str × Json)) (field : String) : Py (List U8) := do
  let value ← strItem arguments field
  match fromHex value with
  | none => throw .valueError
  | some bytes => pure bytes

def peripheralArguments (name : Str) (arguments : List (Str × Json)) : Py PeripheralCall :=
  match toolOfName name with
  | some .gpioConfig => do
    let line ← intItem arguments "line"
    let direction ← strItem arguments "direction"
    let value ← intItem arguments "value"
    pure ⟨1, line, if direction = str "output" then 1 else 0, value, []⟩
  | some .gpioWrite => do
    let line ← intItem arguments "line"
    let value ← intItem arguments "value"
    pure ⟨2, line, value, 0, []⟩
  | some .gpioRead => do
    let line ← intItem arguments "line"
    pure ⟨3, line, 0, 0, []⟩
  | some .uartWrite => do
    let port ← intItem arguments "port"
    let data ← strItem arguments "data"
    match encodeUtf8 data with
    | none => throw .unicodeEncodeError
    | some bytes => pure ⟨4, port, 0, 0, bytes⟩
  | some .uartRead => do
    let port ← intItem arguments "port"
    let length ← intItem arguments "length"
    pure ⟨5, port, length, 0, []⟩
  | some .i2cWrite => do
    let address ← intItem arguments "address"
    let data ← hexItem arguments "data_hex"
    pure ⟨6, address, 0, 0, data⟩
  | some .i2cRead => do
    let address ← intItem arguments "address"
    let length ← intItem arguments "length"
    pure ⟨7, address, length, 0, []⟩
  | some .i2cWriteRead => do
    let address ← intItem arguments "address"
    let length ← intItem arguments "length"
    let data ← hexItem arguments "prefix_hex"
    pure ⟨8, address, length, 0, data⟩
  | some .spiTransfer => do
    let chipSelect ← intItem arguments "chip_select"
    let mode ← intItem arguments "mode"
    let data ← hexItem arguments "data_hex"
    pure ⟨9, chipSelect, mode, 0, data⟩
  | some .pwmSet => do
    let period ← intItem arguments "period_ns"
    let duty ← intItem arguments "duty_ns"
    let polarity ← intItem arguments "polarity"
    pure ⟨10, period, duty, polarity, []⟩
  | some .pwmStop => pure ⟨11, 0, 0, 0, []⟩
  | some .adcRead => do
    let channel ← intItem arguments "channel"
    pure ⟨12, channel, 0, 0, []⟩
  | some .increment | some .imuRead | none =>
    raiseAgent "tool_not_allowed" "tool is not a peripheral RPC"

end Lzamp.Agent
