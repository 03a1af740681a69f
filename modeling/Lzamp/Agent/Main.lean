import Lzamp.Agent.Allowlist
import Lzamp.Lib.Logged

namespace Lzamp.Agent
open Lib Lib.PyText Lib.PyJson

structure PongResult where
  sequence : ℕ
  value : ℕ

def acceptPong (value : ℤ) (frame : Frame) : Py PongResult := do
  let result ← readU32 frame.payload 0
  if (result : ℤ) ≠ value + 1 then
    raiseAgent "unexpected_result" "Zephyr returned the wrong increment result"
  else pure ⟨frame.sequence, result⟩

def pongReply (value : ℤ) : ReplyKind PongResult where
  resultType := 2
  accept := acceptPong value
  timeoutMessage := "timed out waiting for Zephyr ACK/PONG"

def executeIncrement (value : ℤ) (host : Host) : Option (Py CallResult) :=
  (exchange (pongReply value) (packFrame mailmsgPriorityControl 1 value) host).map fun r =>
    r >>= fun (ack, pong) => pure ⟨pong.value, [], ack.sequence, ack.peerSequence, pong.sequence⟩

/-- `_signed16`: two bytes, the high one first. -/
def signed16 (data : List U8) (offset : ℕ) : ℤ :=
  (data.getD offset 0 ++ data.getD (offset + 1) 0).toInt

structure Axes where
  x : ℤ
  y : ℤ
  z : ℤ

structure ImuResult where
  accelerometer : Axes
  temperature : ℤ
  gyroscope : Axes
  accelTemperature : List U8
  gyroscopeBytes : List U8
  calls : List CallResult

def imuArguments (registers : String) (length : ℤ) : List (Str × Json) :=
  [(str "address", .int 0x68), (str "prefix_hex", .str (str registers)),
    (str "length", .int length)]

/-- What follows the two reads; the hexadecimal text in between is left out. -/
def finishImu (accelTemp gyro : CallResult) : Py ImuResult :=
  if accelTemp.data.length ≠ 8 ∨ gyro.data.length ≠ 6 then
    raiseAgent "invalid_imu_data" "IMU returned an unexpected data length"
  else pure
    { accelerometer := ⟨signed16 accelTemp.data 0, signed16 accelTemp.data 2,
        signed16 accelTemp.data 4⟩
      temperature := signed16 accelTemp.data 6
      gyroscope := ⟨signed16 gyro.data 0, signed16 gyro.data 2, signed16 gyro.data 4⟩
      accelTemperature := accelTemp.data
      gyroscopeBytes := gyro.data
      calls := [accelTemp, gyro] }

inductive ServerReply where
  /-- OSError, URLError or JSONDecodeError. -/
  | failed (message : String)
  /-- Another exception, such as a ValueError for the URL. -/
  | raised
  | json (reply : Json)

inductive MainExn where
  | py (e : Exn)
  /-- `strip` of a value that is not a string. -/
  | attributeError
  | serverRaised
  /-- `print` raised: text that the stream cannot encode, or a closed pipe. -/
  | printRaised

inductive ToolResult where
  | call (r : CallResult)
  | imu (r : ImuResult)

/-- What is printed; the JSON text of a dictionary is left out. -/
inductive Output where
  | chat (response : Str)
  | validated (d : Decision)
  | executed (d : Decision) (r : ToolResult)
  | modelOutput (raw : Str)
  | error (e : AgentError)

/-- What `main` attempts, whether it succeeds or not. -/
inductive Effect where
  | post
  /-- `os.open` of `/dev/mailmsg-p1`. -/
  | openDevice
  | write (record : List U8)
  | stdout (o : Output)
  | stderr (o : Output)

/-- The sources exclude each other. -/
inductive Source where
  | decision (text : Str)
  | prompt (prompt : Str)
  | chatSmoke (prompt : Str)

structure Options where
  source : Source
  validateOnly : Bool
  printModelOutput : Bool

/-- What `main` finds around it: the answer of the model server, and those of the operating system
to each device call. -/
structure Environment where
  server : ServerReply
  /-- The answers to the first and the second call on the device. -/
  hosts : ℕ → Host
  /-- Whether `print` succeeds. -/
  prints : Output → Bool

abbrev Script := Logged MainExn Effect

def Script.lift {α : Type} : Py α → Script α
  | .ok a => pure a
  | .error e => Logged.raise (.py e)

def printTo (stream : Output → Effect) (env : Environment) (o : Output) : Script Unit where
  events := [stream o]
  outcome := some (if env.prints o then .ok () else .error .printRaised)

def item (key : String) : Json → Option Json
  | .obj fields => lookup fields key
  | _ => none

def firstItem : Json → Option Json
  | .arr (value :: _) => some value
  | .str (c :: _) => some (.str [c])
  | _ => none

/-- `reply["choices"][0]["message"]["content"]`. -/
def assistantContent (reply : Json) : Option Json :=
  (((item "choices" reply).bind firstItem).bind (item "message")).bind (item "content")

def requestModelContent (server : ServerReply) : Script Json where
  events := [.post]
  outcome :=
    match server with
    | .failed message => some (.error (.py (.agent ⟨"model_api_failed", message⟩)))
    | .raised => some (.error .serverRaised)
    | .json reply =>
      match assistantContent reply with
      | some content => some (.ok content)
      | none => some (.error (.py (.agent
          ⟨"invalid_model_response", "model API response has no assistant content"⟩)))

/-- One call on the device: it opens, packs, writes, and then ends as `outcome` does. -/
def deviceCall {α : Type} (request : Py (List U8)) (host : Host) (outcome : Option (Py α)) :
    Script α where
  events := .openDevice ::
    match host.openError, request with
    | none, .ok record => [.write record]
    | _, _ => []
  outcome := outcome.map fun r => r.mapError MainExn.py

def executeZephyrIncrement (value : ℤ) (host : Host) : Script CallResult :=
  deviceCall (packFrame mailmsgPriorityControl 1 value) host (executeIncrement value host)

/-- A line that is not in the list is refused before the device is opened. -/
def executeZephyrGpioRead (line : ℤ) (host : Host) : Script CallResult :=
  if line ∉ gpioReadLines then
    Script.lift (raiseAgent "invalid_arguments" "line must be one of 25, 28, or 29")
  else
    deviceCall (packFrame mailmsgPriorityControl 9 line) host (executeGpioRead line host)

def executeZephyrPeripheral (name : Str) (arguments : List (Str × Json)) (host : Host) :
    Script CallResult := do
  let call ← Script.lift (peripheralArguments name arguments)
  deviceCall (packPeripheralFrame call.operation call.arg0 call.arg1 call.arg2 call.data) host
    (executePeripheral call.operation call.arg0 call.arg1 call.arg2 call.data host)

def executeZephyrImuRead (hosts : ℕ → Host) : Script ImuResult := do
  let accelTemp ←
    executeZephyrPeripheral (str Tool.i2cWriteRead.name) (imuArguments "3b" 8) (hosts 0)
  let gyro ← executeZephyrPeripheral (str Tool.i2cWriteRead.name) (imuArguments "43" 6) (hosts 1)
  Script.lift (finishImu accelTemp gyro)

def executeDecision (d : Decision) (hosts : ℕ → Host) : Script ToolResult :=
  if d.name = str Tool.increment.name then do
    let value ← Script.lift (intItem d.arguments "value")
    let r ← executeZephyrIncrement value (hosts 0)
    pure (.call r)
  else if d.name = str Tool.gpioRead.name then do
    let line ← Script.lift (intItem d.arguments "line")
    let r ← executeZephyrGpioRead line (hosts 0)
    pure (.call r)
  else if d.name = str Tool.imuRead.name then do
    let r ← executeZephyrImuRead hosts
    pure (.imu r)
  else do
    let r ← executeZephyrPeripheral d.name d.arguments (hosts 0)
    pure (.call r)

def chatSmoke (env : Environment) : Script ℕ := do
  let raw ← requestModelContent env.server
  match raw with
  | .str s =>
    if strip s = [] then Script.lift (raiseAgent "empty_model_response" "model returned no text")
    else do
      printTo .stdout env (.chat s)
      pure 0
  | _ => Script.lift (raiseAgent "empty_model_response" "model returned no text")

def modelDecision (options : Options) (env : Environment) : Script Json := do
  let raw ← requestModelContent env.server
  if options.printModelOutput then
    match raw with
    | .str s => do
      printTo .stderr env (.modelOutput s)
      pure raw
    | _ => Script.lift (throw .typeError)
  else pure raw

/-- Validate a text and, unless told not to, execute it. -/
def runDecision (py : Interpreter) (options : Options) (env : Environment) (text : Str) :
    Script ℕ := do
  let d ← Script.lift (parseDecision py text)
  if options.validateOnly then do
    printTo .stdout env (.validated d)
    pure 0
  else do
    let r ← executeDecision d env.hosts
    printTo .stdout env (.executed d r)
    pure 0

/-- The body of the `try`. -/
def mainBody (py : Interpreter) (options : Options) (env : Environment) : Script ℕ :=
  match options.source with
  | .chatSmoke _ => chatSmoke env
  | .decision text => runDecision py options env text
  | .prompt _ => do
    let raw ← modelDecision options env
    match raw with
    | .str text => runDecision py options env text
    | _ => Logged.raise .attributeError

def reportError (env : Environment) : MainExn → Script ℕ
  | .py (.agent error) => do
    printTo .stderr env (.error error)
    pure 1
  | e => Logged.raise e

def main (py : Interpreter) (options : Options) (env : Environment) : Script ℕ :=
  (mainBody py options env).handle (reportError env)

/-- The records that a decision stands for. -/
def Decision.records (d : Decision) : Py (List (List U8)) :=
  if d.name = str Tool.increment.name then do
    let record ← intItem d.arguments "value" >>= packFrame mailmsgPriorityControl 1
    pure [record]
  else if d.name = str Tool.gpioRead.name then do
    let record ← intItem d.arguments "line" >>= packFrame mailmsgPriorityControl 9
    pure [record]
  else if d.name = str Tool.imuRead.name then
    pure [requestRecord 8 0x68 8 0 [0x3b], requestRecord 8 0x68 6 0 [0x43]]
  else do
    let call ← peripheralArguments d.name d.arguments
    let record ← packPeripheralFrame call.operation call.arg0 call.arg1 call.arg2 call.data
    pure [record]

/-- A record of the priority-1 device: a PING, a GPIO read or a peripheral request. -/
structure WellFormed (record : List U8) : Prop where
  length : record.length = 48
  priority : unpackU32 record 0 = 1
  type : unpackU32 record 4 = 1 ∨ unpackU32 record 4 = 9 ∨ unpackU32 record 4 = 11

def Effect.written : Effect → Option (List U8)
  | .write record => some record
  | _ => none

def Effect.printed : Effect → Option Output
  | .stdout o => some o
  | _ => none

def Effect.onDevice : Effect → Bool
  | .openDevice | .write _ => true
  | _ => false

def Effect.isReport : Effect → Bool
  | .stderr (.error _) => true
  | _ => false

theorem packFrame_eq {type value : ℕ} (htype : type < 2 ^ 32) (hvalue : value < 2 ^ 32) :
    packFrame mailmsgPriorityControl type value = .ok (leBytes 4 1 ++ leBytes 4 type ++
      leBytes 4 0 ++ leBytes 4 4 ++ (leBytes 4 value ++ List.replicate 28 0)) := by
  have hpayload : (leBytes 4 value ++ List.replicate 28 (0 : U8)).length = 32 := by
    rw [List.length_append, length_leBytes, List.length_replicate]
  have h1 : packU32 1 = pure (leBytes 4 1) := packU32_ofNat (by decide)
  have h0 : packU32 0 = pure (leBytes 4 0) := packU32_ofNat (by decide)
  have h4 : packU32 4 = pure (leBytes 4 4) := packU32_ofNat (by decide)
  rw [packFrame, packU32_ofNat hvalue, pure_bind, mailmsgFramePack, packBytes_of_length hpayload,
    mailmsgPriorityControl, h1, h0, h4, packU32_ofNat htype]
  rfl

theorem packFrame_wellFormed {type : ℕ} {value : ℤ} (htype : type = 1 ∨ type = 9)
    (hlow : 0 ≤ value) (hhigh : value < 2 ^ 32) :
    ∃ record, packFrame mailmsgPriorityControl type value = .ok record ∧ WellFormed record := by
  obtain ⟨n, rfl⟩ := Int.eq_ofNat_of_zero_le hlow
  refine ⟨_, packFrame_eq (by omega) (by omega), ?_⟩
  rcases htype with rfl | rfl
  · exact ⟨rfl, rfl, .inl rfl⟩
  · exact ⟨rfl, rfl, .inr (.inl rfl)⟩

theorem exists_records {py : Interpreter} {text : Str} {d : Decision}
    (h : parseDecision py text = .ok d) :
    ∃ records, d.records = .ok records ∧ records.length ≤ 2 ∧ ∀ r ∈ records, WellFormed r := by
  obtain ⟨decision, -, hvalidate⟩ := bind_eq_ok.mp h
  obtain ⟨tool, hname, hfits, hrefined⟩ := validateDecision_ok hvalidate
  have hone (record : List U8) (hrecord : WellFormed record) :
      [record].length ≤ 2 ∧ ∀ r ∈ [record], WellFormed r :=
    ⟨Nat.le_succ 1, fun r hr => List.mem_singleton.mp hr ▸ hrecord⟩
  unfold Decision.records
  split_ifs with hinc hgpio himu
  · have htool : tool = .increment := Tool.eq_of_name (hname.symm.trans hinc)
    subst htool
    obtain ⟨n, hn, hlow, hhigh⟩ := hfits.word "value" (.head _) le_rfl (by decide)
    obtain ⟨record, hrecord, hform⟩ := packFrame_wellFormed (.inl rfl) hlow hhigh
    refine ⟨[record], ?_, hone record hform⟩
    rw [hn, pure_bind]
    exact bind_eq_ok.mpr ⟨record, hrecord, rfl⟩
  · have htool : tool = .gpioRead := Tool.eq_of_name (hname.symm.trans hgpio)
    subst htool
    obtain ⟨n, hn, hlow, hhigh⟩ := hfits.member "line" (.head _) lines_in_range
    obtain ⟨record, hrecord, hform⟩ := packFrame_wellFormed (.inr rfl) hlow hhigh
    refine ⟨[record], ?_, hone record hform⟩
    rw [hn, pure_bind]
    exact bind_eq_ok.mpr ⟨record, hrecord, rfl⟩
  · refine ⟨_, rfl, le_rfl, ?_⟩
    intro r hr
    rcases List.mem_pair.mp hr with rfl | rfl
    · exact ⟨rfl, rfl, .inr (.inr rfl)⟩
    · exact ⟨rfl, rfl, .inr (.inr rfl)⟩
  · have hrpc : tool ≠ .increment ∧ tool ≠ .imuRead :=
      ⟨fun h => hinc (h ▸ hname), fun h => himu (h ▸ hname)⟩
    obtain ⟨call, hcall, hrange⟩ := peripheralArguments_ok hrpc hfits hrefined
    obtain ⟨record, hrecord, hlength, hpriority, htype, -⟩ := hrange.pack_ok
    refine ⟨[record], ?_, hone record ⟨hlength, hpriority, .inr (.inr htype)⟩⟩
    rw [hname]
    exact bind_eq_ok.mpr ⟨call, hcall, bind_eq_ok.mpr ⟨record, hrecord, rfl⟩⟩

section Calls

open Logged

variable {α β : Type}

theorem lift_of_ok {r : Py α} {a : α} (h : r = .ok a) : Script.lift r = pure a := by
  rw [h]
  rfl

theorem all_lift {P : Effect → Prop} (r : Py α) : All P (Script.lift r) := by
  cases r with
  | ok a => exact all_pure a
  | error e => exact all_raise _

theorem opened_of_exchange {ρ : Type} {kind : ReplyKind ρ} {request : Py (List U8)} {host : Host}
    {r : Ack × ρ} (h : exchange kind request host = some (.ok r)) : host.openError = none := by
  unfold exchange at h
  split at h
  · cases h
  · assumption

theorem opened_of_map {ρ : Type} {kind : ReplyKind ρ} {request : Py (List U8)} {host : Host}
    {finish : Ack × ρ → Py CallResult} {r : CallResult}
    (h : (exchange kind request host).map (fun x => x >>= finish) = some (.ok r)) :
    host.openError = none := by
  obtain ⟨x, hx, hr⟩ := Option.map_eq_some_iff.mp h
  obtain ⟨pair, hpair, -⟩ := bind_eq_ok.mp hr
  rw [hpair] at hx
  exact opened_of_exchange hx

theorem all_deviceCall (request : Py (List U8)) (host : Host) (outcome : Option (Py α)) :
    All (·.onDevice = true) (deviceCall request host outcome) := by
  intro e he
  rcases List.mem_cons.mp he with rfl | he
  · rfl
  · split at he
    · rw [List.mem_singleton.mp he]
      rfl
    · cases he

theorem emits_deviceCall {request : Py (List U8)} {record : List U8} {host : Host}
    {outcome : Option (Py α)} (hrecord : request = .ok record)
    (hopened : ∀ a, outcome = some (.ok a) → host.openError = none) :
    Emits Effect.written (deviceCall request host outcome) [record] := by
  subst hrecord
  constructor
  · unfold deviceCall
    cases host.openError with
    | none => exact List.prefix_rfl
    | some errno => exact List.nil_prefix
  · intro a ha
    obtain ⟨r, hr, hra⟩ := Option.map_eq_some_iff.mp ha
    cases r with
    | error e => cases hra
    | ok b =>
      unfold deviceCall
      rw [hopened b hr]
      rfl

theorem executeZephyrPeripheral_emits {name : Str} {arguments : List (Str × Json)}
    {call : PeripheralCall} {record : List U8} (host : Host)
    (hcall : peripheralArguments name arguments = .ok call)
    (hrecord : packPeripheralFrame call.operation call.arg0 call.arg1 call.arg2 call.data =
      .ok record) :
    Emits Effect.written (executeZephyrPeripheral name arguments host) [record] := by
  unfold executeZephyrPeripheral
  rw [lift_of_ok hcall]
  exact emits_deviceCall hrecord fun _ => opened_of_map

theorem executeZephyrPeripheral_onDevice (name : Str) (arguments : List (Str × Json))
    (host : Host) : All (·.onDevice = true) (executeZephyrPeripheral name arguments host) :=
  .bind (all_lift _) fun _ _ => all_deviceCall _ _ _

theorem executeZephyrImuRead_emits (hosts : ℕ → Host) :
    Emits Effect.written (executeZephyrImuRead hosts)
      [requestRecord 8 0x68 8 0 [0x3b], requestRecord 8 0x68 6 0 [0x43]] := by
  have hfirst : peripheralArguments (str Tool.i2cWriteRead.name) (imuArguments "3b" 8) =
      .ok ⟨8, 0x68, 8, 0, [0x3b]⟩ := by decide +kernel
  have hsecond : peripheralArguments (str Tool.i2cWriteRead.name) (imuArguments "43" 6) =
      .ok ⟨8, 0x68, 6, 0, [0x43]⟩ := by decide +kernel
  refine (executeZephyrPeripheral_emits (hosts 0) hfirst ?_).bind fun accelTemp _ =>
    (executeZephyrPeripheral_emits (hosts 1) hsecond ?_).andThen fun gyro _ => ?_
  · exact packPeripheralFrame_eq (by decide) (by decide) (by decide) (by decide) (by decide)
  · exact packPeripheralFrame_eq (by decide) (by decide) (by decide) (by decide) (by decide)
  · cases finishImu accelTemp gyro with
    | ok r => exact emits_pure r
    | error e => exact emits_raise _ _

theorem executeDecision_onDevice (d : Decision) (hosts : ℕ → Host) :
    All (·.onDevice = true) (executeDecision d hosts) := by
  unfold executeDecision
  split_ifs
  · exact .bind (all_lift _) fun _ _ => .bind (all_deviceCall _ _ _) fun _ _ => all_pure _
  · refine .bind (all_lift _) fun line _ => .bind ?_ fun _ _ => all_pure _
    unfold executeZephyrGpioRead
    by_cases hmem : line ∉ gpioReadLines
    · rw [if_pos hmem]
      exact all_lift _
    · rw [if_neg hmem]
      exact all_deviceCall _ _ _
  · refine .bind ?_ fun _ _ => all_pure _
    exact .bind (executeZephyrPeripheral_onDevice _ _ _) fun _ _ =>
      .bind (executeZephyrPeripheral_onDevice _ _ _) fun _ _ => all_lift _
  · exact .bind (executeZephyrPeripheral_onDevice _ _ _) fun _ _ => all_pure _

theorem executeDecision_emits {d : Decision} {records : List (List U8)}
    (h : d.records = .ok records) (hosts : ℕ → Host) :
    Emits Effect.written (executeDecision d hosts) records := by
  unfold Decision.records at h
  unfold executeDecision
  split_ifs at h ⊢ with hinc hgpio himu
  · obtain ⟨record, hrecord, h⟩ := bind_eq_ok.mp h
    obtain ⟨value, hvalue, hrecord⟩ := bind_eq_ok.mp hrecord
    cases h
    rw [lift_of_ok hvalue]
    exact (emits_deviceCall hrecord fun _ => opened_of_map).andThen fun _ _ => emits_pure _
  · obtain ⟨record, hrecord, h⟩ := bind_eq_ok.mp h
    obtain ⟨line, hline, hrecord⟩ := bind_eq_ok.mp hrecord
    cases h
    rw [lift_of_ok hline]
    refine Emits.andThen (p := executeZephyrGpioRead line (hosts 0)) ?_ fun _ _ => emits_pure _
    unfold executeZephyrGpioRead
    by_cases hmem : line ∉ gpioReadLines
    · rw [if_pos hmem]
      exact emits_raise _ _
    · rw [if_neg hmem]
      refine emits_deviceCall hrecord fun _ hr => ?_
      rw [executeGpioRead, if_neg hmem] at hr
      exact opened_of_map hr
  · cases h
    exact (executeZephyrImuRead_emits hosts).andThen fun _ _ => emits_pure _
  · obtain ⟨call, hcall, h⟩ := bind_eq_ok.mp h
    obtain ⟨record, hrecord, h⟩ := bind_eq_ok.mp h
    cases h
    exact (executeZephyrPeripheral_emits (hosts 0) hcall hrecord).andThen fun _ _ => emits_pure _

end Calls

/-- Whether the command line asks for a tool to be executed. -/
def Options.executes (options : Options) : Bool :=
  match options.source with
  | .chatSmoke _ => false
  | _ => !options.validateOnly

/-- The text that is validated: the one of the command line or the one of the model. -/
def Options.text (options : Options) (env : Environment) : Option Str :=
  match options.source, env.server with
  | .decision text, _ => some text
  | .prompt _, .json reply =>
    match assistantContent reply with
    | some (.str text) => some text
    | _ => none
  | _, _ => none

/-- A decision that the agent may act on, with the records it stands for. -/
structure Authorised (py : Interpreter) (options : Options) (env : Environment) (d : Decision)
    (records : List (List U8)) : Prop where
  asked : options.executes = true
  accepted : ∃ text, options.text env = some text ∧ parseDecision py text = .ok d
  stands : d.records = .ok records
  short : records.length ≤ 2
  wellFormed : ∀ r ∈ records, WellFormed r

/-- What holds of the body of the `try`, and of each part of it that ends it. -/
structure Body (py : Interpreter) (options : Options) (env : Environment) (p : Script ℕ) :
    Prop where
  device : (∃ e ∈ p.events, e.onDevice = true) → ∃ d records,
    Authorised py options env d records ∧ p.events.filterMap Effect.written <+: records
  code : ∀ c, p.outcome = some (.ok c) → c = 0
  performed : p.outcome = some (.ok 0) → options.executes = true → ∃ d records r,
    Authorised py options env d records ∧ p.events.filterMap Effect.written = records ∧
      p.events.filterMap Effect.printed = [.executed d r]
  raised : ∀ e, p.outcome = some (.error (.py e)) → p.events.filterMap Effect.printed = []
  unreported : ∀ e ∈ p.events, e.isReport = false

section Main

open Logged

variable {py : Interpreter} {options : Options} {env : Environment}

/-- An effect that neither reaches the device nor shows in a result. -/
structure Quiet (e : Effect) : Prop where
  onDevice : e.onDevice = false
  written : e.written = none
  printed : e.printed = none
  isReport : e.isReport = false

theorem filterMap_eq_nil_of_all {B : Type} {view : Effect → Option B} {es : List Effect}
    (h : ∀ e ∈ es, view e = none) : es.filterMap view = [] :=
  List.filterMap_eq_nil_iff.mpr h

theorem Body.of_quiet {p : Script ℕ} (hquiet : All Quiet p)
    (hno : ∀ c, p.outcome ≠ some (.ok c)) : Body py options env p where
  device := by
    rintro ⟨e, he, hon⟩
    rw [(hquiet e he).onDevice] at hon
    cases hon
  code c hc := absurd hc (hno c)
  performed h := absurd h (hno 0)
  raised _ _ := filterMap_eq_nil_of_all fun e he => (hquiet e he).printed
  unreported e he := (hquiet e he).isReport

theorem Body.quiet_bind {α : Type} {p : Script α} {f : α → Script ℕ} (hquiet : All Quiet p)
    (hf : ∀ a, p.outcome = some (.ok a) → Body py options env (f a)) :
    Body py options env (p >>= f) := by
  rcases bind_cases p f with ⟨a, ha, hbind⟩ | ⟨hevents, hno⟩
  · have hrest := hf a ha
    have hview {B : Type} {view : Effect → Option B} (h : ∀ e, Quiet e → view e = none) :
        (p.events ++ (f a).events).filterMap view = (f a).events.filterMap view := by
      rw [List.filterMap_append, filterMap_eq_nil_of_all fun e he => h e (hquiet e he),
        List.nil_append]
    rw [hbind]
    constructor
    · rintro ⟨e, he, hon⟩
      rcases List.mem_append.mp he with he | he
      · rw [(hquiet e he).onDevice] at hon
        cases hon
      · dsimp only
        rw [hview fun e h => h.written]
        exact hrest.device ⟨e, he, hon⟩
    · exact hrest.code
    · dsimp only
      rw [hview fun e h => h.written, hview fun e h => h.printed]
      exact hrest.performed
    · dsimp only
      rw [hview fun e h => h.printed]
      exact hrest.raised
    · intro e he
      rcases List.mem_append.mp he with he | he
      · exact (hquiet e he).isReport
      · exact hrest.unreported e he
  · refine .of_quiet (fun e he => hquiet e ?_) hno
    rwa [hevents] at he

theorem quiet_post (server : ServerReply) : All Quiet (requestModelContent server) := by
  intro e he
  rw [List.mem_singleton.mp he]
  exact ⟨rfl, rfl, rfl, rfl⟩

theorem quiet_modelDecision (options : Options) (env : Environment) :
    All Quiet (modelDecision options env) := by
  refine .bind (quiet_post _) fun raw _ => ?_
  split_ifs
  · split
    · refine .bind (fun e he => ?_) fun _ _ => all_pure _
      rw [List.mem_singleton.mp he]
      exact ⟨rfl, rfl, rfl, rfl⟩
    · exact all_lift _
  · exact all_pure _

theorem finish_eq (stream : Output → Effect) (env : Environment) (o : Output) (code : ℕ) :
    (printTo stream env o >>= fun _ => pure code : Script ℕ) =
      ⟨[stream o], some (if env.prints o then .ok code else .error .printRaised)⟩ := by
  unfold printTo
  cases env.prints o with
  | true => rfl
  | false => rfl

theorem body_finish (o : Output) (hno : options.executes = false) :
    Body py options env (printTo .stdout env o >>= fun _ => pure 0) := by
  rw [finish_eq]
  constructor
  · rintro ⟨e, he, hon⟩
    rw [List.mem_singleton.mp he] at hon
    cases hon
  · intro c hc
    dsimp only at hc
    split_ifs at hc
    · cases hc
      rfl
    · cases hc
  · intro _ hasked
    rw [hno] at hasked
    cases hasked
  · intro e he
    dsimp only at he
    split_ifs at he
    · cases he
    · cases he
  · intro e he
    rw [List.mem_singleton.mp he]
    rfl

theorem body_execute {d : Decision} {records : List (List U8)}
    (h : Authorised py options env d records) :
    Body py options env (executeDecision d env.hosts >>= fun r =>
      printTo .stdout env (.executed d r) >>= fun _ => pure 0) := by
  have hemits := executeDecision_emits h.stands env.hosts
  have hon := executeDecision_onDevice d env.hosts
  have hprinted : (executeDecision d env.hosts).events.filterMap Effect.printed = [] := by
    refine filterMap_eq_nil_of_all fun e he => ?_
    cases e with
    | stdout o => cases hon _ he
    | _ => rfl
  have hreport : ∀ e ∈ (executeDecision d env.hosts).events, e.isReport = false := by
    intro e he
    cases e with
    | stderr o => cases hon _ he
    | _ => rfl
  simp only [finish_eq]
  -- the call returned and its result is printed, or the call stopped it and nothing is
  rcases bind_cases (executeDecision d env.hosts) (fun r => (⟨[.stdout (.executed d r)],
    some (if env.prints (.executed d r) then .ok 0 else .error .printRaised)⟩ : Script ℕ)) with
    ⟨r, hr, hbind⟩ | ⟨hevents, hno⟩
  · rw [hbind]
    have hwritten : ((executeDecision d env.hosts).events ++
        [Effect.stdout (.executed d r)]).filterMap Effect.written = records := by
      rw [List.filterMap_append, hemits.returned r hr]
      exact List.append_nil records
    constructor
    · exact fun _ => ⟨d, records, h, hwritten ▸ List.prefix_rfl⟩
    · intro c hc
      dsimp only at hc
      split_ifs at hc
      · cases hc
        rfl
      · cases hc
    · refine fun _ _ => ⟨d, records, r, h, hwritten, ?_⟩
      dsimp only
      rw [List.filterMap_append, hprinted]
      rfl
    · intro e he
      dsimp only at he
      split_ifs at he
      · cases he
      · cases he
    · intro e he
      rcases List.mem_append.mp he with he | he
      · exact hreport e he
      · rw [List.mem_singleton.mp he]
        rfl
  · constructor
    · exact fun _ => ⟨d, records, h, hevents ▸ hemits.initial⟩
    · exact fun c hc => absurd hc (hno c)
    · exact fun h0 _ => absurd h0 (hno 0)
    · exact fun _ _ => hevents ▸ hprinted
    · exact hevents ▸ hreport

theorem body_raise (e : MainExn) : Body py options env (Logged.raise e) :=
  .of_quiet (all_raise e) fun _ h => by cases h

theorem body_runDecision {text : Str} (hchat : ∀ prompt, options.source ≠ .chatSmoke prompt)
    (htext : options.text env = some text) :
    Body py options env (runDecision py options env text) := by
  have hexecutes : options.executes = !options.validateOnly := by
    unfold Options.executes
    split
    · rename_i prompt hsource
      exact absurd hsource (hchat prompt)
    · rfl
  unfold runDecision
  cases hparse : parseDecision py text with
  | error e => exact body_raise _
  | ok d =>
    refine .quiet_bind (all_pure d) fun d' hd' => ?_
    cases hd'
    cases hvalidate : options.validateOnly with
    | true =>
      rw [if_pos rfl]
      exact body_finish _ (by rw [hexecutes, hvalidate]; rfl)
    | false =>
      rw [if_neg Bool.false_ne_true]
      obtain ⟨records, hrecords, hshort, hform⟩ := exists_records hparse
      exact body_execute ⟨by rw [hexecutes, hvalidate]; rfl, ⟨text, htext, hparse⟩, hrecords,
        hshort, hform⟩

theorem body_chatSmoke (hno : options.executes = false) :
    Body py options env (chatSmoke env) := by
  refine .quiet_bind (quiet_post _) fun raw _ => ?_
  split
  · split_ifs
    · exact body_raise _
    · exact body_finish _ hno
  · exact body_raise _

theorem modelDecision_ok {raw : Json} (h : (modelDecision options env).outcome = some (.ok raw)) :
    ∃ reply, env.server = .json reply ∧ assistantContent reply = some raw := by
  obtain ⟨content, hcontent, hrest, -⟩ := Logged.bind_eq_ok h
  have hraw : content = raw := by
    split_ifs at hrest
    · split at hrest
      · obtain ⟨-, -, hpure, -⟩ := Logged.bind_eq_ok hrest
        cases hpure
        rfl
      · cases hrest
    · cases hrest
      rfl
  subst hraw
  unfold requestModelContent at hcontent
  dsimp only at hcontent
  split at hcontent
  · cases hcontent
  · cases hcontent
  · rename_i reply hreply
    refine ⟨reply, hreply, ?_⟩
    split at hcontent
    · rename_i hsome
      cases hcontent
      exact hsome
    · cases hcontent

theorem body_main : Body py options env (mainBody py options env) := by
  unfold mainBody
  split
  · rename_i hsource
    exact body_chatSmoke (by rw [Options.executes, hsource])
  · rename_i text hsource
    refine body_runDecision (fun prompt h => ?_) ?_
    · rw [hsource] at h
      cases h
    · rw [Options.text, hsource]
  · rename_i prompt hsource
    refine .quiet_bind (quiet_modelDecision options env) fun raw hraw => ?_
    obtain ⟨reply, hserver, hcontent⟩ := modelDecision_ok hraw
    split
    · refine body_runDecision (fun prompt' h => ?_) ?_
      · rw [hsource] at h
        cases h
      · rw [Options.text, hsource, hserver]
        dsimp only
        rw [hcontent]
    · exact body_raise _

theorem reportError_cases (env : Environment) (e : MainExn) :
    (∃ error, e = .py (.agent error) ∧ reportError env e =
      ⟨[.stderr (.error error)],
        some (if env.prints (.error error) then .ok 1 else .error .printRaised)⟩) ∨
    reportError env e = Logged.raise e := by
  cases e with
  | py e =>
    cases e with
    | agent error => exact .inl ⟨error, rfl, finish_eq .stderr env (.error error) 1⟩
    | _ => exact .inr rfl
  | _ => exact .inr rfl

/-- The handler adds a report to the log of the body, or nothing. -/
theorem handled_cases (py : Interpreter) (options : Options) (env : Environment) :
    ((main py options env).events = (mainBody py options env).events ∧
      ∀ c, (main py options env).outcome = some (.ok c) →
        (mainBody py options env).outcome = some (.ok c)) ∨
    ∃ error, (mainBody py options env).outcome = some (.error (.py (.agent error))) ∧
      (main py options env).events =
        (mainBody py options env).events ++ [.stderr (.error error)] ∧
      ∀ c, (main py options env).outcome = some (.ok c) → c = 1 := by
  unfold main
  generalize mainBody py options env = p
  obtain ⟨es, outcome⟩ := p
  cases outcome with
  | none => exact .inl ⟨rfl, fun c h => h⟩
  | some result =>
    cases result with
    | ok c => exact .inl ⟨rfl, fun c h => h⟩
    | error e =>
      rcases reportError_cases env e with ⟨error, rfl, hreport⟩ | hraise
      · refine .inr ⟨error, rfl, ?_⟩
        unfold Logged.handle
        dsimp only
        rw [hreport]
        refine ⟨rfl, fun c h => ?_⟩
        dsimp only at h
        split_ifs at h
        · cases h
          rfl
        · cases h
      · refine .inl ?_
        unfold Logged.handle
        dsimp only
        rw [hraise]
        exact ⟨List.append_nil es, fun c h => by cases h⟩

end Main

end Lzamp.Agent
