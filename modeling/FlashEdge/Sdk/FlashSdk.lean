import FlashEdge.Js
import FlashEdge.Theory.Json

/-!
# The SDK and the output of the CLI (`sdk/flash-sdk.ts`, `sdk/errors.ts`, `cli/json-response.ts`)

Every method of the SDK runs the CLI with one command and reads the JSON response
that the CLI prints last. `jsonStringify` is what the CLI prints, `parseResponse` how
the SDK finds it again in everything that was printed, `execCli` what the end of the
process is taken for, and `isTransient` for which errors `execute` tries again.

Texts are lists of code units, since `parseResponse` walks over them one by one. A
member of a response is data of any kind; a number in it may fail to be finite, and
is then printed as `null`. What JSON drops altogether (functions, `undefined`) is
left out, as `sanitizeData` drops it before.
-/

namespace FlashEdge

/-- The data of a response. -/
inductive JsonData where
  | null
  | bool (b : Bool)
  | number (n : Decimal)
  | notFinite
  | string (s : List CodeUnit)
  | array (items : List JsonData)
  | object (fields : List (List CodeUnit × JsonData))

namespace JsonData

mutual

/-- What `JSON.stringify` prints of data. -/
def toJson : JsonData → Json
  | .null => .null
  | .bool b => .bool b
  | .number n => .number n
  | .notFinite => .null
  | .string s => .string s
  | .array items => .array (itemsToJson items)
  | .object fields => .object (fieldsToJson fields)

def itemsToJson : List JsonData → List Json
  | [] => []
  | item :: items => toJson item :: itemsToJson items

def fieldsToJson : List (List CodeUnit × JsonData) → List (List CodeUnit × Json)
  | [] => []
  | (key, value) :: fields => (key, toJson value) :: fieldsToJson fields

end

mutual

/-- Data that was parsed. -/
def ofJson : Json → JsonData
  | .null => .null
  | .bool b => .bool b
  | .number n => .number n
  | .string s => .string s
  | .array items => .array (itemsOfJson items)
  | .object fields => .object (fieldsOfJson fields)

def itemsOfJson : List Json → List JsonData
  | [] => []
  | item :: items => ofJson item :: itemsOfJson items

def fieldsOfJson : List (List CodeUnit × Json) → List (List CodeUnit × JsonData)
  | [] => []
  | (key, value) :: fields => (key, ofJson value) :: fieldsOfJson fields

end

mutual

/-- Every number in it is finite. -/
def isFinite : JsonData → Bool
  | .notFinite => false
  | .array items => itemsFinite items
  | .object fields => fieldsFinite fields
  | _ => true

def itemsFinite : List JsonData → Bool
  | [] => true
  | item :: items => isFinite item && itemsFinite items

def fieldsFinite : List (List CodeUnit × JsonData) → Bool
  | [] => true
  | (_, value) :: fields => isFinite value && fieldsFinite fields

end

/-- A member of an object; other data has none. -/
def get? (v : JsonData) (key : List CodeUnit) : Option JsonData :=
  match v with
  | .object fields => (fields.reverse.find? fun field => field.1 = key).map Prod.snd
  | _ => none

/-- `Boolean(data)`. -/
def truthy : JsonData → Bool
  | .null => false
  | .bool b => b
  | .number n => n.digits ≠ 0
  -- an infinity is truthy and `NaN` is not, but neither is ever parsed
  | .notFinite => true
  | .string s => s ≠ []
  | _ => true

end JsonData

/-! ## Responses -/

structure JsonError where
  code : List CodeUnit
  message : List CodeUnit
  details : List (List CodeUnit × JsonData)

structure JsonResponse where
  success : Bool
  command : List CodeUnit
  timestamp : List CodeUnit
  version : List CodeUnit
  data : List (List CodeUnit × JsonData)
  error : Option JsonError

def JSON_SCHEMA_VERSION : String := "v1"

/-- The members of an error. -/
def JsonError.toData (e : JsonError) : JsonData :=
  .object [(units "code", .string e.code), (units "message", .string e.message),
    (units "details", .object e.details)]

/-- The error of a response, or `null`. -/
def JsonResponse.errorData (r : JsonResponse) : JsonData :=
  match r.error with
  | some e => e.toData
  | none => .null

/-- The members of a response. -/
def JsonResponse.toData (r : JsonResponse) : JsonData :=
  .object [(units "success", .bool r.success), (units "command", .string r.command),
    (units "timestamp", .string r.timestamp), (units "version", .string r.version),
    (units "data", .object r.data), (units "error", r.errorData)]

/-- A successful response; `now` is the time in ISO 8601. -/
def jsonSuccess (now command : List CodeUnit) (data : List (List CodeUnit × JsonData)) :
    JsonResponse :=
  { success := true, command, timestamp := now, version := units JSON_SCHEMA_VERSION, data,
    error := none }

/-- A failed response. -/
def jsonError (now command code message : List CodeUnit)
    (details : List (List CodeUnit × JsonData)) : JsonResponse :=
  { success := false, command, timestamp := now, version := units JSON_SCHEMA_VERSION, data := [],
    error := some { code, message, details } }

/-- `JSON.stringify(response, null, 2)`. -/
def jsonStringify (r : JsonResponse) : List CodeUnit := Json.print 0 r.toData.toJson

/-- What the SDK returns. -/
structure FlashResponse where
  success : Bool
  command : List CodeUnit
  timestamp : List CodeUnit
  version : List CodeUnit
  data : JsonData
  error : JsonData

/-! ## Errors -/

/-- An error of the SDK; what comes from a response may be of any type, or missing. -/
structure FlashError where
  code : Option JsonData
  message : Option JsonData
  details : Option JsonData
  command : List CodeUnit

namespace FlashError

/-- `fromErrorInfo`: the members of the error in a response. -/
def fromErrorInfo (info : JsonData) (command : List CodeUnit) : FlashError :=
  { code := info.get? (units "code")
    message := info.get? (units "message")
    details := info.get? (units "details")
    command }

/-- `new FlashError(code, message, details, command)` with an error of the SDK's own. -/
def own (code : String) (message : List CodeUnit) (details : List (List CodeUnit × JsonData))
    (command : List CodeUnit) : FlashError :=
  { code := some (.string (units code))
    message := some (.string message)
    details := some (.object details)
    command }

end FlashError

/-- `${n}`. -/
def numberText (n : Decimal) : List CodeUnit := n.print.map unit

def flashTimeoutError (command : List CodeUnit) (timeoutMs : Decimal) : FlashError :=
  .own "COMMAND_TIMEOUT"
    (units "Command timed out after " ++ numberText timeoutMs ++ units "ms: " ++ command)
    [(units "timeoutMs", .number timeoutMs)] command

def flashParseError (command rawOutput : List CodeUnit) : FlashError :=
  .own "PARSE_ERROR" (units "Failed to parse CLI output as JSON for command: " ++ command)
    [(units "rawOutputLength", .number (.ofScaled false rawOutput.length 0)),
      (units "rawOutputPreview", .string (rawOutput.take 200))] command

def flashProcessError (command : List CodeUnit) (exitCode : Option Decimal)
    (stderr : List CodeUnit) : FlashError :=
  let code := exitCode.elim (units "null") numberText
  let text := if stderr.take 200 = [] then units "unknown error" else stderr.take 200
  .own "PROCESS_ERROR" (units "CLI process failed (exit " ++ code ++ units "): " ++ text)
    [(units "exitCode", exitCode.elim .null .number), (units "stderr", .string (stderr.take 1000))]
    command

/-! ## Finding the response -/

/-- The walk backwards: how many units there are to where the braces balance. -/
def matchingBrace : ℤ → List CodeUnit → Option ℕ
  | _, [] => none
  | depth, c :: before =>
    let depth := if c = unit '}' then depth + 1 else if c = unit '{' then depth - 1 else depth
    if depth = 0 then some 1 else (matchingBrace depth before).map (· + 1)

/-- The last complete object in the output, if the braces balance anywhere; else the
whole output. -/
def lastObject (raw : List CodeUnit) : List CodeUnit :=
  -- the output up to its last closing brace, backwards
  let upToBrace := raw.reverse.dropWhile fun c => c ≠ unit '}'
  match matchingBrace 0 upToBrace with
  | none => raw
  | some n => (upToBrace.take n).reverse

/-- A member that is a string, or something else. -/
def stringMember (parsed : Json) (key : String) (otherwise : List CodeUnit) : List CodeUnit :=
  match parsed.get? (units key) with
  | some (.string s) => s
  | _ => otherwise

/-- A member, where neither a missing one nor `null` counts (`??`). -/
def memberOr (parsed : Json) (key : String) (otherwise : JsonData) : JsonData :=
  match parsed.get? (units key) with
  | none => otherwise
  | some .null => otherwise
  | some v => .ofJson v

/-- The response in an object that was parsed. -/
def responseOf (command now : List CodeUnit) (parsed : Json) : FlashResponse :=
  { success := match parsed.get? (units "success") with
      | some (.bool b) => b
      | _ => false
    command := stringMember parsed "command" command
    timestamp := stringMember parsed "timestamp" now
    version := stringMember parsed "version" (units "v1")
    data := memberOr parsed "data" (.object [])
    error := memberOr parsed "error" .null }

/-- Parse the output of the CLI; `now` stands in for a missing timestamp. -/
def parseResponse (raw command now : List CodeUnit) : Except FlashError FlashResponse :=
  if raw = [] then .error (flashParseError command raw)
  else
    match Json.parse (lastObject raw) with
    | some (.object fields) => .ok (responseOf command now (.object fields))
    | some (.array items) => .ok (responseOf command now (.array items))
    -- no JSON, or nothing of type object
    | _ => .error (flashParseError command raw)

/-! ## Running the CLI -/

/-- White space as `trim` takes it. -/
def isTrimmed (c : CodeUnit) : Bool :=
  decide (c.toNat ∈ [0x20, 0xA0, 0x1680, 0x2028, 0x2029, 0x202F, 0x205F, 0x3000, 0xFEFF] ∨
    (0x09 ≤ c.toNat ∧ c.toNat ≤ 0x0D) ∨ (0x2000 ≤ c.toNat ∧ c.toNat ≤ 0x200A))

/-- `s.trim()`. -/
def trim (s : List CodeUnit) : List CodeUnit :=
  ((s.dropWhile isTrimmed).reverse.dropWhile isTrimmed).reverse

/-- The error `execFile` reports; its code is a number, or a string such as a signal's
name. -/
structure ExecFileError where
  killed : Bool
  code : Option JsonData
  message : List CodeUnit

/-- How a run of the CLI ends. -/
structure CliResult where
  error : Option ExecFileError := none
  stdout : List CodeUnit := []
  stderr : List CodeUnit := []

/-- The exit code, if the error has one. -/
def ExecFileError.exitCode (e : ExecFileError) : Option Decimal :=
  match e.code with
  | some (.number n) => some n
  | some (.string s) =>
    if s ≠ [] ∧ s.all Json.isDigitUnit then
      some (.ofScaled false (Nat.ofDigitChars 10 (s.map fun c => Char.ofNat c.toNat) 0) 0)
    else none
  | _ => none

/-- What the SDK takes for the output of a run. -/
def execCli (timeout : Decimal) (command : List CodeUnit) (result : CliResult) :
    Except FlashError (List CodeUnit) :=
  match result.error with
  | some e =>
    if e.killed then .error (flashTimeoutError command timeout)
    -- a failed command prints its response and exits with an error
    else if trim result.stdout ≠ [] ∧ (Json.parse (trim result.stdout)).isSome then
      .ok (trim result.stdout)
    else
      .error (flashProcessError command e.exitCode
        (if result.stderr = [] then e.message else result.stderr))
  | none => .ok (trim result.stdout)

/-- One attempt of `execute`. -/
def attemptResult (timeout : Decimal) (command now : List CodeUnit) (result : CliResult) :
    Except FlashError FlashResponse :=
  match execCli timeout command result with
  | .error e => .error e
  | .ok raw =>
    match parseResponse raw command now with
    | .error e => .error e
    | .ok response =>
      if !response.success && response.error.truthy then
        .error (.fromErrorInfo response.error command)
      else .ok response

def TRANSIENT_ERROR_CODES : List String := ["COMMAND_TIMEOUT", "NETWORK_ERROR", "RPC_UNAVAILABLE"]

/-- Whether `execute` tries again after an error. -/
def FlashError.isTransient (e : FlashError) : Bool :=
  match e.code with
  | some (.string s) => decide (s ∈ TRANSIENT_ERROR_CODES.map units)
  | _ => false

/-! ## The codes of the CLI -/

/-- The code the CLI gives to an error message, by what occurs in it. -/
def inferErrorCode (message : String) : String :=
  let lower := toLowerCase message
  let has := fun text => includes lower text
  if has "wallet" && has "not found" then "WALLET_NOT_FOUND"
  else if has "wallet" && has "disconnect" then "WALLET_DISCONNECTED"
  else if has "no wallet" then "NO_WALLET"
  else if has "keypair" then "KEYPAIR_INTEGRITY_FAILED"
  else if has "insufficient" || has "not enough" then "INSUFFICIENT_BALANCE"
  else if has "duplicate position" then "DUPLICATE_POSITION"
  else if has "position not found" || has "no position" then "POSITION_NOT_FOUND"
  else if has "market not found" || has "unknown market" then "MARKET_NOT_FOUND"
  else if has "pool not found" || has "no pool" then "POOL_NOT_FOUND"
  else if has "rate limit" then "RATE_LIMIT_EXCEEDED"
  else if has "max collateral" then "MAX_COLLATERAL_EXCEEDED"
  else if has "max leverage" then "MAX_LEVERAGE_EXCEEDED"
  else if has "no sflp" || has "no staked flp" then "NO_SFLP_BALANCE"
  else if has "no flp" then "NO_FLP_BALANCE"
  else if has "no rewards" then "NO_REWARDS"
  else if has "no faf" then "NO_FAF_BALANCE"
  else if has "rpc" && (has "unavail" || has "down") then "RPC_UNAVAILABLE"
  else if has "timeout" then "COMMAND_TIMEOUT"
  else if has "network" then "NETWORK_ERROR"
  else if has "simulation" then "SIMULATION_FAILED"
  else if has "transaction failed" then "TRANSACTION_FAILED"
  else if has "not found" || has "unknown command" then "COMMAND_NOT_FOUND"
  else if has "invalid" || has "parameter" then "INVALID_PARAMETERS"
  else "UNKNOWN_ERROR"

end FlashEdge
