import FlashEdge.Theory.Json
import Mathlib.Data.List.Infix

/-!
# The responses of the CLI (`cli/json-response.ts`)

What a tool returns is turned into a response of one schema: the data, which may be
anything the tool put together, is sanitized, and the message of a failure is searched
for an error and a code.

Texts are lists of code units. A value of the runtime is JSON, or a number that is not
finite, or what JSON has no word for (`undefined` and functions). The members of an
object have distinct keys; the order in which the runtime lists them is left out.
-/

namespace FlashEdge

/-- A value of the runtime. -/
inductive JsValue where
  | undefined
  | function
  | null
  | bool (b : Bool)
  | number (n : Decimal)
  | notFinite
  | string (s : List CodeUnit)
  | array (items : List JsValue)
  | object (fields : List (List CodeUnit × JsValue))

namespace JsValue

/-- `value === undefined || typeof value === 'function'`. -/
def isDropped : JsValue → Bool
  | .undefined => true
  | .function => true
  | _ => false

/-- `Boolean(value)`. -/
def truthy : JsValue → Bool
  | .undefined => false
  | .null => false
  | .bool b => b
  | .number n => decide (n.digits ≠ 0)
  | .string s => decide (s ≠ [])
  | _ => true

/-- `a || b`. -/
def or (a b : JsValue) : JsValue := if a.truthy then a else b

/-- `object[key] = value`, in place when the key is present. -/
def setMember (fields : List (List CodeUnit × JsValue)) (key : List CodeUnit) (value : JsValue) :
    List (List CodeUnit × JsValue) :=
  match fields with
  | [] => [(key, value)]
  | (k, v) :: fields =>
    if k = key then (k, value) :: fields else (k, v) :: setMember fields key value

/-- `object[key]`. -/
def member (fields : List (List CodeUnit × JsValue)) (key : List CodeUnit) : JsValue :=
  ((fields.find? fun field => field.1 = key).map Prod.snd).getD .undefined

mutual

/-- What `JSON.parse` returns; of the members with one key the last counts. -/
def ofJson : Json → JsValue
  | .null => .null
  | .bool b => .bool b
  | .number n => .number n
  | .string s => .string s
  | .array items => .array (itemsOfJson items)
  | .object fields => .object (fieldsOfJson [] fields)

def itemsOfJson : List Json → List JsValue
  | [] => []
  | item :: items => ofJson item :: itemsOfJson items

def fieldsOfJson (fields : List (List CodeUnit × JsValue)) :
    List (List CodeUnit × Json) → List (List CodeUnit × JsValue)
  | [] => fields
  | (key, value) :: rest => fieldsOfJson (setMember fields key (ofJson value)) rest

end

/-- The key of an item of an array. -/
def indexKey (i : ℕ) : List CodeUnit := (Nat.toDigits 10 i).map unit

/-- `Object.entries` of an array whose first item has index `i`. -/
def entries (i : ℕ) : List JsValue → List (List CodeUnit × JsValue)
  | [] => []
  | item :: items => (indexKey i, item) :: entries (i + 1) items

end JsValue

open JsValue

namespace Cli

/-! ## Sanitizing -/

/-- The key whose assignment sets the prototype, and adds no member. -/
def protoKey : List CodeUnit := units "__proto__"

mutual

/-- `undefined` and functions are dropped; objects and arrays are sanitized. -/
def sanitizeData : List (List CodeUnit × JsValue) → List (List CodeUnit × JsValue)
  | [] => []
  | (key, value) :: fields =>
    if value.isDropped ∨ key = protoKey then sanitizeData fields
    else (key, sanitizeValue value) :: sanitizeData fields

/-- The value of a member. -/
def sanitizeValue : JsValue → JsValue
  | .array items => .array (sanitizeItems items)
  | .object fields => .object (sanitizeData fields)
  | value => value

def sanitizeItems : List JsValue → List JsValue
  | [] => []
  | item :: items => sanitizeItem item :: sanitizeItems items

/-- An item of an array: an array is taken for an object of its entries. -/
def sanitizeItem : JsValue → JsValue
  | .array items => .object (sanitizeEntries 0 items)
  | .object fields => .object (sanitizeData fields)
  | item => item

def sanitizeEntries (i : ℕ) : List JsValue → List (List CodeUnit × JsValue)
  | [] => []
  | item :: items =>
    if item.isDropped then sanitizeEntries (i + 1) items
    else (indexKey i, sanitizeValue item) :: sanitizeEntries (i + 1) items

end

/-! ## The message of a failure -/

/-- `\s`, and what `trim` takes away. -/
def isWhitespace (c : CodeUnit) : Bool :=
  decide ((9 ≤ c.toNat ∧ c.toNat ≤ 13) ∨ c.toNat = 0x20 ∨ c.toNat = 0xA0 ∨ c.toNat = 0x1680 ∨
    (0x2000 ≤ c.toNat ∧ c.toNat ≤ 0x200A) ∨ c.toNat = 0x2028 ∨ c.toNat = 0x2029 ∨
    c.toNat = 0x202F ∨ c.toNat = 0x205F ∨ c.toNat = 0x3000 ∨ c.toNat = 0xFEFF)

def trim (text : List CodeUnit) : List CodeUnit :=
  ((text.dropWhile isWhitespace).reverse.dropWhile isWhitespace).reverse

/-- `[0-9;]`. -/
def isAnsiParameter (c : CodeUnit) : Bool := Json.isDigitUnit c || c = unit ';'

/-- The length of an escape code at the beginning: `\x1b\[[0-9;]*m`. -/
def ansiLength : List CodeUnit → Option ℕ
  | c :: d :: rest =>
    let parameters := rest.takeWhile isAnsiParameter
    if c = 0x1B ∧ d = unit '[' ∧ rest[parameters.length]? = some (unit 'm') then
      some (parameters.length + 3)
    else none
  | _ => none

/-- Escape codes are taken out; the number counts what is still to be skipped. -/
def stripAnsi : ℕ → List CodeUnit → List CodeUnit
  | _, [] => []
  | skip + 1, _ :: rest => stripAnsi skip rest
  | 0, c :: rest =>
    match ansiLength (c :: rest) with
    | some length => stripAnsi (length - 1) rest
    | none => c :: stripAnsi 0 rest

/-- `message.replace(/\x1b\[[0-9;]*m/g, '').trim()`. -/
def cleaned (message : List CodeUnit) : List CodeUnit := trim (stripAnsi 0 message)

/-- A mark of a failure before the text is taken away. -/
def stripMark (text : List CodeUnit) : List CodeUnit :=
  match text.dropWhile isWhitespace with
  | c :: rest =>
    if c.toNat = 0x2716 ∨ c.toNat = 0x2717 ∨ c.toNat = 0xD7 then rest.dropWhile isWhitespace
    else text
  | [] => text

/-- An ASCII letter in lower case; others are kept. -/
def lowerUnit (c : CodeUnit) : CodeUnit := if 65 ≤ c.toNat ∧ c.toNat ≤ 90 then c + 32 else c

/-- The word `Error:`, in any case, is taken away. -/
def stripError (text : List CodeUnit) : List CodeUnit :=
  let rest := text.dropWhile isWhitespace
  if (rest.take 6).map lowerUnit = units "error:" then (rest.drop 6).dropWhile isWhitespace
  else text

/-- The `error` or `message` of a message that is JSON, or its text. -/
def tryExtractErrorMessage (message : List CodeUnit) : JsValue :=
  if message = [] then .null
  else
    let clean := cleaned message
    if clean = [] then .null
    else
      match Json.parse clean with
      | some (.object fields) =>
        let parsed := fieldsOfJson [] fields
        ((member parsed (units "error")).or (member parsed (units "message"))).or .null
      | some (.array _) => .null
      | _ =>
        -- no object: the text, without a mark
        let stripped := (stripError (stripMark clean)).take 500
        if stripped = [] then .null else .string stripped

/-! ## The code of an error -/

/-- `s.toLowerCase()`, as far as ASCII text is looked for in it: besides the ASCII letters,
the sign for kelvin becomes `k`, and the dotted `I` becomes `i` with a dot. -/
def lowerText (s : List CodeUnit) : List CodeUnit :=
  s.flatMap fun c =>
    if c.toNat = 0x212A then [unit 'k']
    else if c.toNat = 0x130 then [unit 'i', 0x307]
    else [lowerUnit c]

/-- The codes by what the message includes, the first that fits. -/
def errorCodeOf (lower : List CodeUnit) : String :=
  let has (pattern : String) : Bool := decide (units pattern <:+: lower)
  if has "wallet" && has "not found" then "WALLET_NOT_FOUND"
  else if has "wallet" && has "disconnect" then "WALLET_DISCONNECTED"
  else if has "no wallet" then "NO_WALLET"
  else if has "keypair" then "KEYPAIR_INTEGRITY_FAILED"
  else if has "insufficient" || has "not enough" then "INSUFFICIENT_BALANCE"
  else if has "duplicate position" then "DUPLICATE_POSITION"
  else if has "position not found" || has "no position" then "POSITION_NOT_FOUND"
  else if has "market not found" || has "unknown market" then "MARKET_NOT_FOUND"
  else if has "pool not found" || has "no pool" then "POOL_NOT_FOUND"
  else if has "rate limit" then "RATE_LIMIT_EXCEEDED"
  else if has "max collateral" then "MAX_COLLATERAL_EXCEEDED"
  else if has "max leverage" then "MAX_LEVERAGE_EXCEEDED"
  else if has "no sflp" || has "no staked flp" then "NO_SFLP_BALANCE"
  else if has "no flp" then "NO_FLP_BALANCE"
  else if has "no rewards" then "NO_REWARDS"
  else if has "no faf" then "NO_FAF_BALANCE"
  else if has "rpc" && (has "unavail" || has "down") then "RPC_UNAVAILABLE"
  else if has "timeout" then "COMMAND_TIMEOUT"
  else if has "network" then "NETWORK_ERROR"
  else if has "simulation" then "SIMULATION_FAILED"
  else if has "transaction failed" then "TRANSACTION_FAILED"
  else if has "not found" || has "unknown command" then "COMMAND_NOT_FOUND"
  else if has "invalid" || has "parameter" then "INVALID_PARAMETERS"
  else "UNKNOWN_ERROR"

/-- What is not a string has no `toLowerCase`. -/
def inferErrorCode : JsValue → Except String String
  | .string message => .ok (errorCodeOf (lowerText message))
  | _ => .error "message.toLowerCase is not a function"

/-! ## Responses -/

structure JsonError where
  code : String
  message : JsValue
  details : List (List CodeUnit × JsValue)

structure JsonResponse where
  success : Bool
  command : List CodeUnit
  timestamp : List CodeUnit
  version : String := "v1"
  data : List (List CodeUnit × JsValue)
  error : Option JsonError

def jsonSuccess (command timestamp : List CodeUnit) (data : List (List CodeUnit × JsValue)) :
    JsonResponse :=
  { success := true, command, timestamp, data := sanitizeData data, error := none }

def jsonError (command timestamp : List CodeUnit) (code : String) (message : JsValue)
    (details : List (List CodeUnit × JsValue)) : JsonResponse :=
  { success := false, command, timestamp, data := []
    error := some { code, message, details := sanitizeData details } }

/-- What is read of a `ToolResult`. -/
structure ToolResult where
  success : Bool
  message : List CodeUnit
  data : Option (List (List CodeUnit × JsValue)) := none
  txSignature : List CodeUnit := []

/-- The members with other keys: `const { key, ...rest } = object`. -/
def without (keys : List (List CodeUnit)) (fields : List (List CodeUnit × JsValue)) :
    List (List CodeUnit × JsValue) :=
  fields.filter fun field => !keys.any fun key => decide (field.1 = key)

/-- The data that is found in the message, or else the data of the result. -/
def toolData (result : ToolResult) : List (List CodeUnit × JsValue) :=
  let data :=
    match Json.parse result.message with
    | some (.object fields) =>
      without [units "timestamp", units "action"] (fieldsOfJson [] fields)
    | some (.array items) => entries 0 (itemsOfJson items)
    | some _ => []
    | none =>
      match result.data with
      | some data => without [units "executeAction"] data
      | none => []
  if result.txSignature = [] then data
  else setMember data (units "tx_signature") (.string result.txSignature)

def jsonFromToolResult (command timestamp : List CodeUnit) (result : ToolResult) :
    Except String JsonResponse :=
  let data := toolData result
  if result.success then .ok (jsonSuccess command timestamp data)
  else do
    let errorMessage :=
      (tryExtractErrorMessage result.message).or (.string (units "Command failed"))
    let code ← inferErrorCode errorMessage
    .ok (jsonError command timestamp code errorMessage data)

end Cli

end FlashEdge
