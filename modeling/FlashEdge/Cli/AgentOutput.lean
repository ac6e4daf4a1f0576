import FlashEdge.Cli.JsonResponse
import FlashEdge.Sdk.FlashSdk
import FlashEdge.Theory.JsonRoundTrip

/-!
# What a dispatched command prints (`cli/terminal.ts`, `no-dna.ts`)

With `--format json` a command prints one JSON document after its dispatch. There are two
kinds: the response of `json-response.ts`, and the payload for agents, which is printed
while `IS_AGENT` is set and executes a trade without a prompt; a failure goes to the other
stream then. The SDK sets `NO_DNA` and asks for `--format json` as well.

A `Dispatch` is what comes out of the tool: its result, what its action gives if it is
executed, and what was printed on the way.
-/

namespace FlashEdge

open JsValue

namespace JsValue

mutual

/-- What `JSON.stringify` makes of a value; in an array it prints `null` for what JSON has no
word for. -/
def toJson : JsValue → Json
  | .undefined => .null
  | .function => .null
  | .null => .null
  | .bool b => .bool b
  | .number n => .number n
  | .notFinite => .null
  | .string s => .string s
  | .array items => .array (itemsToJson items)
  | .object fields => .object (fieldsToJson fields)

def itemsToJson : List JsValue → List Json
  | [] => []
  | item :: items => toJson item :: itemsToJson items

/-- Members that JSON has no word for are left out. -/
def fieldsToJson : List (List CodeUnit × JsValue) → List (List CodeUnit × Json)
  | [] => []
  | (key, value) :: fields =>
    if value.isDropped then fieldsToJson fields else (key, toJson value) :: fieldsToJson fields

end

/-- `Object.assign(target, source)`: to assign `__proto__` adds no member. -/
def assign (target source : List (List CodeUnit × JsValue)) : List (List CodeUnit × JsValue) :=
  source.foldl (fun target field =>
    if field.1 = Cli.protoKey then target else setMember target field.1 field.2) target

/-- `{ ...target, ...source }`. -/
def spread (target source : List (List CodeUnit × JsValue)) : List (List CodeUnit × JsValue) :=
  source.foldl (fun target field => setMember target field.1 field.2) target

end JsValue

namespace Cli

/-! ## `no-dna.ts` -/

/-- `IS_AGENT`, and what it was before structured output was enabled. -/
structure OutputMode where
  isAgent : Bool
  savedAgentState : Bool := false
deriving DecidableEq, Repr

/-- `!!process.env.NO_DNA`. -/
def OutputMode.ofEnv (noDna : List CodeUnit) : OutputMode := { isAgent := decide (noDna ≠ []) }

def OutputMode.enableStructuredOutput (mode : OutputMode) : OutputMode :=
  { isAgent := true, savedAgentState := mode.isAgent }

def OutputMode.restoreOutputMode (mode : OutputMode) : OutputMode :=
  { mode with isAgent := mode.savedAgentState }

/-- What is written to the two streams. -/
structure Output where
  stdout : List CodeUnit := []
  stderr : List CodeUnit := []
deriving DecidableEq

/-- `JSON.stringify` of an object, on a line. -/
def jsonLine (fields : List (List CodeUnit × JsValue)) : List CodeUnit :=
  Json.printLine (JsValue.object fields).toJson

def agentOutput (now : List CodeUnit) (data : List (List CodeUnit × JsValue)) : Output :=
  let payload := spread [(units "timestamp", .string now)] data
  { stdout := jsonLine payload ++ [0x0A] }

def agentError (now error : List CodeUnit) (details : List (List CodeUnit × JsValue)) : Output :=
  let payload := spread [(units "error", .string error), (units "timestamp", .string now)] details
  { stderr := jsonLine payload ++ [0x0A] }

/-! ## `terminal.ts` -/

/-- A `ToolResult`; the members of its data have distinct keys. -/
structure ToolReply extends ToolResult where
  requiresConfirmation : Bool := false
  confirmationPrompt : Option (List CodeUnit) := none
  distinct : ∀ fields ∈ data, (fields.map Prod.fst).Nodup := by simp

/-- What is printed while a tool or its action runs: progress, which is no JSON. -/
structure Progress where
  text : List CodeUnit
  noBrace : unit '}' ∉ text
  noJson : Json.parse (FlashEdge.trim text) = none

/-- The end of a dispatch. -/
structure Dispatch where
  action : List CodeUnit
  result : ToolReply
  /-- What `executeAction` gives: a result, or an exception with a message. -/
  executed : Except (List CodeUnit) ToolReply
  printed : Progress
  now : List CodeUnit

/-- `const { executeAction, ...safeData } = result.data`; without data there is none. -/
def safeData (reply : ToolReply) : List (List CodeUnit × JsValue) :=
  without [units "executeAction"] (reply.data.getD [])

/-- `result.requiresConfirmation && result.data?.executeAction`. -/
def Dispatch.confirms (d : Dispatch) : Bool :=
  d.result.requiresConfirmation &&
    (member (d.result.data.getD []) (units "executeAction")).truthy

/-- `if (result.txSignature) payload.tx_signature = result.txSignature`. -/
def setSignature (payload : List (List CodeUnit × JsValue)) (reply : ToolReply) :
    List (List CodeUnit × JsValue) :=
  if reply.txSignature = [] then payload
  else setMember payload (units "tx_signature") (.string reply.txSignature)

/-- The payload for agents. -/
def agentPayload (d : Dispatch) : List (List CodeUnit × JsValue) :=
  let payload : List (List CodeUnit × JsValue) :=
    [(units "status", .string (units (if d.result.success then "success" else "error"))),
      (units "action", .string d.action)]
  let payload := assign payload (safeData d.result)
  let payload := setSignature payload d.result
  -- trades are confirmed without a prompt
  if d.confirms then
    match d.executed with
    | .ok execResult =>
      let payload := setMember payload (units "status")
        (.string (units (if execResult.success then "submitted" else "failed")))
      let payload := setSignature payload execResult
      assign payload (safeData execResult)
    | .error message =>
      let payload := setMember payload (units "status") (.string (units "failed"))
      setMember payload (units "error") (.string message)
  else payload

/-- The members of a response. -/
def JsonResponse.toFields (r : JsonResponse) : List (List CodeUnit × JsValue) :=
  [(units "success", .bool r.success), (units "command", .string r.command),
    (units "timestamp", .string r.timestamp), (units "version", .string (units r.version)),
    (units "data", .object r.data),
    (units "error", match r.error with
      | none => .null
      | some e => .object [(units "code", .string (units e.code)), (units "message", e.message),
          (units "details", .object e.details)])]

/-- `console.log(jsonStringify(response))`. -/
def printResponse (r : JsonResponse) : Output :=
  { stdout := Json.print 0 (JsValue.object r.toFields).toJson ++ [0x0A] }

/-- The response of a result, with what it asks to be confirmed. -/
def confirmedResponse (d : Dispatch) : Except String JsonResponse :=
  let commandName := if d.action = [] then units "unknown" else d.action
  (jsonFromToolResult commandName d.now d.result.toToolResult).map fun response =>
    if d.result.requiresConfirmation then
      let data := setMember response.data (units "action_required") (.string (units "confirmation"))
      let prompt := d.result.confirmationPrompt.getD (units "Confirm?")
      { response with data := setMember data (units "prompt") (.string prompt) }
    else response

/-- `handleInput` from a dispatch with `--format json` on; an exception is left to
`startExec`. -/
def handleDispatched (mode : OutputMode) (d : Dispatch) : Except String Output :=
  let mode := mode.enableStructuredOutput.restoreOutputMode
  if mode.isAgent then
    if !d.result.success && !d.result.requiresConfirmation then
      .ok (agentError d.now d.action (agentPayload d))
    else .ok (agentOutput d.now (agentPayload d))
  else (confirmedResponse d).map printResponse

/-- The run of `exec <command> --format json` that gets to a dispatch. -/
def exec (noDna : List CodeUnit) (d : Dispatch) : Except String CliResult :=
  (handleDispatched (.ofEnv noDna) d).map fun output =>
    { stdout := d.printed.text ++ output.stdout, stderr := output.stderr }

end Cli

/-! ## `flash-sdk.ts` -/

/-- `process.env.NO_DNA || '1'`. -/
def childNoDna (noDna : Option (List CodeUnit)) : List CodeUnit :=
  match noDna with
  | some value => if value = [] then units "1" else value
  | none => units "1"

/-- `executeRaw`, from the end of the process. -/
def executeRaw (timeout : Decimal) (command now : List CodeUnit) (result : CliResult) :
    Except FlashError FlashResponse := do
  let raw ← execCli timeout command result
  parseResponse raw command now

end FlashEdge
