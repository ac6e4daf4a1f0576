import FlashEdge.Cli.AgentOutput
import FlashEdge.Sdk.ParsedResponses
import Mathlib.Data.List.TakeWhile

/-!
# What the SDK makes of the payload for agents

For every result of a tool the SDK should return a response with the success of the tool,
or of its action when that was confirmed, and with the data of the tool (`Understood`). But
the payload for agents has no member `success` and no `data` of its own: what the SDK finds
under these names is what the tool happened to call so, and a tool cannot put its data
into a member of that data. `understood_iff` is the exact condition.
-/

namespace FlashEdge

open JsValue

namespace Cli

/-! ## The property -/

/-- The success of the tool, or of its action when that was confirmed. -/
def Dispatch.succeeded (d : Dispatch) : Bool :=
  if d.confirms then
    match d.executed with
    | .ok execResult => execResult.success
    | .error _ => false
  else d.result.success

/-- Every member that JSON has a word for is in the data. -/
def Contains (data : JsonData) (fields : List (List CodeUnit × JsValue)) : Prop :=
  ∀ key value, (key, value) ∈ fields → value.isDropped = false →
    data.get? key = some (.ofJson value.toJson)

/-- The SDK, started with some `NO_DNA` of its own, returns the success and the data. -/
def Understood (noDna : Option (List CodeUnit)) (d : Dispatch) : Prop :=
  ∀ timeout command now, ∃ result response, exec (childNoDna noDna) d = .ok result ∧
    executeRaw timeout command now result = .ok response ∧
      response.success = d.succeeded ∧ Contains response.data (safeData d.result)

/-! ## The condition -/

/-- A member of an object, if there is one. -/
def lookup (fields : List (List CodeUnit × JsValue)) (key : List CodeUnit) : Option JsValue :=
  (fields.find? fun field => field.1 = key).map Prod.snd

/-- A member of the data that the executed action returned. -/
def Dispatch.executedMember (d : Dispatch) (key : List CodeUnit) : Option JsValue :=
  if d.confirms then
    match d.executed with
    | .ok execResult => lookup (safeData execResult) key
    | .error _ => none
  else none

/-- A member of the data that the executed action returned, or else of the tool's. -/
def Dispatch.given (d : Dispatch) (key : List CodeUnit) : Option JsValue :=
  (d.executedMember key).or (lookup (safeData d.result) key)

/-- JSON has no word for any of the members. -/
def Unprintable (fields : List (List CodeUnit × JsValue)) : Prop :=
  ∀ key value, (key, value) ∈ fields → value.isDropped = true

/-- A value with all the members that JSON has a word for. -/
def Repeats (repeated : JsValue) (fields : List (List CodeUnit × JsValue)) : Prop :=
  ∀ key value, (key, value) ∈ fields → value.isDropped = false →
    repeated.toJson.get? key = some value.toJson

/-- The payload with the time. -/
def Dispatch.payload (d : Dispatch) : List (List CodeUnit × JsValue) :=
  spread [(units "timestamp", .string d.now)] (agentPayload d)

/-- The result is printed where the SDK reads; a member `success` is true exactly for a
success; the tool's data is empty, or repeated in a member `data` by its action; and braces
in texts do not hide the beginning of the line. -/
structure Readable (d : Dispatch) : Prop where
  printed : d.result.success = true ∨ d.result.requiresConfirmation = true
  success : d.given (units "success") = some (.bool true) ↔ d.succeeded = true
  data : Unprintable (safeData d.result) ∨ ∃ repeated,
    d.executedMember (units "data") = some repeated ∧ Repeats repeated (safeData d.result)
  found : ParsedResponses.FoundBehind (d.printed.text.dropWhile isTrimmed) (jsonLine d.payload)

/-! ## Members -/

theorem lookup_nil (key : List CodeUnit) : lookup [] key = none := rfl

theorem lookup_cons (field : List CodeUnit × JsValue) (fields : List (List CodeUnit × JsValue))
    (key : List CodeUnit) :
    lookup (field :: fields) key = if field.1 = key then some field.2 else lookup fields key := by
  unfold lookup
  rw [List.find?_cons]
  by_cases hkey : field.1 = key
  · simp [hkey]
  · simp [hkey]

theorem lookup_eq_none {fields : List (List CodeUnit × JsValue)} {key : List CodeUnit}
    (hkey : key ∉ fields.map Prod.fst) : lookup fields key = none := by
  induction fields with
  | nil => rfl
  | cons field fields ih =>
    rw [List.map_cons, List.mem_cons, not_or] at hkey
    rw [lookup_cons, if_neg (fun heq => hkey.1 heq.symm)]
    exact ih hkey.2

theorem mem_of_lookup {fields : List (List CodeUnit × JsValue)} {key : List CodeUnit}
    {value : JsValue} (hfound : lookup fields key = some value) : (key, value) ∈ fields := by
  induction fields with
  | nil => cases hfound
  | cons field fields ih =>
    rw [lookup_cons] at hfound
    split at hfound
    · next hkey =>
      obtain rfl := Option.some.inj hfound
      rw [← hkey]
      exact List.mem_cons_self
    · exact List.mem_cons_of_mem _ (ih hfound)

theorem lookup_setMember (fields : List (List CodeUnit × JsValue)) (key key' : List CodeUnit)
    (value : JsValue) :
    lookup (setMember fields key value) key' =
      if key' = key then some value else lookup fields key' := by
  induction fields with
  | nil =>
    rw [setMember, lookup_cons]
    simp only [eq_comm]
  | cons field fields ih =>
    obtain ⟨k, v⟩ := field
    rw [setMember]
    split
    · next hk =>
      subst hk
      rw [lookup_cons, lookup_cons]
      by_cases hkey : key' = k
      · simp [hkey]
      · simp [hkey, Ne.symm hkey]
    · next hk =>
      rw [lookup_cons, lookup_cons, ih]
      by_cases hkey : k = key'
      · subst hkey
        simp [hk]
      · simp [hkey]

theorem mem_keys_setMember (fields : List (List CodeUnit × JsValue)) (key key' : List CodeUnit)
    (value : JsValue) :
    key' ∈ (setMember fields key value).map Prod.fst ↔
      key' = key ∨ key' ∈ fields.map Prod.fst := by
  induction fields with
  | nil => simp [setMember]
  | cons field fields ih =>
    obtain ⟨k, v⟩ := field
    rw [setMember]
    split
    · next hk =>
      subst hk
      simp
    · rw [List.map_cons, List.mem_cons, ih, List.map_cons, List.mem_cons]
      tauto

theorem nodup_setMember {fields : List (List CodeUnit × JsValue)}
    (hd : (fields.map Prod.fst).Nodup) (key : List CodeUnit) (value : JsValue) :
    ((setMember fields key value).map Prod.fst).Nodup := by
  induction fields with
  | nil => simp [setMember]
  | cons field fields ih =>
    obtain ⟨k, v⟩ := field
    rw [List.map_cons, List.nodup_cons] at hd
    rw [setMember]
    split
    · exact List.nodup_cons.mpr hd
    · next hk =>
      rw [List.map_cons, List.nodup_cons, mem_keys_setMember]
      exact ⟨fun hmem => hmem.elim hk hd.1, ih hd.2⟩

/-- A member of the source, or else of the target. -/
theorem lookup_spread {source : List (List CodeUnit × JsValue)}
    (hd : (source.map Prod.fst).Nodup) (target : List (List CodeUnit × JsValue))
    (key : List CodeUnit) :
    lookup (spread target source) key = (lookup source key).or (lookup target key) := by
  unfold spread
  induction source generalizing target with
  | nil => rfl
  | cons field source ih =>
    rw [List.map_cons, List.nodup_cons] at hd
    rw [List.foldl_cons, ih hd.2, lookup_setMember, lookup_cons]
    by_cases hkey : key = field.1
    · subst hkey
      simp [lookup_eq_none hd.1]
    · simp [hkey, Ne.symm hkey]

theorem nodup_spread {target : List (List CodeUnit × JsValue)}
    (hd : (target.map Prod.fst).Nodup) (source : List (List CodeUnit × JsValue)) :
    ((spread target source).map Prod.fst).Nodup := by
  unfold spread
  induction source generalizing target with
  | nil => exact hd
  | cons field source ih => exact ih (nodup_setMember hd field.1 field.2)

/-- To assign is to spread what can be assigned. -/
theorem assign_eq_spread (target source : List (List CodeUnit × JsValue)) :
    assign target source =
      spread target (source.filter fun field => !decide (field.1 = protoKey)) := by
  unfold assign spread
  rw [List.foldl_filter]
  congr 1
  funext target field
  by_cases hproto : field.1 = protoKey
  · simp [hproto]
  · simp [hproto]

theorem lookup_filter (source : List (List CodeUnit × JsValue)) {key : List CodeUnit}
    (hkey : key ≠ protoKey) :
    lookup (source.filter fun field => !decide (field.1 = protoKey)) key = lookup source key := by
  induction source with
  | nil => rfl
  | cons field source ih =>
    rw [List.filter_cons, lookup_cons]
    by_cases hproto : field.1 = protoKey
    · simp [hproto, ih, Ne.symm hkey]
    · simp [hproto, lookup_cons, ih]

theorem lookup_assign {source : List (List CodeUnit × JsValue)}
    (hd : (source.map Prod.fst).Nodup) (target : List (List CodeUnit × JsValue))
    {key : List CodeUnit} (hkey : key ≠ protoKey) :
    lookup (assign target source) key = (lookup source key).or (lookup target key) := by
  rw [assign_eq_spread, lookup_spread (hd.sublist (List.filter_sublist.map Prod.fst)),
    lookup_filter source hkey]

theorem nodup_assign {target : List (List CodeUnit × JsValue)}
    (hd : (target.map Prod.fst).Nodup) (source : List (List CodeUnit × JsValue)) :
    ((assign target source).map Prod.fst).Nodup := by
  rw [assign_eq_spread]
  exact nodup_spread hd _

/-! ## The payload -/

theorem nodup_safeData (reply : ToolReply) : ((safeData reply).map Prod.fst).Nodup := by
  unfold safeData without
  cases hdata : reply.data with
  | none => simp
  | some fields =>
    have hd := reply.distinct fields hdata
    rw [Option.getD_some]
    exact hd.sublist (List.filter_sublist.map Prod.fst)

/-- The members that the payload has of its own. -/
def payloadKeys : List (List CodeUnit) :=
  [units "timestamp", units "status", units "action", units "tx_signature", units "error", protoKey]

theorem lookup_setSignature (payload : List (List CodeUnit × JsValue)) (reply : ToolReply)
    {key : List CodeUnit} (hkey : key ∉ payloadKeys) :
    lookup (setSignature payload reply) key = lookup payload key := by
  unfold setSignature
  split
  · rfl
  · rw [lookup_setMember, if_neg]
    rintro rfl
    exact hkey (by simp [payloadKeys])

theorem nodup_setSignature {payload : List (List CodeUnit × JsValue)}
    (hd : (payload.map Prod.fst).Nodup) (reply : ToolReply) :
    ((setSignature payload reply).map Prod.fst).Nodup := by
  unfold setSignature
  split
  · exact hd
  · exact nodup_setMember hd _ _

/-- Any other member comes from the data. -/
theorem lookup_agentPayload (d : Dispatch) {key : List CodeUnit} (hkey : key ∉ payloadKeys) :
    lookup (agentPayload d) key = d.given key := by
  have hother := hkey
  simp only [payloadKeys, List.mem_cons, List.not_mem_nil, not_or, or_false] at hkey
  obtain ⟨-, hstatus, haction, -, herror, hproto⟩ := hkey
  unfold agentPayload Dispatch.given Dispatch.executedMember
  dsimp only
  split
  · cases hexecuted : d.executed with
    | ok execResult =>
      dsimp only
      rw [lookup_assign (nodup_safeData execResult) _ hproto, lookup_setSignature _ _ hother,
        lookup_setMember, if_neg hstatus, lookup_setSignature _ _ hother,
        lookup_assign (nodup_safeData d.result) _ hproto, lookup_cons, if_neg (Ne.symm hstatus),
        lookup_cons, if_neg (Ne.symm haction), lookup_nil, Option.or_none]
    | error message =>
      dsimp only
      rw [lookup_setMember, if_neg herror, lookup_setMember, if_neg hstatus,
        lookup_setSignature _ _ hother, lookup_assign (nodup_safeData d.result) _ hproto,
        lookup_cons, if_neg (Ne.symm hstatus), lookup_cons, if_neg (Ne.symm haction), lookup_nil,
        Option.or_none, Option.none_or]
  · rw [lookup_setSignature _ _ hother, lookup_assign (nodup_safeData d.result) _ hproto,
      lookup_cons, if_neg (Ne.symm hstatus), lookup_cons, if_neg (Ne.symm haction), lookup_nil,
      Option.or_none, Option.none_or]

theorem nodup_agentPayload (d : Dispatch) : ((agentPayload d).map Prod.fst).Nodup := by
  have hown : ∀ status action : JsValue,
      ([(units "status", status), (units "action", action)].map Prod.fst).Nodup := by
    intro status action
    show [units "status", units "action"].Nodup
    decide
  have hbase := nodup_setSignature (nodup_assign (hown
    (.string (units (if d.result.success then "success" else "error"))) (.string d.action))
      (safeData d.result)) d.result
  unfold agentPayload
  dsimp only
  split
  · cases d.executed with
    | ok execResult => exact nodup_assign (nodup_setSignature (nodup_setMember hbase _ _) _) _
    | error message => exact nodup_setMember (nodup_setMember hbase _ _) _ _
  · exact hbase

theorem lookup_payload (d : Dispatch) {key : List CodeUnit} (hkey : key ∉ payloadKeys) :
    lookup d.payload key = d.given key := by
  unfold Dispatch.payload
  rw [lookup_spread (nodup_agentPayload d), lookup_agentPayload d hkey, lookup_cons, if_neg,
    lookup_nil, Option.or_none]
  rintro rfl
  exact hkey (by simp [payloadKeys])

theorem nodup_payload (d : Dispatch) : (d.payload.map Prod.fst).Nodup :=
  nodup_spread (by simp) _

/-! ## What the SDK finds in it -/

theorem get?_cons (field : List CodeUnit × Json) (fields : List (List CodeUnit × Json))
    (key : List CodeUnit) :
    (Json.object (field :: fields)).get? key =
      ((Json.object fields).get? key).or (if field.1 = key then some field.2 else none) := by
  unfold Json.get?
  dsimp only
  rw [List.reverse_cons, List.find?_append, List.find?_singleton]
  cases fields.reverse.find? fun field => decide (field.1 = key) with
  | none => by_cases hkey : field.1 = key <;> simp [hkey]
  | some other => rfl

/-- What `JSON.stringify` prints of a member. -/
def printed (value : JsValue) : Option Json := if value.isDropped then none else some value.toJson

theorem get?_fieldsToJson {fields : List (List CodeUnit × JsValue)}
    (hd : (fields.map Prod.fst).Nodup) (key : List CodeUnit) :
    (Json.object (fieldsToJson fields)).get? key = (lookup fields key).bind printed := by
  induction fields with
  | nil => rfl
  | cons field fields ih =>
    obtain ⟨k, v⟩ := field
    rw [List.map_cons, List.nodup_cons] at hd
    rw [fieldsToJson, lookup_cons]
    by_cases hkey : k = key
    · subst hkey
      have hnone : (Json.object (fieldsToJson fields)).get? k = none := by
        rw [ih hd.2, lookup_eq_none hd.1]
        rfl
      split
      · next hdropped => simp [hnone, printed, hdropped]
      · next hprinted => simp [get?_cons, hnone, printed, hprinted]
    · split
      · rw [ih hd.2]
      · rw [get?_cons, ih hd.2]
        simp [hkey]

mutual

theorem toJson_ofJson : ∀ v : Json, (JsonData.ofJson v).toJson = v
  | .null => rfl
  | .bool _ => rfl
  | .number _ => rfl
  | .string _ => rfl
  | .array items => by
    rw [JsonData.ofJson, JsonData.toJson, itemsToJson_itemsOfJson items]
  | .object fields => by
    rw [JsonData.ofJson, JsonData.toJson, fieldsToJson_fieldsOfJson fields]

theorem itemsToJson_itemsOfJson : ∀ items : List Json,
    JsonData.itemsToJson (JsonData.itemsOfJson items) = items
  | [] => rfl
  | item :: items => by
    rw [JsonData.itemsOfJson, JsonData.itemsToJson, toJson_ofJson item,
      itemsToJson_itemsOfJson items]

theorem fieldsToJson_fieldsOfJson : ∀ fields : List (List CodeUnit × Json),
    JsonData.fieldsToJson (JsonData.fieldsOfJson fields) = fields
  | [] => rfl
  | (key, value) :: fields => by
    rw [JsonData.fieldsOfJson, JsonData.fieldsToJson, toJson_ofJson value,
      fieldsToJson_fieldsOfJson fields]

end

theorem ofJson_inj {v w : Json} : JsonData.ofJson v = .ofJson w ↔ v = w := by
  constructor
  · intro heq
    rw [← toJson_ofJson v, heq, toJson_ofJson]
  · rintro rfl
    rfl

theorem fieldsOfJson_eq (fields : List (List CodeUnit × Json)) :
    JsonData.fieldsOfJson fields = fields.map fun field => (field.1, .ofJson field.2) := by
  induction fields with
  | nil => rfl
  | cons field fields ih => rw [JsonData.fieldsOfJson, ih, List.map_cons]

theorem get?_ofJson (v : Json) (key : List CodeUnit) :
    (JsonData.ofJson v).get? key = (v.get? key).map .ofJson := by
  cases v with
  | object fields =>
    unfold JsonData.ofJson JsonData.get? Json.get?
    dsimp only
    rw [fieldsOfJson_eq, ← List.map_reverse, List.find?_map, Option.map_map, Option.map_map]
    rfl
  | _ => rfl

/-- No data is a member of itself. -/
theorem get?_ne_self (data : JsonData) (key : List CodeUnit) : data.get? key ≠ some data := by
  intro hself
  cases data with
  | object fields =>
    obtain ⟨⟨k, v⟩, hfound, rfl⟩ := Option.map_eq_some_iff.mp hself
    have hmem := List.mem_reverse.mp (List.mem_of_find?_eq_some hfound)
    have hsize := List.sizeOf_lt_of_mem hmem
    simp only [JsonData.object.sizeOf_spec, Prod.mk.sizeOf_spec] at hsize
    omega
  | _ => cases hself

/-- The response that the SDK finds in the payload. -/
def Dispatch.response (d : Dispatch) (command now : List CodeUnit) : FlashResponse :=
  responseOf command now (.object (fieldsToJson d.payload))

variable {d : Dispatch} {command now : List CodeUnit}

theorem get?_payload (d : Dispatch) {key : List CodeUnit} (hkey : key ∉ payloadKeys) :
    (Json.object (fieldsToJson d.payload)).get? key = (d.given key).bind printed := by
  rw [get?_fieldsToJson (nodup_payload d), lookup_payload d hkey]

theorem response_success :
    (d.response command now).success = true ↔ d.given (units "success") = some (.bool true) := by
  unfold Dispatch.response responseOf
  dsimp only
  rw [get?_payload d (by decide)]
  cases d.given (units "success") with
  | none => simp
  | some value =>
    cases value with
    | bool b => cases b <;> simp [printed, isDropped, toJson]
    | _ => simp [printed, isDropped, toJson]

/-- Without a printed member `data` there is no data. -/
theorem response_data_none (hnone : (d.given (units "data")).bind printed = none) :
    (d.response command now).data = .object [] := by
  unfold Dispatch.response responseOf memberOr
  dsimp only
  rw [get?_payload d (by decide), hnone]

/-- The data is empty, or the JSON of the member `data`. -/
theorem response_data_some {value : JsValue} (hsome : d.given (units "data") = some value) :
    (d.response command now).data = .object [] ∨
      (d.response command now).data = .ofJson value.toJson := by
  unfold Dispatch.response responseOf memberOr
  dsimp only
  rw [get?_payload d (by decide), hsome, Option.bind_some]
  unfold printed
  split
  · exact .inl rfl
  · exact .inl rfl
  · next v hprinted =>
    split at hprinted
    · cases hprinted
    · obtain rfl := Option.some.inj hprinted
      exact .inr rfl

/-- A member `data` that is an object is the data. -/
theorem response_data_object {value : JsValue} {fields : List (List CodeUnit × Json)}
    (hsome : d.given (units "data") = some value) (hobject : value.toJson = .object fields) :
    (d.response command now).data = .ofJson value.toJson := by
  have hprinted : value.isDropped = false := by
    cases value with
    | undefined => cases hobject
    | function => cases hobject
    | _ => rfl
  unfold Dispatch.response responseOf memberOr
  dsimp only
  rw [get?_payload d (by decide), hsome, Option.bind_some, printed, hprinted, hobject]
  rfl

/-- The data of the tool is found only where the executed action has repeated it. -/
theorem contains_iff :
    Contains (d.response command now).data (safeData d.result) ↔
      Unprintable (safeData d.result) ∨ ∃ repeated,
        d.executedMember (units "data") = some repeated ∧
          Repeats repeated (safeData d.result) := by
  constructor
  · intro hcontains
    by_contra hnot
    rw [not_or] at hnot
    obtain ⟨hsome, hnever⟩ := hnot
    obtain ⟨key, value, hmem, hprinted⟩ : ∃ key value, (key, value) ∈ safeData d.result ∧
        value.isDropped = false := by
      simpa [Unprintable] using hsome
    have hmember := hcontains key value hmem hprinted
    have hne : (d.response command now).data ≠ .object [] := by
      intro hempty
      rw [hempty] at hmember
      cases hmember
    cases hgiven : d.given (units "data") with
    | none =>
      apply hne
      apply response_data_none
      rw [hgiven]
      rfl
    | some repeated =>
      have hdata := (response_data_some hgiven).resolve_left hne
      rw [hdata] at hcontains
      cases hexecuted : d.executedMember (units "data") with
      | some executed =>
        rw [Dispatch.given, hexecuted, Option.some_or] at hgiven
        obtain rfl := Option.some.inj hgiven
        apply hnever
        refine ⟨executed, hexecuted, fun key value hmem hprinted => ?_⟩
        have hmember := hcontains key value hmem hprinted
        rw [get?_ofJson] at hmember
        obtain ⟨v, hv, hsame⟩ := Option.map_eq_some_iff.mp hmember
        rw [hv, ofJson_inj.mp hsame]
      | none =>
        -- the tool's own `data` would be a member of itself
        rw [Dispatch.given, hexecuted, Option.none_or] at hgiven
        have hitself : (d.response command now).data.get? (units "data") =
            some (d.response command now).data := by
          rw [hdata]
          apply hcontains _ _ (mem_of_lookup hgiven)
          by_contra hdropped
          apply hne
          apply response_data_none
          rw [Dispatch.given, hexecuted, Option.none_or, hgiven, Option.bind_some, printed,
            if_pos (by simpa using hdropped)]
        exact get?_ne_self _ _ hitself
  · rintro (hnone | ⟨repeated, hexecuted, hrepeats⟩) key value hmem hprinted
    · rw [hnone key value hmem] at hprinted
      cases hprinted
    · have hmember := hrepeats key value hmem hprinted
      have hgiven : d.given (units "data") = some repeated := by
        rw [Dispatch.given, hexecuted, Option.some_or]
      have hdata : (d.response command now).data = .ofJson repeated.toJson := by
        cases hjson : repeated.toJson with
        | object fields =>
          rw [← hjson]
          exact response_data_object hgiven hjson
        | _ =>
          rw [hjson] at hmember
          cases hmember
      rw [hdata, get?_ofJson, hmember, Option.map_some]

/-! ## The streams -/

/-- The SDK always starts the CLI for an agent, and stays with that after the dispatch. -/
theorem isAgent_childNoDna (noDna : Option (List CodeUnit)) :
    ((OutputMode.ofEnv (childNoDna noDna)).enableStructuredOutput.restoreOutputMode).isAgent =
      true := by
  have hne : childNoDna noDna ≠ [] := by
    unfold childNoDna
    cases noDna with
    | none => decide
    | some value =>
      dsimp only
      split
      · decide
      · next hvalue => exact hvalue
  exact decide_eq_true hne

/-- A result that is printed. -/
theorem exec_printed (noDna : Option (List CodeUnit))
    (hprinted : d.result.success = true ∨ d.result.requiresConfirmation = true) :
    exec (childNoDna noDna) d =
      .ok { stdout := d.printed.text ++ (jsonLine d.payload ++ [0x0A]) } := by
  unfold exec handleDispatched
  dsimp only
  rw [isAgent_childNoDna, if_pos rfl, if_neg]
  · rfl
  · rcases hprinted with hsuccess | hconfirm
    · simp [hsuccess]
    · simp [hconfirm]

/-- A failure is on the other stream. -/
theorem exec_failed (noDna : Option (List CodeUnit))
    (hfailed : ¬ (d.result.success = true ∨ d.result.requiresConfirmation = true)) :
    ∃ stderr, exec (childNoDna noDna) d = .ok { stdout := d.printed.text, stderr } := by
  rw [not_or, Bool.not_eq_true, Bool.not_eq_true] at hfailed
  unfold exec handleDispatched
  dsimp only
  rw [isAgent_childNoDna, if_pos rfl, hfailed.1, hfailed.2, if_pos (by decide)]
  refine ⟨(agentError d.now d.action (agentPayload d)).stderr, congrArg Except.ok ?_⟩
  have hnothing : (agentError d.now d.action (agentPayload d)).stdout = [] := rfl
  dsimp only
  rw [hnothing, List.append_nil]

theorem executeRaw_ok (timeout : Decimal) (command now stdout stderr : List CodeUnit) :
    executeRaw timeout command now { stdout, stderr } =
      parseResponse (FlashEdge.trim stdout) command now := rfl

/-- White space is taken away before the line and behind it. -/
theorem trim_line {line rest inner : List CodeUnit} (before : List CodeUnit)
    (hbegin : line = unit '{' :: rest) (hend : line = inner ++ [unit '}']) :
    FlashEdge.trim (before ++ (line ++ [0x0A])) = before.dropWhile isTrimmed ++ line := by
  have hstart : (before ++ (line ++ [0x0A])).dropWhile isTrimmed =
      before.dropWhile isTrimmed ++ (line ++ [0x0A]) := by
    rw [List.dropWhile_append]
    split
    · next hempty =>
      rw [List.isEmpty_iff.mp hempty, hbegin]
      rfl
    · rfl
  unfold FlashEdge.trim
  rw [hstart, hend]
  have hreverse : (before.dropWhile isTrimmed ++ (inner ++ [unit '}'] ++ [0x0A])).reverse =
      0x0A :: unit '}' :: (before.dropWhile isTrimmed ++ inner).reverse := by
    simp
  rw [hreverse, List.dropWhile_cons_of_pos (by decide), List.dropWhile_cons_of_neg (by decide),
    List.reverse_cons, List.reverse_reverse, List.append_assoc]

/-- Progress is not taken for a response. -/
theorem parseResponse_progress (printed : Progress) (command now : List CodeUnit) :
    parseResponse (FlashEdge.trim printed.text) command now =
      .error (flashParseError command (FlashEdge.trim printed.text)) := by
  have hbrace : unit '}' ∉ FlashEdge.trim printed.text := by
    intro hmem
    apply printed.noBrace
    unfold FlashEdge.trim at hmem
    rw [List.mem_reverse] at hmem
    have hmem := (List.dropWhile_sublist _).mem hmem
    rw [List.mem_reverse] at hmem
    exact (List.dropWhile_sublist _).mem hmem
  have hlast : lastObject (FlashEdge.trim printed.text) = FlashEdge.trim printed.text := by
    unfold lastObject
    have hnothing : ((FlashEdge.trim printed.text).reverse.dropWhile fun c =>
        decide (c ≠ unit '}')) = [] := by
      rw [List.dropWhile_eq_nil_iff]
      intro c hc
      rw [List.mem_reverse] at hc
      apply decide_eq_true
      rintro rfl
      exact hbrace hc
    dsimp only
    rw [hnothing]
    rfl
  unfold parseResponse
  rw [hlast, printed.noJson]
  split
  · rfl
  · rfl

/-! ## The exact condition -/

/-- **Answers for the SDK.** What the SDK returns has the success and the data of a result
exactly when the result is readable. -/
theorem understood_iff (noDna : Option (List CodeUnit)) (d : Dispatch) :
    Understood noDna d ↔ Readable d := by
  by_cases hprinted : d.result.success = true ∨ d.result.requiresConfirmation = true
  · obtain ⟨rest, hbegin⟩ : ∃ rest, jsonLine d.payload = unit '{' :: rest :=
      Json.printLine_object_begin _
    obtain ⟨inner, hend⟩ : ∃ inner, jsonLine d.payload = inner ++ [unit '}'] :=
      Json.printLine_object_end _
    have hparse : Json.parse (jsonLine d.payload) = some (.object (fieldsToJson d.payload)) :=
      Json.parse_printLine _
    have hexec := exec_printed noDna hprinted
    have hraw := trim_line d.printed.text hbegin hend
    have hne : d.printed.text.dropWhile isTrimmed ++ jsonLine d.payload ≠ [] := by
      rw [hbegin]
      simp
    by_cases hfound : ParsedResponses.FoundBehind (d.printed.text.dropWhile isTrimmed)
        (jsonLine d.payload)
    · have hlast := ParsedResponses.parse_lastObject hend hparse hfound
      have hread : ∀ timeout command now, executeRaw timeout command now
          { stdout := d.printed.text ++ (jsonLine d.payload ++ [0x0A]) } =
            .ok (d.response command now) := by
        intro timeout command now
        rw [executeRaw_ok, hraw]
        exact ParsedResponses.parseResponse_of_parse hne hlast command now
      constructor
      · intro hunderstood
        obtain ⟨result, response, hresult, hresponse, hsuccess, hdata⟩ :=
          hunderstood (.ofScaled false 0 0) [] []
        obtain rfl := Except.ok.inj (hexec.symm.trans hresult)
        obtain rfl := Except.ok.inj ((hread _ _ _).symm.trans hresponse)
        refine ⟨hprinted, ?_, contains_iff.mp hdata, hfound⟩
        have hsame : d.given (units "success") = some (.bool true) ↔
            (d.response [] []).success = true := response_success.symm
        rw [hsame, hsuccess]
      · intro hgood timeout command now
        refine ⟨_, _, hexec, hread timeout command now, ?_, contains_iff.mpr hgood.data⟩
        rw [Bool.eq_iff_iff, response_success]
        exact hgood.success
    · have hlost := ParsedResponses.parse_lastObject_none hbegin hend hparse hfound
      refine iff_of_false (fun hunderstood => ?_) fun hgood => hfound hgood.found
      obtain ⟨result, response, hresult, hresponse, -⟩ := hunderstood (.ofScaled false 0 0) [] []
      obtain rfl := Except.ok.inj (hexec.symm.trans hresult)
      rw [executeRaw_ok, hraw, ParsedResponses.parseResponse_of_none hne hlost] at hresponse
      cases hresponse
  · refine iff_of_false (fun hunderstood => ?_) fun hgood => hprinted hgood.printed
    obtain ⟨stderr, hexec⟩ := exec_failed noDna hprinted
    obtain ⟨result, response, hresult, hresponse, -⟩ := hunderstood (.ofScaled false 0 0) [] []
    obtain rfl := Except.ok.inj (hexec.symm.trans hresult)
    rw [executeRaw_ok, parseResponse_progress] at hresponse
    cases hresponse

/-! ## A command that only reads -/

/-- The positions of a wallet that has none. -/
def noPositions : Dispatch where
  action := units "get_positions"
  result := { success := true, message := units "\n  No open positions.\n", data := none }
  executed := .error []
  printed := { text := [], noBrace := by simp, noJson := by decide +kernel }
  now := units "2026-01-01T00:00:00.000Z"

/-- The SDK returns a failure. -/
theorem not_understood : ¬ ∀ noDna d, Understood noDna d := by
  intro hall
  obtain ⟨result, response, hresult, hresponse, hsuccess, -⟩ :=
    hall none noPositions (.ofScaled false 0 0) [] []
  have hfailed : ((exec (childNoDna none) noPositions).toOption.bind fun result =>
      ((executeRaw (.ofScaled false 0 0) [] [] result).toOption.map FlashResponse.success)) =
        some false := by
    decide +kernel
  rw [hresult] at hfailed
  simp only [Except.toOption, Option.bind_some] at hfailed
  rw [hresponse] at hfailed
  obtain hfalse := Option.some.inj hfailed
  rw [hsuccess] at hfalse
  exact absurd hfalse (by decide)

end Cli

end FlashEdge
