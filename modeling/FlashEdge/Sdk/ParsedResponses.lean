import FlashEdge.Sdk.FlashSdk
import FlashEdge.Theory.JsonExtent

/-!
# Whether the SDK reads back what the CLI printed

The CLI prints its response last, behind any other output, and `parseResponse` should
return what was printed (`ReadsBack`). It looks for the beginning of the response by
counting braces from the end, and counts the braces inside strings as well: one
opening brace in an error message is enough (`not_readsBack`).

`readsBack_iff` is the exact condition. The braces have to balance at the beginning
of the response and not before; or they balance nowhere, because its strings hold
more closing than opening braces, and nothing but white space stands before it, so
that the whole output parses. Besides, every number must be finite, as `NaN` and the
infinities are printed as `null`.
-/

namespace FlashEdge

/-- A response as the SDK would return it. -/
def JsonResponse.toFlashResponse (r : JsonResponse) : FlashResponse :=
  { success := r.success, command := r.command, timestamp := r.timestamp, version := r.version,
    data := .object r.data, error := r.errorData }

/-- Every number in the response is finite. -/
def JsonResponse.isFinite (r : JsonResponse) : Bool :=
  (JsonData.object r.data).isFinite && r.errorData.isFinite

/-- How many closing braces more than opening ones. -/
def excess (text : List CodeUnit) : ℤ :=
  (text.count (unit '}') : ℤ) - text.count (unit '{')

namespace ParsedResponses

/-- The response is what the SDK makes of the output. -/
def ReadsBack (before : List CodeUnit) (r : JsonResponse) : Prop :=
  ∀ command now, parseResponse (before ++ jsonStringify r) command now = .ok r.toFlashResponse

/-- Counted from the end, the braces balance for the first time at the beginning of
the response; or nowhere, and only white space stands before it. -/
structure Found (before : List CodeUnit) (r : JsonResponse) : Prop where
  inside : ∀ pre post, jsonStringify r = pre ++ post → pre ≠ [] → post ≠ [] → excess post ≠ 0
  outside : excess (jsonStringify r) = 0 ∨ Json.Blank before

/-! ## A brace in a string -/

/-- A failed command whose message holds an opening brace. -/
def braceInMessage : JsonResponse :=
  jsonError (units "2026-01-01T00:00:00.000Z") (units "open") (units "TRADE_FAILED")
    (units "Unexpected token \x7b") []

/-- The SDK does not find the response. -/
theorem not_readsBack : ¬ ∀ before r, ReadsBack before r := by
  intro hall
  have hread := hall [] braceInMessage [] []
  have herror : (parseResponse ([] ++ jsonStringify braceInMessage) [] []).toBool = false := by
    decide +kernel
  rw [hread] at herror
  cases herror

/-! ## Counting braces -/

theorem excess_nil : excess [] = 0 := rfl

theorem excess_append (a b : List CodeUnit) : excess (a ++ b) = excess a + excess b := by
  unfold excess
  rw [List.count_append, List.count_append]
  push_cast
  ring

theorem excess_reverse (a : List CodeUnit) : excess a.reverse = excess a := by
  unfold excess
  rw [List.count_reverse, List.count_reverse]

theorem excess_close : excess [unit '}'] = 1 := by decide

/-- The unit at which the walk stands changes the depth by its own excess. -/
theorem depth_eq (depth : ℤ) (c : CodeUnit) :
    (if c = unit '}' then depth + 1 else if c = unit '{' then depth - 1 else depth) =
      depth + excess [c] := by
  unfold excess
  by_cases hclose : c = unit '}'
  · subst hclose
    simp [show unit '}' ≠ unit '{' by decide]
  by_cases hopen : c = unit '{'
  · subst hopen
    simp [show unit '{' ≠ unit '}' by decide]
    ring
  · simp [hclose, hopen]

theorem matchingBrace_cons (depth : ℤ) (c : CodeUnit) (before : List CodeUnit) :
    matchingBrace depth (c :: before) =
      if depth + excess [c] = 0 then some 1
      else (matchingBrace (depth + excess [c]) before).map (· + 1) := by
  rw [matchingBrace, depth_eq]

/-- The walk ends without a match when the braces balance nowhere. -/
theorem matchingBrace_none {depth : ℤ} {text : List CodeUnit}
    (hnone : matchingBrace depth text = none) {a b : List CodeUnit} (hsplit : text = a ++ b)
    (hne : a ≠ []) : depth + excess a ≠ 0 := by
  induction text generalizing depth a with
  | nil => exact absurd (List.append_eq_nil_iff.mp hsplit.symm).1 hne
  | cons c text ih =>
    rw [matchingBrace_cons] at hnone
    split at hnone
    · cases hnone
    next hdepth =>
    have hrest := Option.map_eq_none_iff.mp hnone
    obtain ⟨d, a, rfl⟩ := List.exists_cons_of_ne_nil hne
    obtain ⟨rfl, htext⟩ := List.cons.inj hsplit
    rw [show c :: a = [c] ++ a from rfl, excess_append, ← add_assoc]
    by_cases ha : a = []
    · rw [ha, excess_nil, add_zero]
      exact hdepth
    · exact ih hrest htext ha

/-- The walk ends where the braces balance for the first time. -/
theorem matchingBrace_some {depth : ℤ} {text : List CodeUnit} {n : ℕ}
    (hsome : matchingBrace depth text = some n) :
    ∃ a b, text = a ++ b ∧ a.length = n ∧ a ≠ [] ∧ depth + excess a = 0 ∧
      ∀ a₁ a₂, a = a₁ ++ a₂ → a₁ ≠ [] → a₂ ≠ [] → depth + excess a₁ ≠ 0 := by
  induction text generalizing depth n with
  | nil => cases hsome
  | cons c text ih =>
    rw [matchingBrace_cons] at hsome
    split at hsome
    · next hdepth =>
      cases hsome
      refine ⟨[c], text, rfl, rfl, List.cons_ne_nil _ _, hdepth, fun a₁ a₂ hsplit h₁ h₂ => ?_⟩
      have hlen := congrArg List.length hsplit
      rw [List.length_append, List.length_singleton] at hlen
      have h₁' := List.length_pos_iff.mpr h₁
      have h₂' := List.length_pos_iff.mpr h₂
      omega
    · next hdepth =>
      obtain ⟨m, hm, rfl⟩ := Option.map_eq_some_iff.mp hsome
      obtain ⟨a, b, rfl, rfl, hne, hzero, hfirst⟩ := ih hm
      refine ⟨c :: a, b, rfl, rfl, List.cons_ne_nil _ _, ?_, fun a₁ a₂ hsplit h₁ h₂ => ?_⟩
      · rw [show c :: a = [c] ++ a from rfl, excess_append, ← add_assoc]
        exact hzero
      · obtain ⟨d, a₁, rfl⟩ := List.exists_cons_of_ne_nil h₁
        obtain ⟨rfl, hrest⟩ := List.cons.inj hsplit
        rw [show c :: a₁ = [c] ++ a₁ from rfl, excess_append, ← add_assoc]
        by_cases ha : a₁ = []
        · rw [ha, excess_nil, add_zero]
          exact hdepth
        · exact hfirst a₁ a₂ hrest ha h₂

/-- From a closing brace on, the depth stays positive as long as it is not zero. -/
theorem excess_pos {a : List CodeUnit}
    (hfirst : ∀ a₁ a₂, unit '}' :: a = a₁ ++ a₂ → a₁ ≠ [] → excess a₁ ≠ 0) :
    0 < excess (unit '}' :: a) := by
  induction a using List.reverseRecOn with
  | nil => rw [excess_close]; exact one_pos
  | append_singleton a c ih =>
    have hbefore := ih fun a₁ a₂ hsplit hne =>
      hfirst a₁ (a₂ ++ [c]) (by rw [← List.cons_append, hsplit, List.append_assoc]) hne
    have hnow : excess (unit '}' :: (a ++ [c])) ≠ 0 := by
      refine hfirst (unit '}' :: (a ++ [c])) [] ?_ (List.cons_ne_nil _ _)
      rw [List.append_nil]
    rw [← List.cons_append, excess_append] at hnow ⊢
    have hstep : -1 ≤ excess [c] := by
      unfold excess
      by_cases hopen : c = unit '{'
      · subst hopen
        decide
      · rw [List.count_singleton, List.count_singleton]
        simp [hopen]
        split <;> norm_num
    omega

/-- Where the braces balance for the first time, counted from a closing brace at the
end, there is an opening brace. -/
theorem last_eq_open {a : List CodeUnit} {c : CodeUnit} (hhead : (a ++ [c]).head? = some (unit '}'))
    (hzero : excess (a ++ [c]) = 0)
    (hfirst : ∀ a₁ a₂, a ++ [c] = a₁ ++ a₂ → a₁ ≠ [] → a₂ ≠ [] → excess a₁ ≠ 0) :
    c = unit '{' := by
  by_contra hopen
  have hc : 0 ≤ excess [c] := by
    unfold excess
    rw [List.count_singleton, List.count_singleton]
    simp [hopen]
    split <;> norm_num
  cases a with
  | nil =>
    obtain rfl : c = unit '}' := by simpa using hhead
    rw [List.nil_append, excess_close] at hzero
    cases hzero
  | cons d a =>
    obtain rfl : d = unit '}' := by simpa using hhead
    have hpos : 0 < excess (unit '}' :: a) := by
      refine excess_pos fun a₁ a₂ hsplit hne => hfirst a₁ (a₂ ++ [c]) ?_ hne (by simp)
      rw [hsplit, List.append_assoc]
    rw [excess_append] at hzero
    omega

/-! ## Where the response is looked for -/

/-- The braces of a printed response balance only at its beginning, if at all. -/
def BalancesOnlyAtStart (text : List CodeUnit) : Prop :=
  ∀ pre post, text = pre ++ post → pre ≠ [] → post ≠ [] → excess post ≠ 0

/-- What is taken for the response at the end of some output. -/
inductive LastObject (before text : List CodeUnit) : List CodeUnit → Prop where
  /-- A part of the response, from an opening brace in it on. -/
  | inside (pre post : List CodeUnit) (split : text = pre ++ unit '{' :: post) (ne : pre ≠ [])
      (balance : excess (unit '{' :: post) = 0) : LastObject before text (unit '{' :: post)
  /-- The response. -/
  | exact (balance : excess text = 0) (only : BalancesOnlyAtStart text) :
      LastObject before text text
  /-- More than the response, from an opening brace before it on. -/
  | beyond (pre post : List CodeUnit) (split : before = pre ++ unit '{' :: post)
      (balance : excess text ≠ 0) : LastObject before text (unit '{' :: post ++ text)
  /-- All of the output. -/
  | all (balance : excess text ≠ 0) (only : BalancesOnlyAtStart text) :
      LastObject before text (before ++ text)

theorem lastObject_cases (before : List CodeUnit) {text inner : List CodeUnit}
    (htext : text = inner ++ [unit '}']) :
    LastObject before text (lastObject (before ++ text)) := by
  have hreverse : (before ++ text).reverse.dropWhile (fun c => decide (c ≠ unit '}')) =
      (before ++ text).reverse := by
    rw [htext]
    simp
  have hhead : (before ++ text).reverse = unit '}' :: (before ++ inner).reverse := by
    rw [htext]
    simp
  unfold lastObject
  dsimp only
  rw [hreverse]
  cases hmatch : matchingBrace 0 (before ++ text).reverse with
  | none =>
    have hnever : ∀ pre post, before ++ text = pre ++ post → post ≠ [] → excess post ≠ 0 := by
      intro pre post hsplit hne
      have hdepth := matchingBrace_none hmatch
        (show (before ++ text).reverse = post.reverse ++ pre.reverse by
          rw [hsplit, List.reverse_append]) (by simpa using hne)
      rwa [zero_add, excess_reverse] at hdepth
    refine .all (hnever before text rfl (by rw [htext]; simp)) fun pre post hsplit _ hne => ?_
    exact hnever (before ++ pre) post (by rw [hsplit, List.append_assoc]) hne
  | some n =>
    obtain ⟨a, b, hsplit, rfl, hne, hzero, hfirst⟩ := matchingBrace_some hmatch
    rw [zero_add] at hzero
    simp only [zero_add] at hfirst
    show LastObject before text ((before ++ text).reverse.take a.length).reverse
    rw [hsplit, List.take_left]
    -- the part found begins with an opening brace
    have hopen : ∃ c post, a.reverse = c :: post := List.exists_cons_of_ne_nil (by simpa using hne)
    obtain ⟨c, post, hpost⟩ := hopen
    have ha : a = post.reverse ++ [c] := by
      rw [← List.reverse_reverse a, hpost, List.reverse_cons]
    have hc : c = unit '{' := by
      refine last_eq_open ?_ (ha ▸ hzero) (ha ▸ hfirst)
      have hahead : (a ++ b).head? = some (unit '}') := by
        rw [← hsplit, hhead]
        rfl
      rw [← ha]
      cases a with
      | nil => exact absurd rfl hne
      | cons d a => exact hahead
    subst hc
    have hall : before ++ text = b.reverse ++ unit '{' :: post := by
      rw [← hpost, ← List.reverse_append, ← hsplit, List.reverse_reverse]
    have hbalance : excess (unit '{' :: post) = 0 := by
      rw [← hpost, excess_reverse]
      exact hzero
    have honly : ∀ pre post', unit '{' :: post = pre ++ post' → pre ≠ [] → post' ≠ [] →
        excess post' ≠ 0 := by
      intro pre post' hcut hpre hpost'
      have hdepth := hfirst post'.reverse pre.reverse
        (by rw [← List.reverse_append, ← hcut, ← hpost, List.reverse_reverse])
        (by simpa using hpost') (by simpa using hpre)
      rwa [excess_reverse] at hdepth
    rw [hpost]
    rcases List.append_eq_append_iff.mp hall with ⟨pre, -, htext'⟩ | ⟨pre, hbefore, hpost'⟩
    · by_cases hpre : pre = []
      · subst hpre
        obtain rfl : text = unit '{' :: post := htext'
        exact .exact hbalance honly
      · exact .inside pre post htext' hpre hbalance
    · cases pre with
      | nil =>
        obtain rfl : unit '{' :: post = text := hpost'
        exact .exact hbalance honly
      | cons d pre =>
        obtain ⟨rfl, rfl⟩ := List.cons.inj hpost'
        refine .beyond b.reverse pre hbefore (honly (unit '{' :: pre) text rfl ?_ ?_)
        · exact List.cons_ne_nil _ _
        · rw [htext]
          simp

/-- Counted from the end, the braces of a text balance for the first time at its
beginning; or nowhere, and only white space stands before it. -/
structure FoundBehind (before text : List CodeUnit) : Prop where
  inside : BalancesOnlyAtStart text
  outside : excess text = 0 ∨ Json.Blank before

section LastObject

variable {before text inner rest : List CodeUnit} {v : Json}

theorem parse_lastObject (hend : text = inner ++ [unit '}'])
    (hparse : Json.parse text = some v) (hfound : FoundBehind before text) :
    Json.parse (lastObject (before ++ text)) = some v := by
  generalize hlast : lastObject (before ++ text) = last
  have hcases := hlast ▸ lastObject_cases before hend
  cases hcases with
  | inside pre post hsplit hpre hbalance =>
    exact absurd hbalance (hfound.inside pre _ hsplit hpre (List.cons_ne_nil _ _))
  | exact hbalance honly => exact hparse
  | beyond pre post hsplit hbalance =>
    -- what stands before is white space, and no brace
    have hblank := hfound.outside.resolve_left hbalance
    have hbrace : Json.isSpace (unit '{') = true := by
      apply hblank
      rw [hsplit]
      exact List.mem_append_right _ List.mem_cons_self
    exact absurd hbrace (by decide)
  | all hbalance honly =>
    rw [Json.parse_blank_append (hfound.outside.resolve_left hbalance)]
    exact hparse

/-- Otherwise the part that is taken for the object does not parse. -/
theorem parse_lastObject_none (hbegin : text = unit '{' :: rest)
    (hend : text = inner ++ [unit '}']) (hparse : Json.parse text = some v)
    (hlost : ¬ FoundBehind before text) : Json.parse (lastObject (before ++ text)) = none := by
  have hnever : ∀ part, ¬ Json.Blank part → Json.parse (part ++ text) = none := by
    intro part hpart
    by_contra hsome
    obtain ⟨w, hw⟩ := Option.ne_none_iff_exists'.mp hsome
    rw [hbegin] at hw hparse
    exact hpart (Json.blank_of_parse hparse hw)
  have hopen : ∀ post : List CodeUnit, ¬ Json.Blank (unit '{' :: post) := by
    intro post hblank
    exact absurd (hblank _ List.mem_cons_self) (by decide)
  generalize hlast : lastObject (before ++ text) = last
  have hcases := hlast ▸ lastObject_cases before hend
  cases hcases with
  | inside pre post hsplit hpre hbalance =>
    by_contra hsome
    obtain ⟨w, hw⟩ := Option.ne_none_iff_exists'.mp hsome
    have hblank : Json.Blank pre := Json.blank_of_parse hw (hsplit ▸ hparse)
    -- but the text begins with a brace
    rw [hbegin] at hsplit
    cases pre with
    | nil => exact hpre rfl
    | cons c pre =>
      obtain ⟨rfl, -⟩ := List.cons.inj hsplit
      exact hopen pre hblank
  | exact hbalance honly => exact absurd ⟨honly, .inl hbalance⟩ hlost
  | beyond pre post hsplit hbalance => exact hnever _ (hopen post)
  | all hbalance honly =>
    apply hnever
    intro hblank
    exact hlost ⟨honly, .inr hblank⟩

end LastObject

/-! ## Reading it -/

mutual

/-- Printing and parsing keeps data exactly when its numbers are finite. -/
theorem ofJson_toJson : ∀ d : JsonData, .ofJson d.toJson = d ↔ d.isFinite = true
  | .null => by simp [JsonData.toJson, JsonData.ofJson, JsonData.isFinite]
  | .bool b => by simp [JsonData.toJson, JsonData.ofJson, JsonData.isFinite]
  | .number n => by simp [JsonData.toJson, JsonData.ofJson, JsonData.isFinite]
  | .notFinite => by simp [JsonData.toJson, JsonData.ofJson, JsonData.isFinite]
  | .string s => by simp [JsonData.toJson, JsonData.ofJson, JsonData.isFinite]
  | .array items => by
    have hitems := itemsOfJson_toJson items
    simp [JsonData.toJson, JsonData.ofJson, JsonData.isFinite, hitems]
  | .object fields => by
    have hfields := fieldsOfJson_toJson fields
    simp [JsonData.toJson, JsonData.ofJson, JsonData.isFinite, hfields]

theorem itemsOfJson_toJson : ∀ items : List JsonData,
    JsonData.itemsOfJson (JsonData.itemsToJson items) = items ↔
      JsonData.itemsFinite items = true
  | [] => by simp [JsonData.itemsToJson, JsonData.itemsOfJson, JsonData.itemsFinite]
  | item :: items => by
    have hitem := ofJson_toJson item
    have hitems := itemsOfJson_toJson items
    simp [JsonData.itemsToJson, JsonData.itemsOfJson, JsonData.itemsFinite, hitem, hitems]

theorem fieldsOfJson_toJson : ∀ fields : List (List CodeUnit × JsonData),
    JsonData.fieldsOfJson (JsonData.fieldsToJson fields) = fields ↔
      JsonData.fieldsFinite fields = true
  | [] => by simp [JsonData.fieldsToJson, JsonData.fieldsOfJson, JsonData.fieldsFinite]
  | (key, value) :: fields => by
    have hvalue := ofJson_toJson value
    have hfields := fieldsOfJson_toJson fields
    simp [JsonData.fieldsToJson, JsonData.fieldsOfJson, JsonData.fieldsFinite, hvalue, hfields]

end

/-- The members of a printed response are found under their names. -/
theorem responseOf_toJson (r : JsonResponse) (command now : List CodeUnit) :
    responseOf command now r.toData.toJson =
      { success := r.success, command := r.command, timestamp := r.timestamp,
        version := r.version, data := .ofJson (JsonData.object r.data).toJson,
        error := .ofJson r.errorData.toJson } := by
  have hsuccess : r.toData.toJson.get? (units "success") = some (.bool r.success) := rfl
  have hcommand : r.toData.toJson.get? (units "command") = some (.string r.command) := rfl
  have htimestamp : r.toData.toJson.get? (units "timestamp") = some (.string r.timestamp) := rfl
  have hversion : r.toData.toJson.get? (units "version") = some (.string r.version) := rfl
  have hdata : r.toData.toJson.get? (units "data") =
      some (JsonData.object r.data).toJson := rfl
  have herror : r.toData.toJson.get? (units "error") = some r.errorData.toJson := rfl
  unfold responseOf stringMember memberOr
  rw [hsuccess, hcommand, htimestamp, hversion, hdata, herror]
  cases hkind : r.error <;> simp [JsonResponse.errorData, JsonError.toData, hkind,
    JsonData.toJson, JsonData.ofJson]

/-- The response that was parsed is the one that was printed. -/
theorem responseOf_eq_iff (r : JsonResponse) (command now : List CodeUnit) :
    responseOf command now r.toData.toJson = r.toFlashResponse ↔ r.isFinite = true := by
  rw [responseOf_toJson]
  unfold JsonResponse.toFlashResponse JsonResponse.isFinite
  rw [FlashResponse.mk.injEq, Bool.and_eq_true, ← ofJson_toJson, ← ofJson_toJson]
  tauto

/-! ## The exact condition -/

/-- The output is read back when its last object parses. -/
theorem parseResponse_of_parse {raw : List CodeUnit} {fields : List (List CodeUnit × Json)}
    (hne : raw ≠ []) (hparse : Json.parse (lastObject raw) = some (.object fields))
    (command now : List CodeUnit) :
    parseResponse raw command now = .ok (responseOf command now (.object fields)) := by
  unfold parseResponse
  rw [if_neg hne, hparse]

theorem parseResponse_of_none {raw : List CodeUnit} (hne : raw ≠ [])
    (hparse : Json.parse (lastObject raw) = none) (command now : List CodeUnit) :
    parseResponse raw command now = .error (flashParseError command raw) := by
  unfold parseResponse
  rw [if_neg hne, hparse]

theorem found_iff (before : List CodeUnit) (r : JsonResponse) :
    Found before r ↔ FoundBehind before (jsonStringify r) :=
  ⟨fun hfound => ⟨hfound.inside, hfound.outside⟩, fun hfound => ⟨hfound.inside, hfound.outside⟩⟩

/-- **What the SDK reads back.** Behind some output, a printed response is returned as
it was exactly when its numbers are finite and its braces, counted from the end, either
balance for the first time at its beginning, or nowhere with only white space before
it. -/
theorem readsBack_iff (before : List CodeUnit) (r : JsonResponse) :
    ReadsBack before r ↔ r.isFinite = true ∧ Found before r := by
  obtain ⟨field, fields, hobject⟩ : ∃ field fields,
      r.toData.toJson = .object (field :: fields) := ⟨_, _, rfl⟩
  obtain ⟨rest, hbegin⟩ : ∃ rest, jsonStringify r = unit '{' :: rest := ⟨_, rfl⟩
  obtain ⟨inner, hend⟩ : ∃ inner, jsonStringify r = inner ++ [unit '}'] := by
    unfold jsonStringify
    rw [hobject]
    exact ⟨_, rfl⟩
  have hparse : Json.parse (jsonStringify r) = some r.toData.toJson := Json.parse_print _
  have hne : before ++ jsonStringify r ≠ [] := by
    rw [hbegin]
    simp
  rw [found_iff]
  by_cases hfound : FoundBehind before (jsonStringify r)
  · have hlast := parse_lastObject hend hparse hfound
    have hread : ∀ command now, parseResponse (before ++ jsonStringify r) command now =
        .ok (responseOf command now r.toData.toJson) := by
      rw [hobject] at hlast ⊢
      exact parseResponse_of_parse hne hlast
    unfold ReadsBack
    simp only [hread, Except.ok.injEq, responseOf_eq_iff]
    exact ⟨fun hall => ⟨hall [] [], hfound⟩, fun hgood _ _ => hgood.1⟩
  · have hlost := parse_lastObject_none hbegin hend hparse hfound
    refine iff_of_false (fun hall => ?_) fun hgood => hfound hgood.2
    have hback := hall [] []
    rw [parseResponse_of_none hne hlost] at hback
    cases hback

end ParsedResponses

end FlashEdge
