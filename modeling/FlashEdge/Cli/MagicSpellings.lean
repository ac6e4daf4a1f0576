import FlashEdge.Ai.CaseFolding
import FlashEdge.Cli.MagicDispatcher
import FlashEdge.Sdk.CommandRoundTrip

/-!
# Magic commands in capitals

The branch of a magic command is chosen by its first word in small letters, and the texts that go
to a parser are read in any case. But a side that is read from its own word, and the words `sl`,
`stop-loss` and `cancel-sl`, are compared as they were typed.

- `Respelled`: another case of the letters of the first word, the side and the names.
- `Same`: the same call up to the case of the names, or no call.
- `ReadsSide`, `ReadsStop`: the commands in which the word of the side, or the first word, decides.
- `side_iff`: a side that is read from its word.
- `same_iff`: which spellings of a command have the same meaning.
-/

namespace FlashEdge

namespace Magic

open Pattern Interpreter
open NumberText (value)

/-- The call with its names in small letters. -/
def MagicCall.lowered : MagicCall → MagicCall
  | magicSettle symbol => .magicSettle (symbol.map lowerCase)
  | magicPrice market => .magicPrice (lowerCase market)
  | magicDeposit token amount => .magicDeposit (lowerCase token) amount
  | magicWithdraw token amount => .magicWithdraw (lowerCase token) amount
  | magicOpen market side collateral leverage =>
    .magicOpen (lowerCase market) side collateral leverage
  | magicClose market side => .magicClose (lowerCase market) side
  | magicAddCollateral market side amount => .magicAddCollateral (lowerCase market) side amount
  | magicPartialClose market side sizeUsd => .magicPartialClose (lowerCase market) side sizeUsd
  | magicPlaceLimit market side limitPrice collateral leverage tp sl =>
    .magicPlaceLimit (lowerCase market) side limitPrice collateral leverage tp sl
  | magicCancelLimit market side orderId => .magicCancelLimit (lowerCase market) side orderId
  | magicCancelTrigger market orderId isStopLoss =>
    .magicCancelTrigger (lowerCase market) orderId isStopLoss
  | magicLiquidate positionOwner market side =>
    .magicLiquidate positionOwner (lowerCase market) side
  | magicReverse market side collateral leverage =>
    .magicReverse (lowerCase market) side collateral leverage
  | magicIncrease market side sizeUsd addCollateralUsd =>
    .magicIncrease (lowerCase market) side sizeUsd addCollateralUsd
  | magicTriggerOrder market side price isStopLoss sizeUsd =>
    .magicTriggerOrder (lowerCase market) side price isStopLoss sizeUsd
  | magicRemoveCollateral market side amount =>
    .magicRemoveCollateral (lowerCase market) side amount
  | call => call

/-- The call, if the command is not refused. -/
def Resolved.call? : Resolved → Option MagicCall
  | .tool call => some call
  | .error _ => none

/-- The same call up to the case of the names, or no call. -/
def Same (a b : Resolved) : Prop := a.call?.map MagicCall.lowered = b.call?.map MagicCall.lowered

instance (a b : Resolved) : Decidable (Same a b) := by
  unfold Same
  infer_instance

/-! ## Spellings -/

/-- The places of the first word, the side and the names. In a text that goes to a parser they may
stand anywhere; behind the side of a collateral command stands the amount. -/
def namePlace (parts : List (List Char)) (i : ℕ) : Bool :=
  i = 0 ||
    match subCommand parts with
    | some .open | some .close | some .reverse => true
    | some .add | some .remove => i ≠ 3 || (readSide (lowerCase (part parts 2))).isNone
    | some .settle | some .price | some .markets | some .deposit | some .withdraw => i = 1
    | some .cancelTrigger => i = 1
    | some .partialClose | some .limit | some .cancelLimit | some .increase
    | some .triggerOrder => i = 1 || i = 2
    | some .liquidate => i = 2 || i = 3
    | _ => false

/-- Another case of the letters of the first word, the side and the names. -/
structure Respelled (parts parts' : List (List Char)) : Prop where
  length : parts.length = parts'.length
  letters : ∀ i, lowerCase (part parts i) = lowerCase (part parts' i)
  others : ∀ i, namePlace parts i = false → part parts i = part parts' i

/-- The word of the side. -/
def sideOf (parts : List (List Char)) : List Char :=
  part parts (if subCommand parts = some .liquidate then 3 else 2)

/-- The command reads its side from its word, and all else is in order. -/
def ReadsSide (data : ParserData) (parts : List (List Char)) : Prop :=
  match subCommand parts with
  | some .close =>
    intentOf data .ClosePosition ("close ".toList ++ argString parts) = none ∧ 3 ≤ parts.length
  | some .add =>
    intentOf data .AddCollateral ("add".toList ++ ' ' :: argString parts) = none ∧
      4 ≤ parts.length ∧ isPositive (readAmount (part parts 3))
  | some .remove =>
    intentOf data .RemoveCollateral ("remove".toList ++ ' ' :: argString parts) = none ∧
      4 ≤ parts.length ∧ isPositive (readAmount (part parts 3))
  | some .partialClose | some .increase | some .triggerOrder =>
    4 ≤ parts.length ∧ isPositive (readAmount (part parts 3))
  | some .limit =>
    6 ≤ parts.length ∧ isPositive (readAmount (part parts 3)) ∧
      isPositive (readAmount (part parts 4)) ∧ isPositive (readLeverage (part parts 5))
  | some .cancelLimit => 4 ≤ parts.length ∧ isIndex (value (NumberText.parseInt (part parts 3)))
  | some .liquidate => 4 ≤ parts.length
  | _ => False

/-- The command reads from its first word whether a stop-loss is meant, and all else is in
order. -/
def ReadsStop (parts : List (List Char)) : Prop :=
  match subCommand parts with
  | some .cancelTrigger => 3 ≤ parts.length ∧ isIndex (value (NumberText.parseInt (part parts 2)))
  | some .triggerOrder =>
    4 ≤ parts.length ∧ isPositive (readAmount (part parts 3)) ∧ (readSide (part parts 2)).isSome
  | _ => False

/-- The first word is one for a stop-loss, in small letters. -/
def TypedStop (parts : List (List Char)) : Prop :=
  part parts 0 ∈ ["sl".toList, "stop-loss".toList, "cancel-sl".toList]

/-- The words that are compared as they were typed are the same for the comparison. -/
structure SameWords (data : ParserData) (parts parts' : List (List Char)) : Prop where
  side : ReadsSide data parts → readSide (sideOf parts) = readSide (sideOf parts')
  stop : ReadsStop parts → (TypedStop parts ↔ TypedStop parts')

/-! ## The calls of the branches -/

/-- The side is read, and then what is behind it. -/
theorem call_positional {length n : ℕ} {side : Option TradeSide} {good : Prop} [Decidable good]
    {few badSide bad : String} {call : TradeSide → MagicCall} :
    (if length < n then usage few
      else
        match side with
        | none => usage badSide
        | some side => if good then Resolved.tool (call side) else usage bad).call? =
      if n ≤ length ∧ good then side.map call else none := by
  by_cases hlength : length < n
  · rw [if_pos hlength, if_neg fun h => absurd h.1 (Nat.not_le_of_lt hlength)]
    rfl
  · rw [if_neg hlength]
    cases side with
    | none =>
      rw [Option.map_none, ite_self]
      rfl
    | some side =>
      dsimp only
      by_cases hgood : good
      · rw [if_pos hgood, if_pos ⟨Nat.le_of_not_lt hlength, hgood⟩]
        rfl
      · rw [if_neg hgood, if_neg fun h => hgood h.2]
        rfl

section Calls

variable (data : ParserData) (parts : List (List Char))

theorem call_close : (resolveClose parts data).call? =
    ((intentOf data .ClosePosition ("close ".toList ++ argString parts)).map fun p =>
      MagicCall.magicClose (intentMarket p) p.side).or
    (if 3 ≤ parts.length then
      (readSide (part parts 2)).map fun side => .magicClose (part parts 1) (some side)
    else none) := by
  unfold resolveClose
  cases intentOf data .ClosePosition ("close ".toList ++ argString parts) with
  | some p => rfl
  | none =>
    rw [Option.map_none, Option.none_or]
    cases hside : readSide (part parts 2) with
    | none => simp [Resolved.call?, usage]
    | some side =>
      by_cases hlength : 3 ≤ parts.length
      · simp [hlength, Resolved.call?]
      · simp [hlength, Resolved.call?, usage]

theorem call_collateral (verb : String) (action : ActionType)
    (call : List Char → Option TradeSide → JsNumber → MagicCall) (text : String) :
    (resolveCollateral parts data verb action call text).call? =
      ((intentOf data action (verb.toList ++ ' ' :: argString parts)).map fun p =>
        call (intentMarket p) p.side (intentNumber p.amount)).or
      (if 4 ≤ parts.length ∧ isPositive (readAmount (part parts 3)) then
        (readSide (part parts 2)).map fun side =>
          call (part parts 1) (some side) (readAmount (part parts 3))
      else none) := by
  unfold resolveCollateral
  cases intentOf data action (verb.toList ++ ' ' :: argString parts) with
  | some p => rfl
  | none =>
    rw [Option.map_none, Option.none_or]
    cases hside : readSide (part parts 2) with
    | none => simp [Resolved.call?, usage]
    | some side =>
      by_cases hgood : 4 ≤ parts.length ∧ isPositive (readAmount (part parts 3)) = true
      · simp [hgood, Resolved.call?]
      · simp [hgood, Resolved.call?, usage]

theorem call_partialClose : (resolvePartialClose parts).call? =
    if 4 ≤ parts.length ∧ isPositive (readAmount (part parts 3)) then
      (readSide (part parts 2)).map fun side =>
        .magicPartialClose (part parts 1) side (readAmount (part parts 3))
    else none := call_positional

theorem call_limit : (resolveLimit parts).call? =
    if 6 ≤ parts.length ∧ isPositive (readAmount (part parts 3)) ∧
        isPositive (readAmount (part parts 4)) ∧ isPositive (readLeverage (part parts 5)) then
      (readSide (part parts 2)).map fun side =>
        .magicPlaceLimit (part parts 1) side (readAmount (part parts 3))
          (readAmount (part parts 4)) (readLeverage (part parts 5))
          (((optionalPart parts 6).map readAmount).filter truthy)
          (((optionalPart parts 7).map readAmount).filter truthy)
    else none := call_positional

theorem call_cancelLimit : (resolveCancelLimit parts).call? =
    if 4 ≤ parts.length ∧ isIndex (value (NumberText.parseInt (part parts 3))) then
      (readSide (part parts 2)).map fun side =>
        .magicCancelLimit (part parts 1) side (value (NumberText.parseInt (part parts 3)))
    else none := call_positional

theorem call_liquidate : (resolveLiquidate parts).call? =
    if 4 ≤ parts.length then
      (readSide (part parts 3)).map fun side =>
        .magicLiquidate (part parts 1) (part parts 2) side
    else none := by
  unfold resolveLiquidate
  by_cases hlength : parts.length < 4
  · rw [if_pos hlength, if_neg (Nat.not_le_of_lt hlength)]
    rfl
  · rw [if_neg hlength, if_pos (Nat.le_of_not_lt hlength)]
    cases readSide (part parts 3) with
    | none => rfl
    | some side => rfl

theorem call_increase : (resolveIncrease parts).call? =
    if 4 ≤ parts.length ∧ isPositive (readAmount (part parts 3)) then
      (readSide (part parts 2)).map fun side =>
        .magicIncrease (part parts 1) side (readAmount (part parts 3))
          (((optionalPart parts 4).map readAmount).getD 0)
    else none := call_positional

theorem call_triggerOrder : (resolveTriggerOrder parts).call? =
    if 4 ≤ parts.length ∧ isPositive (readAmount (part parts 3)) then
      (readSide (part parts 2)).map fun side =>
        .magicTriggerOrder (part parts 1) side (readAmount (part parts 3))
          (part parts 0 = "sl".toList ∨ part parts 0 = "stop-loss".toList)
          (((optionalPart parts 4).map readAmount).filter truthy)
    else none := call_positional

theorem call_cancelTrigger : (resolveCancelTrigger parts).call? =
    if 3 ≤ parts.length ∧ isIndex (value (NumberText.parseInt (part parts 2))) then
      some (.magicCancelTrigger (part parts 1) (value (NumberText.parseInt (part parts 2)))
        (part parts 0 = "cancel-sl".toList))
    else none := by
  unfold resolveCancelTrigger
  by_cases hlength : parts.length < 3
  · rw [if_pos hlength, if_neg fun h => absurd h.1 (Nat.not_le_of_lt hlength)]
    rfl
  · rw [if_neg hlength]
    dsimp only
    by_cases hid : isIndex (value (NumberText.parseInt (part parts 2))) = true
    · rw [if_pos hid, if_pos ⟨Nat.le_of_not_lt hlength, hid⟩]
      rfl
    · rw [if_neg hid, if_neg fun h => hid h.2]
      rfl

end Calls

/-! ## Two spellings -/

theorem readSide_eq_some {w : List Char} {side : TradeSide} (h : readSide w = some side) :
    w = if side = .Long then "long".toList else "short".toList := by
  unfold readSide at h
  split at h
  · next hlong =>
    obtain rfl := Option.some.inj h
    exact hlong
  · split at h
    · next hshort =>
      obtain rfl := Option.some.inj h
      exact hshort
    · cases h

/-- Sides read from two spellings of a word are the same. -/
theorem readSide_unique {w w' : List Char} (hlower : lowerCase w = lowerCase w')
    {side side' : TradeSide} (h : readSide w = some side) (h' : readSide w' = some side') :
    side = side' := by
  rw [readSide_eq_some h, readSide_eq_some h'] at hlower
  revert hlower
  cases side with
  | Long =>
    cases side' with
    | Long => exact fun _ => rfl
    | Short => decide
  | Short =>
    cases side' with
    | Long => decide
    | Short => exact fun _ => rfl

/-- A word that is no side in small letters is none in any case. -/
theorem readSide_none {w w' : List Char} (hlower : lowerCase w = lowerCase w')
    (h : readSide (lowerCase w) = none) : readSide w' = none := by
  rw [hlower] at h
  cases hside : readSide w' with
  | none => rfl
  | some side =>
    rw [readSide_eq_some hside] at h
    revert h
    cases side with
    | Long => decide
    | Short => decide

/-- **A side that is read from its word**: with all else in order, both spellings are accepted or
neither is. -/
theorem side_iff {inOrder : Prop} [Decidable inOrder] {w w' : List Char}
    (hlower : lowerCase w = lowerCase w') {call call' : TradeSide → MagicCall}
    (hcall : inOrder → ∀ side, readSide w = some side → readSide w' = some side →
      (call side).lowered = (call' side).lowered) :
    ((if inOrder then (readSide w).map call else none).map MagicCall.lowered =
      (if inOrder then (readSide w').map call' else none).map MagicCall.lowered) ↔
    (inOrder → readSide w = readSide w') := by
  by_cases h : inOrder
  · rw [if_pos h, if_pos h]
    have hcall := hcall h
    have hunique : ∀ side side', readSide w = some side → readSide w' = some side' →
        side = side' := fun _ _ => readSide_unique hlower
    cases hw : readSide w with
    | none =>
      cases hw' : readSide w' with
      | none => exact ⟨fun _ _ => rfl, fun _ => rfl⟩
      | some side' => exact ⟨fun heq => (by cases heq), fun heq => (by cases heq h)⟩
    | some side =>
      cases hw' : readSide w' with
      | none => exact ⟨fun heq => (by cases heq), fun heq => (by cases heq h)⟩
      | some side' =>
        obtain rfl := hunique side side' hw hw'
        exact ⟨fun _ _ => rfl, fun _ => congrArg some (hcall side hw hw')⟩
  · rw [if_neg h, if_neg h]
    exact ⟨fun _ hin => absurd hin h, fun _ => rfl⟩

section Spellings

variable {parts parts' : List (List Char)}

theorem lowerCase_joinWords (ws : List (List Char)) :
    lowerCase (joinWords ws) = joinWords (ws.map lowerCase) := by
  induction ws with
  | nil => rfl
  | cons w ws ih =>
    cases ws with
    | nil => rw [List.map_singleton, joinWords_singleton, joinWords_singleton]
    | cons v ws =>
      rw [joinWords_cons, lowerCase_append, List.map_cons, List.map_cons, joinWords_cons]
      exact congrArg (lowerCase w ++ ' ' :: ·) ih

theorem map_lowerCase_of_respelled (h : Respelled parts parts') :
    parts.map lowerCase = parts'.map lowerCase := by
  refine List.ext_getElem (by simp [h.length]) fun i hi hi' => ?_
  have hletters := h.letters i
  have hin : i < parts.length := by simpa using hi
  have hin' : i < parts'.length := by simpa using hi'
  simpa [part, List.getD_eq_getElem?_getD, hin, hin'] using hletters

theorem lowerCase_argString (h : Respelled parts parts') :
    lowerCase (argString parts) = lowerCase (argString parts') := by
  unfold argString
  rw [lowerCase_joinWords, lowerCase_joinWords, List.map_drop, List.map_drop,
    map_lowerCase_of_respelled h]

theorem subCommand_respelled (h : Respelled parts parts') :
    subCommand parts' = subCommand parts := by
  unfold subCommand
  rw [h.letters 0]

theorem optionalPart_eq (parts : List (List Char)) (i : ℕ) :
    optionalPart parts i = if part parts i = [] then none else some (part parts i) := by
  unfold optionalPart part
  rw [List.getD_eq_getElem?_getD]
  cases parts[i]? with
  | none => rfl
  | some w =>
    by_cases hw : w = []
    · subst hw
      rfl
    · rw [Option.getD_some, if_neg hw]
      exact Option.filter_eq_some_iff.mpr ⟨rfl, decide_eq_true hw⟩

theorem optionalPart_respelled (h : Respelled parts parts') {i : ℕ}
    (hi : namePlace parts i = false) : optionalPart parts i = optionalPart parts' i := by
  rw [optionalPart_eq, optionalPart_eq, h.others i hi]

theorem optionalPart_letters (h : Respelled parts parts') (i : ℕ) :
    (optionalPart parts i).map lowerCase = (optionalPart parts' i).map lowerCase := by
  have hnil : part parts i = [] ↔ part parts' i = [] := by
    rw [← lowerCase_eq_nil_iff, h.letters i, lowerCase_eq_nil_iff]
  rw [optionalPart_eq, optionalPart_eq]
  by_cases hword : part parts i = []
  · rw [if_pos hword, if_pos (hnil.mp hword)]
  · rw [if_neg hword, if_neg (mt hnil.mpr hword)]
    exact congrArg some (h.letters i)

/-- A text that goes to the parser of the live mode. -/
theorem intentOf_respelled (data : ParserData) (h : Respelled parts parts') (verb : List Char)
    (action : ActionType) (hwallet : action.group ≠ .wallet) (hearn : action.group ≠ .earn)
    (hhelp : action ≠ .Help) :
    intentOf data action (verb ++ argString parts) =
      intentOf data action (verb ++ argString parts') := by
  refine localParse_spelling data hwallet hearn hhelp ?_
  rw [lowerCase_append, lowerCase_append, lowerCase_argString h]

theorem parseMagicOpenArgs_respelled (custodies : List (List Char)) (h : Respelled parts parts') :
    parseMagicOpenArgs custodies (argString parts) =
      parseMagicOpenArgs custodies (argString parts') := by
  unfold parseMagicOpenArgs magicTokens clean
  rw [lowerCase_argString h]

/-- A parser is asked first, and then a side is read from its word. -/
theorem parsed_side_iff {intent : Option MagicCall} {inOrder : Prop} [Decidable inOrder]
    {w w' : List Char} (hlower : lowerCase w = lowerCase w') {call call' : TradeSide → MagicCall}
    (hcall : intent = none → inOrder → ∀ side, readSide w = some side →
      readSide w' = some side → (call side).lowered = (call' side).lowered) :
    ((intent.or (if inOrder then (readSide w).map call else none)).map MagicCall.lowered =
      (intent.or (if inOrder then (readSide w').map call' else none)).map MagicCall.lowered) ↔
    (intent = none ∧ inOrder → readSide w = readSide w') := by
  cases intent with
  | some c => exact ⟨fun _ h => (by cases h.1), fun _ => rfl⟩
  | none =>
    rw [Option.none_or, Option.none_or, side_iff hlower (hcall rfl)]
    exact ⟨fun h hin => h hin.2, fun h hin => h ⟨rfl, hin⟩⟩

variable (data : ParserData) (custodies : List (List Char))

/-- A command in which no word is compared as it was typed. -/
theorem iff_of_plain {a b : Resolved} (hsame : Same a b) (hside : ¬ ReadsSide data parts)
    (hstop : ¬ ReadsStop parts) : Same a b ↔ SameWords data parts parts' :=
  ⟨fun _ => ⟨fun h => absurd h hside, fun h => absurd h hstop⟩, fun _ => hsame⟩

/-- A command in which only the side is. -/
theorem iff_of_side {a b : Resolved} {inOrder : Prop} (hreads : ReadsSide data parts ↔ inOrder)
    (hstop : ¬ ReadsStop parts)
    (hside : Same a b ↔ (inOrder → readSide (sideOf parts) = readSide (sideOf parts'))) :
    Same a b ↔ SameWords data parts parts' := by
  rw [hside, ← hreads]
  exact ⟨fun hsame => ⟨hsame, fun h => absurd h hstop⟩, fun hsame => hsame.side⟩

/-- The word of the side is the third, but for `liquidate`. -/
theorem sideOf_eq {sub : SubCommand} (hsub : subCommand parts = some sub) (hne : sub ≠ .liquidate) :
    sideOf parts = part parts 2 := by
  unfold sideOf
  rw [hsub, if_neg fun heq => hne (Option.some.inj heq)]

/-- The first words of trigger orders, and of their cancellations. -/
theorem typedStop_triggerOrder (hsub : subCommand parts = some .triggerOrder) :
    (part parts 0 = "sl".toList ∨ part parts 0 = "stop-loss".toList) ↔ TypedStop parts := by
  have hother : part parts 0 ≠ "cancel-sl".toList := by
    intro hword
    unfold subCommand at hsub
    rw [hword] at hsub
    revert hsub
    decide
  unfold TypedStop
  simp only [List.mem_cons, List.not_mem_nil, or_false, hother]

theorem typedStop_cancelTrigger (hsub : subCommand parts = some .cancelTrigger) :
    part parts 0 = "cancel-sl".toList ↔ TypedStop parts := by
  have hother : ∀ w ∈ ["sl".toList, "stop-loss".toList], part parts 0 ≠ w := by
    intro w hw hword
    unfold subCommand at hsub
    rw [hword] at hsub
    rcases List.mem_pair.mp hw with rfl | rfl
    · revert hsub
      decide
    · revert hsub
      decide
  unfold TypedStop
  simp only [List.mem_cons, List.not_mem_nil, or_false,
    hother "sl".toList List.mem_cons_self,
    hother "stop-loss".toList (List.mem_cons_of_mem _ List.mem_cons_self), false_or]

section Branches

variable (h : Respelled parts parts')

include h

theorem iff_close (hsub : subCommand parts = some .close) :
    Same (resolveClose parts data) (resolveClose parts' data) ↔ SameWords data parts parts' := by
  have hsub' := (subCommand_respelled h).trans hsub
  have hintent := intentOf_respelled data h "close ".toList .ClosePosition (by decide)
    (by decide) (by decide)
  have hreads : ReadsSide data parts ↔
      intentOf data .ClosePosition ("close ".toList ++ argString parts) = none ∧
        3 ≤ parts.length := by
    unfold ReadsSide
    rw [hsub]
  refine iff_of_side data hreads (by simp [ReadsStop, hsub]) ?_
  rw [sideOf_eq hsub (by decide), sideOf_eq hsub' (by decide)]
  unfold Same
  rw [call_close, call_close, ← hintent, ← h.length,
    parsed_side_iff (h.letters 2) fun _ _ side _ _ => ?_, Option.map_eq_none_iff]
  show MagicCall.magicClose _ _ = .magicClose _ _
  rw [h.letters 1]

/-- `add` and `remove`. -/
theorem iff_collateral {sub : SubCommand} {verb : String} {action : ActionType}
    {call : List Char → Option TradeSide → JsNumber → MagicCall} {text : String}
    (hsub : subCommand parts = some sub) (hsides : sub = .add ∨ sub = .remove)
    (hwallet : action.group ≠ .wallet) (hearn : action.group ≠ .earn) (hhelp : action ≠ .Help)
    (hreads : ReadsSide data parts ↔
      intentOf data action (verb.toList ++ ' ' :: argString parts) = none ∧ 4 ≤ parts.length ∧
        isPositive (readAmount (part parts 3)))
    (hcall : ∀ market market' side amount, lowerCase market = lowerCase market' →
      (call market side amount).lowered = (call market' side amount).lowered) :
    Same (resolveCollateral parts data verb action call text)
        (resolveCollateral parts' data verb action call text) ↔
      SameWords data parts parts' := by
  have hsub' := (subCommand_respelled h).trans hsub
  have hintent := intentOf_respelled data h (verb.toList ++ [' ']) action hwallet hearn hhelp
  rw [List.append_assoc, List.append_assoc] at hintent
  change intentOf data action (verb.toList ++ ' ' :: argString parts) =
    intentOf data action (verb.toList ++ ' ' :: argString parts') at hintent
  have hstop : ¬ ReadsStop parts := by
    rcases hsides with rfl | rfl
    · simp [ReadsStop, hsub]
    · simp [ReadsStop, hsub]
  have hne : sub ≠ .liquidate := by
    rcases hsides with rfl | rfl
    · decide
    · decide
  refine iff_of_side data hreads hstop ?_
  rw [sideOf_eq hsub hne, sideOf_eq hsub' hne]
  unfold Same
  rw [call_collateral, call_collateral, ← hintent, ← h.length]
  cases hside : readSide (lowerCase (part parts 2)) with
  | none =>
    -- no side, whatever stands behind it
    rw [readSide_none (h.letters 2) hside, readSide_none rfl hside, Option.map_none, ite_self,
      Option.map_none, ite_self]
    exact ⟨fun _ _ => rfl, fun _ => rfl⟩
  | some side =>
    have hamount : namePlace parts 3 = false := by
      rcases hsides with rfl | rfl
      · simp [namePlace, hsub, hside]
      · simp [namePlace, hsub, hside]
    rw [← h.others 3 hamount, parsed_side_iff (h.letters 2) fun _ _ side _ _ => ?_,
      Option.map_eq_none_iff]
    exact hcall _ _ _ _ (h.letters 1)

/-- A command that reads its side from the third word, and all else from other words. -/
theorem iff_positional {sub : SubCommand} {inOrder : Prop} [Decidable inOrder] {a a' : Resolved}
    {call call' : TradeSide → MagicCall} (hsub : subCommand parts = some sub)
    (hne : sub ≠ .liquidate) (hreads : ReadsSide data parts ↔ inOrder) (hstop : ¬ ReadsStop parts)
    (ha : a.call? = if inOrder then (readSide (part parts 2)).map call else none)
    (ha' : a'.call? = if inOrder then (readSide (part parts' 2)).map call' else none)
    (hcall : ∀ side, (call side).lowered = (call' side).lowered) :
    Same a a' ↔ SameWords data parts parts' := by
  refine iff_of_side data hreads hstop ?_
  rw [sideOf_eq hsub hne, sideOf_eq ((subCommand_respelled h).trans hsub) hne]
  unfold Same
  rw [ha, ha']
  exact side_iff (h.letters 2) fun _ side _ _ => hcall side

theorem iff_partialClose (hsub : subCommand parts = some .partialClose) :
    Same (resolvePartialClose parts) (resolvePartialClose parts') ↔
      SameWords data parts parts' := by
  have hamount := h.others 3 (by simp [namePlace, hsub])
  have hcall' := call_partialClose parts'
  rw [← h.length, ← hamount] at hcall'
  refine iff_positional data h hsub (by decide) (by unfold ReadsSide; rw [hsub])
    (by simp [ReadsStop, hsub]) (call_partialClose parts) hcall' fun side => ?_
  show MagicCall.magicPartialClose _ _ _ = .magicPartialClose _ _ _
  rw [h.letters 1]

theorem iff_limit (hsub : subCommand parts = some .limit) :
    Same (resolveLimit parts) (resolveLimit parts') ↔ SameWords data parts parts' := by
  have hlim := h.others 3 (by simp [namePlace, hsub])
  have hcol := h.others 4 (by simp [namePlace, hsub])
  have hlev := h.others 5 (by simp [namePlace, hsub])
  have htp := optionalPart_respelled h (i := 6) (by simp [namePlace, hsub])
  have hsl := optionalPart_respelled h (i := 7) (by simp [namePlace, hsub])
  have hcall' := call_limit parts'
  rw [← h.length, ← hlim, ← hcol, ← hlev] at hcall'
  refine iff_positional data h hsub (by decide) (by unfold ReadsSide; rw [hsub])
    (by simp [ReadsStop, hsub]) (call_limit parts) hcall' fun side => ?_
  show MagicCall.magicPlaceLimit _ _ _ _ _ _ _ = .magicPlaceLimit _ _ _ _ _ _ _
  rw [h.letters 1, htp, hsl]

theorem iff_cancelLimit (hsub : subCommand parts = some .cancelLimit) :
    Same (resolveCancelLimit parts) (resolveCancelLimit parts') ↔ SameWords data parts parts' := by
  have hid := h.others 3 (by simp [namePlace, hsub])
  have hcall' := call_cancelLimit parts'
  rw [← h.length, ← hid] at hcall'
  refine iff_positional data h hsub (by decide) (by unfold ReadsSide; rw [hsub])
    (by simp [ReadsStop, hsub]) (call_cancelLimit parts) hcall' fun side => ?_
  show MagicCall.magicCancelLimit _ _ _ = .magicCancelLimit _ _ _
  rw [h.letters 1]

theorem iff_increase (hsub : subCommand parts = some .increase) :
    Same (resolveIncrease parts) (resolveIncrease parts') ↔ SameWords data parts parts' := by
  have hsize := h.others 3 (by simp [namePlace, hsub])
  have hadded := optionalPart_respelled h (i := 4) (by simp [namePlace, hsub])
  have hcall' := call_increase parts'
  rw [← h.length, ← hsize] at hcall'
  refine iff_positional data h hsub (by decide) (by unfold ReadsSide; rw [hsub])
    (by simp [ReadsStop, hsub]) (call_increase parts) hcall' fun side => ?_
  show MagicCall.magicIncrease _ _ _ _ = .magicIncrease _ _ _ _
  rw [h.letters 1, hadded]

theorem iff_liquidate (hsub : subCommand parts = some .liquidate) :
    Same (resolveLiquidate parts) (resolveLiquidate parts') ↔ SameWords data parts parts' := by
  have hsub' := (subCommand_respelled h).trans hsub
  refine iff_of_side data (by unfold ReadsSide; rw [hsub]) (by simp [ReadsStop, hsub]) ?_
  unfold Same sideOf
  rw [hsub, hsub', if_pos rfl, call_liquidate, call_liquidate, ← h.length,
    ← h.others 1 (by simp [namePlace, hsub])]
  refine side_iff (h.letters 3) fun _ side _ _ => ?_
  show MagicCall.magicLiquidate _ _ _ = .magicLiquidate _ _ _
  rw [h.letters 2]

theorem iff_triggerOrder (hsub : subCommand parts = some .triggerOrder) :
    Same (resolveTriggerOrder parts) (resolveTriggerOrder parts') ↔
      SameWords data parts parts' := by
  have hsub' := (subCommand_respelled h).trans hsub
  have hside : ReadsSide data parts ↔
      4 ≤ parts.length ∧ isPositive (readAmount (part parts 3)) := by
    unfold ReadsSide
    rw [hsub]
  have hstop : ReadsStop parts ↔
      4 ≤ parts.length ∧ isPositive (readAmount (part parts 3)) ∧
        (readSide (part parts 2)).isSome := by
    unfold ReadsStop
    rw [hsub]
  have hwords : sideOf parts = part parts 2 ∧ sideOf parts' = part parts' 2 :=
    ⟨sideOf_eq hsub (by decide), sideOf_eq hsub' (by decide)⟩
  unfold Same
  rw [call_triggerOrder, call_triggerOrder, ← h.length, ← h.others 3 (by simp [namePlace, hsub]),
    ← optionalPart_respelled h (i := 4) (by simp [namePlace, hsub])]
  by_cases hin : 4 ≤ parts.length ∧ isPositive (readAmount (part parts 3)) = true
  · rw [if_pos hin, if_pos hin]
    cases hw : readSide (part parts 2) with
    | none =>
      have hnostop : ¬ ReadsStop parts := fun hreads => by
        have hsome := (hstop.mp hreads).2.2
        rw [hw] at hsome
        cases hsome
      cases hw' : readSide (part parts' 2) with
      | none =>
        refine ⟨fun _ => ⟨fun _ => ?_, fun hreads => absurd hreads hnostop⟩, fun _ => rfl⟩
        rw [hwords.1, hwords.2, hw, hw']
      | some side' =>
        refine ⟨fun heq => (by cases heq), fun hsame => ?_⟩
        have heq := hsame.side (hside.mpr hin)
        rw [hwords.1, hwords.2, hw, hw'] at heq
        cases heq
    | some side =>
      cases hw' : readSide (part parts' 2) with
      | none =>
        refine ⟨fun heq => (by cases heq), fun hsame => ?_⟩
        have heq := hsame.side (hside.mpr hin)
        rw [hwords.1, hwords.2, hw, hw'] at heq
        cases heq
      | some side' =>
        obtain rfl := readSide_unique (h.letters 2) hw hw'
        have hreads : ReadsStop parts := hstop.mpr ⟨hin.1, hin.2, by rw [hw]; rfl⟩
        have hstops : decide (part parts 0 = "sl".toList ∨ part parts 0 = "stop-loss".toList) =
            decide (part parts' 0 = "sl".toList ∨ part parts' 0 = "stop-loss".toList) ↔
              (TypedStop parts ↔ TypedStop parts') := by
          rw [decide_eq_decide, typedStop_triggerOrder hsub, typedStop_triggerOrder hsub']
        constructor
        · intro heq
          refine ⟨fun _ => by rw [hwords.1, hwords.2, hw, hw'], fun _ => ?_⟩
          injection heq with heq
          injection heq with _ _ _ hsame
          exact hstops.mp hsame
        · intro hsame
          rw [hstops.mpr (hsame.stop hreads)]
          show some (MagicCall.magicTriggerOrder _ _ _ _ _) =
            some (.magicTriggerOrder _ _ _ _ _)
          rw [h.letters 1]
  · rw [if_neg hin, if_neg hin]
    refine ⟨fun _ => ⟨fun hreads => absurd (hside.mp hreads) hin, fun hreads => ?_⟩, fun _ => rfl⟩
    have hboth := hstop.mp hreads
    exact absurd ⟨hboth.1, hboth.2.1⟩ hin

theorem iff_cancelTrigger (hsub : subCommand parts = some .cancelTrigger) :
    Same (resolveCancelTrigger parts) (resolveCancelTrigger parts') ↔
      SameWords data parts parts' := by
  have hsub' := (subCommand_respelled h).trans hsub
  have hside : ¬ ReadsSide data parts := by simp [ReadsSide, hsub]
  have hstop : ReadsStop parts ↔
      3 ≤ parts.length ∧ isIndex (value (NumberText.parseInt (part parts 2))) := by
    unfold ReadsStop
    rw [hsub]
  unfold Same
  rw [call_cancelTrigger, call_cancelTrigger, ← h.length,
    ← h.others 2 (by simp [namePlace, hsub])]
  by_cases hin : 3 ≤ parts.length ∧ isIndex (value (NumberText.parseInt (part parts 2))) = true
  · rw [if_pos hin, if_pos hin]
    have hstops : decide (part parts 0 = "cancel-sl".toList) =
        decide (part parts' 0 = "cancel-sl".toList) ↔ (TypedStop parts ↔ TypedStop parts') := by
      rw [decide_eq_decide, typedStop_cancelTrigger hsub, typedStop_cancelTrigger hsub']
    constructor
    · intro heq
      refine ⟨fun hreads => absurd hreads hside, fun _ => ?_⟩
      injection heq with heq
      injection heq with _ _ hsame
      exact hstops.mp hsame
    · intro hsame
      rw [hstops.mpr (hsame.stop (hstop.mpr hin))]
      show some (MagicCall.magicCancelTrigger _ _ _) = some (.magicCancelTrigger _ _ _)
      rw [h.letters 1]
  · rw [if_neg hin, if_neg hin]
    exact ⟨fun _ => ⟨fun hreads => absurd hreads hside,
      fun hreads => absurd (hstop.mp hreads) hin⟩, fun _ => rfl⟩

end Branches

/-! ## Commands without such words -/

theorem markets_respelled (h : Respelled parts parts') :
    resolveMarkets parts = resolveMarkets parts' := by
  have hlower := optionalPart_letters h 1
  unfold resolveMarkets
  cases hw : optionalPart parts 1 with
  | none =>
    rw [hw] at hlower
    rw [Option.map_eq_none_iff.mp hlower.symm]
  | some w =>
    rw [hw] at hlower
    obtain ⟨w', hw', hsame⟩ := Option.map_eq_some_iff.mp hlower.symm
    have hupper : upperCase w' = upperCase w := by
      rw [← upperCase_lowerCase w', hsame, upperCase_lowerCase]
    rw [hw']
    dsimp only
    rw [hsame, hupper]

theorem same_transfer (h : Respelled parts parts') (hamount : part parts 2 = part parts' 2)
    {verb : String} {call : List Char → JsNumber → MagicCall}
    (hcall : ∀ w w' amount, lowerCase w = lowerCase w' →
      (call w amount).lowered = (call w' amount).lowered) :
    Same (resolveTransfer parts verb call) (resolveTransfer parts' verb call) := by
  unfold resolveTransfer
  rw [← h.length, ← hamount]
  dsimp only
  split
  · rfl
  · split
    · exact congrArg some (hcall _ _ _ (h.letters 1))
    · rfl

theorem alerts_respelled (h : Respelled parts parts') :
    resolveAlerts parts = resolveAlerts parts' := by
  have hmap : parts[1]?.map lowerCase = parts'[1]?.map lowerCase := by
    rw [← List.getElem?_map, ← List.getElem?_map, map_lowerCase_of_respelled h]
  have hword : ∀ ps : List (List Char), lowerCase (ps.getD 1 "status".toList) =
      (ps[1]?.map lowerCase).getD (lowerCase "status".toList) := by
    intro ps
    rw [List.getD_eq_getElem?_getD]
    cases ps[1]? with
    | none => rfl
    | some w => rfl
  unfold resolveAlerts
  dsimp only
  rw [hword, hword, hmap]

theorem open_respelled (h : Respelled parts parts') :
    resolveOpen parts data custodies = resolveOpen parts' data custodies := by
  have hintent := intentOf_respelled data h "open ".toList .OpenPosition (by decide)
    (by decide) (by decide)
  unfold resolveOpen
  rw [parseMagicOpenArgs_respelled custodies h, hintent]

theorem reverse_respelled (h : Respelled parts parts') :
    resolveReverse parts data = resolveReverse parts' data := by
  have hintent := intentOf_respelled data h "open ".toList .OpenPosition (by decide)
    (by decide) (by decide)
  unfold resolveReverse
  rw [hintent]

/-- The words of two spellings. -/
theorem same_resolve_iff (h : Respelled parts parts') :
    Same (resolve data custodies parts) (resolve data custodies parts') ↔
      SameWords data parts parts' := by
  have hsub' := subCommand_respelled h
  cases hsub : subCommand parts with
  | none =>
    rw [hsub] at hsub'
    refine iff_of_plain data ?_ (by simp [ReadsSide, hsub]) (by simp [ReadsStop, hsub])
    simp [Same, resolve, hsub, hsub']
  | some sub =>
    rw [hsub] at hsub'
    unfold resolve
    rw [hsub, hsub']
    cases sub
    case close => exact iff_close data h hsub
    case add =>
      exact iff_collateral data h hsub (.inl rfl) (by decide) (by decide) (by decide)
        (by unfold ReadsSide; rw [hsub]) fun m m' side amount hm => by
          show MagicCall.magicAddCollateral _ _ _ = .magicAddCollateral _ _ _
          rw [hm]
    case remove =>
      exact iff_collateral data h hsub (.inr rfl) (by decide) (by decide) (by decide)
        (by unfold ReadsSide; rw [hsub]) fun m m' side amount hm => by
          show MagicCall.magicRemoveCollateral _ _ _ = .magicRemoveCollateral _ _ _
          rw [hm]
    case partialClose => exact iff_partialClose data h hsub
    case limit => exact iff_limit data h hsub
    case cancelLimit => exact iff_cancelLimit data h hsub
    case liquidate => exact iff_liquidate data h hsub
    case increase => exact iff_increase data h hsub
    case triggerOrder => exact iff_triggerOrder data h hsub
    case cancelTrigger => exact iff_cancelTrigger data h hsub
    -- in the others no word is compared as it was typed
    all_goals refine iff_of_plain data ?_ (by simp [ReadsSide, hsub]) (by simp [ReadsStop, hsub])
    case settle =>
      show some (MagicCall.magicSettle _) = some (.magicSettle _)
      rw [optionalPart_letters h]
    case price =>
      dsimp only
      rw [← h.length]
      split
      · rfl
      · show some (MagicCall.magicPrice _) = some (.magicPrice _)
        rw [h.letters 1]
    case markets => exact congrArg _ (congrArg _ (markets_respelled h))
    case deposit =>
      exact same_transfer h (h.others 2 (by simp [namePlace, hsub])) fun w w' amount hw => by
        show MagicCall.magicDeposit _ _ = .magicDeposit _ _
        rw [hw]
    case withdraw =>
      exact same_transfer h (h.others 2 (by simp [namePlace, hsub])) fun w w' amount hw => by
        show MagicCall.magicWithdraw _ _ = .magicWithdraw _ _
        rw [hw]
    case history =>
      show Same (resolveHistory parts) (resolveHistory parts')
      unfold resolveHistory
      rw [optionalPart_respelled h (i := 1) (by simp [namePlace, hsub])]
      rfl
    case alerts => exact congrArg _ (congrArg _ (alerts_respelled h))
    case «open» => exact congrArg _ (congrArg _ (open_respelled data custodies h))
    case reverse => exact congrArg _ (congrArg _ (reverse_respelled data h))
    all_goals rfl

end Spellings

/-- **Two spellings of a command** have the same meaning if and only if the words that are compared
as they were typed are the same for the comparison. -/
theorem same_iff (data : ParserData) (custodies : List (List Char)) {text text' : List Char}
    (h : Respelled (magicWords text) (magicWords text')) :
    Same (dispatch data custodies text) (dispatch data custodies text') ↔
      SameWords data (magicWords text) (magicWords text') :=
  same_resolve_iff data custodies h

/-- The words behind the sub-command of a stop-loss. -/
theorem tail_stop : (magicWords "magic sl SOL long 150".toList).tail =
    (magicWords "magic SL SOL long 150".toList).tail := by decide

/-- A stop-loss, with its sub-command in small letters and in capitals. -/
theorem respelled_stop :
    Respelled (magicWords "magic sl SOL long 150".toList)
      (magicWords "magic SL SOL long 150".toList) where
  length := by decide
  letters i := by
    rcases i with _ | i
    · decide
    · exact congrArg (fun ws => lowerCase (part ws i)) tail_stop
  others i hi := by
    rcases i with _ | i
    · cases hi
    · exact congrArg (fun ws => part ws i) tail_stop

theorem same_iff_stop :
    Same (dispatch cryptoMarkets [] "magic sl SOL long 150".toList)
        (dispatch cryptoMarkets [] "magic SL SOL long 150".toList) ↔
      SameWords cryptoMarkets (magicWords "magic sl SOL long 150".toList)
        (magicWords "magic SL SOL long 150".toList) :=
  same_iff cryptoMarkets [] respelled_stop

/-- `magic SL SOL long 150` is a take-profit. -/
theorem not_same : ¬ ∀ (data : ParserData) (custodies : List (List Char)) (text text' : List Char),
    Respelled (magicWords text) (magicWords text') →
      Same (dispatch data custodies text) (dispatch data custodies text') := by
  intro hall
  have hsame := hall cryptoMarkets [] _ _ respelled_stop
  revert hsame
  decide +kernel

end Magic

end FlashEdge
