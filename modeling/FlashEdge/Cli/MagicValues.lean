import FlashEdge.Ai.ParserOutcomes
import FlashEdge.Cli.MagicSpellings
import Mathlib.Data.List.Perm.Subperm

/-!
# Values of magic commands

The text of a magic command carries numbers: amounts, prices, percents and sizes. Each branch
copies the fields that its tool has from an intent, or reads words at fixed places, so that a
number without a place in the call is lost.

- `carried`: the numbers that a text carries.
- `PassesOn`: the command is refused, or the call has all of them.
- `DropsNothing`: the texts that carry no more than their branch passes on.
- `passesOn_iff`: these and no others are passed on.
-/

namespace FlashEdge

namespace Magic

open Pattern Interpreter
open NumberText (value)

/-! ## The numbers of a text -/

/-- A word with a digit, or a number in words. -/
def hasNumber (w : List Char) : Bool := (normalizeNumberWords w).any Char.isDigit

/-- The numbers among the words; one that cannot be read is `NaN`. -/
def valuesOf (ws : List (List Char)) : List JsNumber := (ws.filter hasNumber).map readAmount

/-- The number of a token of an open. -/
def tokenValue (custodies : List (List Char)) (tok : List Char) : Option JsNumber :=
  match readToken custodies tok with
  | .leverage n => some n
  | .number n => some n
  | .unknown => if hasNumber tok then some .nan else none
  | _ => none

/-- The numbers of the intent of an open. -/
def openValues (p : ParsedIntent) : List JsNumber :=
  (p.collateral.toList ++ p.leverage.toList ++ p.takeProfit.toList ++ p.stopLoss.toList).map value

/-- The numbers of words that may be left out. -/
def given (os : List (Option (List Char))) : List JsNumber :=
  os.flatMap fun o => o.toList.map readAmount

section Carried

variable (data : ParserData) (custodies : List (List Char)) (parts : List (List Char))

/-- The intent of an open that the parser of the live mode reads. -/
def openIntent : Option ParsedIntent :=
  intentOf data .OpenPosition ("open ".toList ++ argString parts)

def closeIntent : Option ParsedIntent :=
  intentOf data .ClosePosition ("close ".toList ++ argString parts)

def addIntent : Option ParsedIntent :=
  intentOf data .AddCollateral ("add".toList ++ ' ' :: argString parts)

def removeIntent : Option ParsedIntent :=
  intentOf data .RemoveCollateral ("remove".toList ++ ' ' :: argString parts)

/-- The words of a close as the parser sees them. -/
def closeWords : List (List Char) :=
  splitWords (lowerCase (normalize data ("close ".toList ++ argString parts)))

/-- The amount of the intent of a collateral command, or else the numbers behind the side. -/
def collateralValues : Option ParsedIntent → List JsNumber
  | some p => p.amount.toList.map value
  | none => [readAmount (part parts 3)] ++ valuesOf (parts.drop 4)

/-- The numbers that a text carries: those of its tokens or of its intent, or those of the words
behind the side. Of a close they are all numbers of the text. -/
def carried : List JsNumber :=
  match subCommand parts with
  | some .open =>
    if (parseMagicOpenArgs custodies (argString parts)).isSome then
      (magicTokens (argString parts)).filterMap (tokenValue custodies)
    else ((openIntent data parts).map openValues).getD []
  | some .reverse => ((openIntent data parts).map openValues).getD []
  | some .close =>
    if (closeIntent data parts).isSome then valuesOf (closeWords data parts)
    else valuesOf (parts.drop 3)
  | some .add => collateralValues parts (addIntent data parts)
  | some .remove => collateralValues parts (removeIntent data parts)
  | some .limit =>
    [readAmount (part parts 3), readAmount (part parts 4), readLeverage (part parts 5)] ++
      given [optionalPart parts 6, optionalPart parts 7] ++ valuesOf (parts.drop 8)
  | some .increase | some .triggerOrder =>
    [readAmount (part parts 3)] ++ given [optionalPart parts 4] ++ valuesOf (parts.drop 5)
  | _ => []

end Carried

/-- The numbers of a call. -/
def MagicCall.values : MagicCall → List JsNumber
  | magicOpen _ _ collateral leverage => [collateral, leverage]
  | magicAddCollateral _ _ amount => [amount]
  | magicPlaceLimit _ _ limitPrice collateral leverage tp sl =>
    [limitPrice, collateral, leverage] ++ tp.toList ++ sl.toList
  | magicReverse _ _ collateral leverage => [collateral, leverage]
  | magicIncrease _ _ sizeUsd addCollateralUsd => [sizeUsd, addCollateralUsd]
  | magicTriggerOrder _ _ price _ sizeUsd => price :: sizeUsd.toList
  | magicRemoveCollateral _ _ amount => [amount]
  | _ => []

/-- All of them are numbers, and the call has them. -/
def Passed (values : List JsNumber) (call : MagicCall) : Prop :=
  JsNumber.nan ∉ values ∧ values.Subperm call.values

instance (values : List JsNumber) (call : MagicCall) : Decidable (Passed values call) := by
  unfold Passed
  infer_instance

/-- The command is refused, or the call has all that the text carries. -/
def PassesOn (data : ParserData) (custodies : List (List Char)) (text : List Char) : Prop :=
  ∀ call, dispatch data custodies text = .tool call →
    Passed (carried data custodies (magicWords text)) call

/-! ## What is passed on -/

/-- A token with a number of its own. -/
def MagicToken.isAmount (t : MagicToken) : Bool := t.leverage?.isSome || t.number?.isSome

/-- No word has a number. -/
def Plain (ws : List (List Char)) : Prop := ∀ w ∈ ws, hasNumber w = false

/-- The side is read from its word, and is one. -/
def ByPlace (data : ParserData) (parts : List (List Char)) : Prop :=
  ReadsSide data parts ∧ (readSide (sideOf parts)).isSome

/-- The texts that carry no more than their branch passes on. -/
def DropsNothing (data : ParserData) (custodies : List (List Char)) (parts : List (List Char)) :
    Prop :=
  match subCommand parts with
  | some .open =>
    if (parseMagicOpenArgs custodies (argString parts)).isSome then
      (magicTokens (argString parts)).countP (fun tok => (readToken custodies tok).isAmount) ≤ 2 ∧
        ∀ tok ∈ magicTokens (argString parts), readToken custodies tok = .unknown →
          hasNumber tok = false
    else ∀ p ∈ openIntent data parts, p.takeProfit = none ∧ p.stopLoss = none
  | some .reverse => ∀ p ∈ openIntent data parts, p.takeProfit = none ∧ p.stopLoss = none
  | some .close =>
    if (closeIntent data parts).isSome then Plain (closeWords data parts)
    else ByPlace data parts → Plain (parts.drop 3)
  | some .add | some .remove => ByPlace data parts → Plain (parts.drop 4)
  | some .limit =>
    ByPlace data parts →
      (∀ w ∈ optionalPart parts 6, truthy (readAmount w)) ∧
        (∀ w ∈ optionalPart parts 7, truthy (readAmount w)) ∧ Plain (parts.drop 8)
  | some .increase =>
    ByPlace data parts →
      (∀ w ∈ optionalPart parts 4, readAmount w ≠ .nan) ∧ Plain (parts.drop 5)
  | some .triggerOrder =>
    ByPlace data parts →
      (∀ w ∈ optionalPart parts 4, truthy (readAmount w)) ∧ Plain (parts.drop 5)
  | _ => True

theorem valuesOf_eq_nil {ws : List (List Char)} : valuesOf ws = [] ↔ Plain ws := by
  unfold valuesOf Plain
  rw [List.map_eq_nil_iff, List.filter_eq_nil_iff]
  exact forall₂_congr fun w _ => iff_of_eq (Bool.not_eq_true _)

/-- The words that may be left out and are passed on: the ones that are neither zero nor `NaN`. -/
def kept (os : List (Option (List Char))) : List JsNumber :=
  os.flatMap fun o => ((o.map readAmount).filter truthy).toList

theorem kept_cons (o : Option (List Char)) (os : List (Option (List Char))) :
    kept (o :: os) = kept [o] ++ kept os := by
  unfold kept
  rw [List.flatMap_cons, List.flatMap_singleton]

theorem given_cons (o : Option (List Char)) (os : List (Option (List Char))) :
    given (o :: os) = given [o] ++ given os := by
  unfold given
  rw [List.flatMap_cons, List.flatMap_singleton]

theorem kept_some (w : List Char) :
    kept [some w] = if truthy (readAmount w) then [readAmount w] else [] := by
  unfold kept
  rw [List.flatMap_singleton, Option.map_some, Option.filter_some]
  split
  · rfl
  · rfl

theorem kept_sublist (os : List (Option (List Char))) : (kept os).Sublist (given os) := by
  induction os with
  | nil => exact List.Sublist.refl _
  | cons o os ih =>
    rw [kept_cons, given_cons]
    refine List.Sublist.append ?_ ih
    cases o with
    | none => exact List.Sublist.refl _
    | some w =>
      rw [kept_some]
      split
      · exact List.Sublist.refl _
      · exact List.nil_sublist _

theorem kept_eq_iff {os : List (Option (List Char))} :
    kept os = given os ↔ ∀ o ∈ os, ∀ w ∈ o, truthy (readAmount w) = true := by
  induction os with
  | nil => exact ⟨fun _ o ho => (by cases ho), fun _ => rfl⟩
  | cons o os ih =>
    have hone : kept [o] = given [o] ↔ ∀ w ∈ o, truthy (readAmount w) = true := by
      cases o with
      | none => exact ⟨fun _ w hw => (by cases hw), fun _ => rfl⟩
      | some w =>
        rw [kept_some]
        constructor
        · rintro hsame _ ⟨⟩
          by_contra hfalse
          rw [if_neg hfalse] at hsame
          cases hsame
        · exact fun h => if_pos (h w rfl)
    rw [List.forall_mem_cons, ← hone, ← ih, kept_cons, given_cons]
    refine ⟨fun hsame => ?_, fun hsame => by rw [hsame.1, hsame.2]⟩
    have hfirst := (kept_sublist [o]).length_le
    have hrest := (kept_sublist os).length_le
    have hlength := congrArg List.length hsame
    rw [List.length_append, List.length_append] at hlength
    exact ⟨(kept_sublist [o]).eq_of_length (by omega), (kept_sublist os).eq_of_length (by omega)⟩

theorem ne_nan_of_truthy {n : JsNumber} (h : truthy n = true) : n ≠ .nan := by
  rintro rfl
  cases h

/-- **Words behind the numbers that are always read**: all of them are passed on if and only if
there are no others, and none of those that may be left out is zero or `NaN`. -/
theorem passed_iff {head extra : List JsNumber} (hhead : JsNumber.nan ∉ head)
    {os : List (Option (List Char))} {call : MagicCall} (hcall : call.values = head ++ kept os) :
    Passed (head ++ given os ++ extra) call ↔
      (∀ o ∈ os, ∀ w ∈ o, truthy (readAmount w) = true) ∧ extra = [] := by
  have hsub := (kept_sublist os).length_le
  unfold Passed
  rw [hcall, ← kept_eq_iff]
  constructor
  · rintro ⟨-, hperm⟩
    have hlength := hperm.length_le
    simp only [List.length_append] at hlength
    refine ⟨(kept_sublist os).eq_of_length (by omega), List.length_eq_zero_iff.mp (by omega)⟩
  · rintro ⟨hsame, rfl⟩
    refine ⟨?_, by rw [hsame, List.append_nil]⟩
    rw [List.append_nil, List.mem_append]
    rintro (hmem | hmem)
    · exact hhead hmem
    · obtain ⟨o, ho, hmem⟩ := List.mem_flatMap.mp hmem
      obtain ⟨w, hw, hnan⟩ := List.mem_map.mp hmem
      exact ne_nan_of_truthy (kept_eq_iff.mp hsame o ho w (Option.mem_toList.mp hw)) hnan

theorem passesOn_iff_call (data : ParserData) (custodies : List (List Char)) (text : List Char) :
    PassesOn data custodies text ↔ ∀ call, (dispatch data custodies text).call? = some call →
      Passed (carried data custodies (magicWords text)) call := by
  unfold PassesOn
  cases dispatch data custodies text with
  | error t => exact ⟨fun _ call h => (by cases h), fun _ call h => (by cases h)⟩
  | tool c =>
    constructor
    · rintro h call ⟨⟩
      exact h c rfl
    · rintro h call ⟨⟩
      exact h c rfl

/-- What is passed on by a command that reads its side from its word. -/
theorem positional_iff {inOrder rest : Prop} [Decidable inOrder] {side : Option TradeSide}
    {call : TradeSide → MagicCall} {values : List JsNumber}
    (hvalues : inOrder → ∀ side, Passed values (call side) ↔ rest) :
    (∀ c, (if inOrder then side.map call else none) = some c → Passed values c) ↔
      (inOrder ∧ side.isSome → rest) := by
  by_cases hin : inOrder
  · rw [if_pos hin]
    cases side with
    | none => exact ⟨fun _ h => (by cases h.2), fun _ c h => (by cases h)⟩
    | some side =>
      constructor
      · exact fun h _ => (hvalues hin side).mp (h _ rfl)
      · rintro h _ ⟨⟩
        exact (hvalues hin side).mpr (h ⟨hin, rfl⟩)
  · rw [if_neg hin]
    exact ⟨fun _ h => absurd h.1 hin, fun _ c h => (by cases h)⟩

theorem ne_nan_of_isPositive {n : JsNumber} (h : isPositive n = true) : n ≠ .nan := by
  rintro rfl
  cases h

theorem value_ne_nan {n : SdkNumber} (h : n ≠ .nan) : value n ≠ .nan := by
  cases n with
  | finite d => exact fun heq => by cases heq
  | posInfinity => exact fun heq => by cases heq
  | negInfinity => exact fun heq => by cases heq
  | nan => exact absurd rfl h

section Branches

variable (data : ParserData) (custodies : List (List Char)) {parts : List (List Char)}

theorem limit_iff (hsub : subCommand parts = some .limit) :
    (∀ call, (resolveLimit parts).call? = some call →
        Passed (carried data custodies parts) call) ↔ DropsNothing data custodies parts := by
  have hreads : ByPlace data parts ↔
      (6 ≤ parts.length ∧ isPositive (readAmount (part parts 3)) ∧
        isPositive (readAmount (part parts 4)) ∧ isPositive (readLeverage (part parts 5))) ∧
      (readSide (part parts 2)).isSome := by
    unfold ByPlace ReadsSide
    rw [hsub, sideOf_eq hsub (by decide)]
  unfold carried DropsNothing
  rw [hsub, call_limit]
  dsimp only
  rw [hreads]
  refine positional_iff fun hin side => ?_
  have hhead : JsNumber.nan ∉ [readAmount (part parts 3), readAmount (part parts 4),
      readLeverage (part parts 5)] := by
    simp only [List.mem_cons, List.not_mem_nil, or_false, not_or]
    exact ⟨(ne_nan_of_isPositive hin.2.1).symm, (ne_nan_of_isPositive hin.2.2.1).symm,
      (ne_nan_of_isPositive hin.2.2.2).symm⟩
  rw [passed_iff hhead (by simp [MagicCall.values, kept]), valuesOf_eq_nil]
  simp only [List.forall_mem_cons, List.not_mem_nil, IsEmpty.forall_iff, implies_true, and_true,
    and_assoc]

theorem triggerOrder_iff (hsub : subCommand parts = some .triggerOrder) :
    (∀ call, (resolveTriggerOrder parts).call? = some call →
        Passed (carried data custodies parts) call) ↔ DropsNothing data custodies parts := by
  have hreads : ByPlace data parts ↔
      (4 ≤ parts.length ∧ isPositive (readAmount (part parts 3))) ∧
        (readSide (part parts 2)).isSome := by
    unfold ByPlace ReadsSide
    rw [hsub, sideOf_eq hsub (by decide)]
  unfold carried DropsNothing
  rw [hsub, call_triggerOrder]
  dsimp only
  rw [hreads]
  refine positional_iff fun hin side => ?_
  have hhead : JsNumber.nan ∉ [readAmount (part parts 3)] := fun hmem =>
    ne_nan_of_isPositive hin.2 (List.mem_singleton.mp hmem).symm
  rw [passed_iff hhead (by simp [MagicCall.values, kept]), valuesOf_eq_nil]
  simp only [List.forall_mem_cons, List.not_mem_nil, IsEmpty.forall_iff, implies_true, and_true]

/-- The amount behind the side is passed on, and nothing else. -/
theorem passed_single {n : JsNumber} (hn : n ≠ .nan) {extra : List JsNumber} {call : MagicCall}
    (hcall : call.values = [n]) : Passed ([n] ++ extra) call ↔ extra = [] := by
  have hhead : JsNumber.nan ∉ [n] := fun hmem => hn (List.mem_singleton.mp hmem).symm
  have hkept : call.values = [n] ++ kept [] := hcall.trans (by simp [kept])
  have hpassed : Passed ([n] ++ given [] ++ extra) call ↔ _ := passed_iff hhead hkept
  simpa [given] using hpassed

/-- `add` and `remove`. -/
theorem collateral_iff {sub : SubCommand} {verb : String} {action : ActionType}
    {call : List Char → Option TradeSide → JsNumber → MagicCall} {text : String}
    (hsub : subCommand parts = some sub) (hne : sub ≠ .liquidate)
    (hgroup : action.group = .collateral)
    (hcarried : carried data custodies parts = collateralValues parts
      (intentOf data action (verb.toList ++ ' ' :: argString parts)))
    (hdrops : DropsNothing data custodies parts ↔ (ByPlace data parts → Plain (parts.drop 4)))
    (hreads : ReadsSide data parts ↔
      intentOf data action (verb.toList ++ ' ' :: argString parts) = none ∧ 4 ≤ parts.length ∧
        isPositive (readAmount (part parts 3)))
    (hcall : ∀ market side amount, (call market side amount).values = [amount]) :
    (∀ c, (resolveCollateral parts data verb action call text).call? = some c →
        Passed (carried data custodies parts) c) ↔ DropsNothing data custodies parts := by
  have hplace : ByPlace data parts ↔
      (intentOf data action (verb.toList ++ ' ' :: argString parts) = none ∧ 4 ≤ parts.length ∧
        isPositive (readAmount (part parts 3))) ∧ (readSide (part parts 2)).isSome := by
    unfold ByPlace
    rw [hreads, sideOf_eq hsub hne]
  rw [hdrops, hcarried, call_collateral, hplace]
  cases hintent : intentOf data action (verb.toList ++ ' ' :: argString parts) with
  | some p =>
    have haction : p.action = action := by
      have hfilter := (Option.filter_eq_some_iff.mp hintent).2
      exact of_decide_eq_true hfilter
    have hparsed := (Option.filter_eq_some_iff.mp hintent).1
    obtain ⟨n, hn, hnan⟩ := (priced_localParse data _ p hparsed).amount (by rw [haction, hgroup])
    refine ⟨fun _ h => (by cases h.1.1), ?_⟩
    rintro - _ ⟨⟩
    show Passed (p.amount.toList.map value)
      (call (intentMarket p) p.side ((p.amount.map value).getD .nan))
    rw [hn]
    exact (passed_single (value_ne_nan hnan) (hcall _ _ _)).mpr rfl
  | none =>
    rw [Option.map_none, Option.none_or]
    simp only [true_and]
    refine positional_iff fun hin side => ?_
    unfold collateralValues
    rw [passed_single (ne_nan_of_isPositive hin.2) (hcall _ _ _), valuesOf_eq_nil]

/-- A close passes on no number. -/
theorem passed_close {values : List JsNumber} {market : List Char} {side : Option TradeSide} :
    Passed values (.magicClose market side) ↔ values = [] := by
  constructor
  · exact fun h => List.subperm_nil.mp h.2
  · rintro rfl
    exact ⟨List.not_mem_nil, List.Subperm.refl []⟩

theorem close_iff (hsub : subCommand parts = some .close) :
    (∀ call, (resolveClose parts data).call? = some call →
        Passed (carried data custodies parts) call) ↔ DropsNothing data custodies parts := by
  have hplace : ByPlace data parts ↔
      (closeIntent data parts = none ∧ 3 ≤ parts.length) ∧ (readSide (part parts 2)).isSome := by
    unfold ByPlace ReadsSide
    rw [hsub, sideOf_eq hsub (by decide)]
    rfl
  unfold carried DropsNothing
  rw [hsub, call_close]
  dsimp only
  rw [hplace]
  change (∀ call, ((closeIntent data parts).map _).or _ = some call → _) ↔ _
  cases closeIntent data parts with
  | some p =>
    rw [← valuesOf_eq_nil]
    constructor
    · exact fun h => passed_close.mp (h _ rfl)
    · rintro h _ ⟨⟩
      exact passed_close.mpr h
  | none =>
    rw [Option.map_none, Option.none_or]
    simp only [true_and]
    refine positional_iff fun _ side => ?_
    rw [passed_close]
    exact valuesOf_eq_nil

/-- An open that the parser of the live mode reads has a collateral and a leverage, and passes on
nothing else. -/
theorem passed_open {p : ParsedIntent} (hintent : openIntent data parts = some p)
    {call : MagicCall}
    (hcall : call.values = [intentNumber p.collateral, intentNumber p.leverage]) :
    Passed (openValues p) call ↔ p.takeProfit = none ∧ p.stopLoss = none := by
  obtain ⟨hparsed, haction⟩ := Option.filter_eq_some_iff.mp hintent
  obtain ⟨c, l, hc, hl⟩ :=
    (priced_localParse data _ p hparsed).opened (of_decide_eq_true haction)
  unfold Passed openValues
  rw [hcall, hc, hl]
  constructor
  · rintro ⟨-, hsub⟩
    have hlength := hsub.length_le
    simp only [List.length_map, List.length_append, Option.toList_some, List.length_cons,
      List.length_nil] at hlength
    exact ⟨Option.toList_eq_nil_iff.mp (List.length_eq_zero_iff.mp (by omega)),
      Option.toList_eq_nil_iff.mp (List.length_eq_zero_iff.mp (by omega))⟩
  · rintro ⟨htp, hsl⟩
    rw [htp, hsl]
    refine ⟨fun hmem => ?_, List.Subperm.refl _⟩
    obtain ⟨n, hn, hnan⟩ := List.mem_map.mp hmem
    rcases List.mem_pair.mp hn with rfl | rfl
    · cases hnan
    · cases hnan

theorem call_reverse : (resolveReverse parts data).call? =
    (openIntent data parts).map fun p =>
      .magicReverse (intentMarket p) p.side (intentNumber p.collateral)
        (intentNumber p.leverage) := by
  unfold resolveReverse
  change (match openIntent data parts with | some p => _ | none => _ : Resolved).call? = _
  cases openIntent data parts with
  | some p => rfl
  | none => rfl

theorem call_open : (resolveOpen parts data custodies).call? =
    ((parseMagicOpenArgs custodies (argString parts)).map fun p =>
      .magicOpen p.market (some p.side) (.finite p.collateral) (.finite p.leverage)).or
    ((openIntent data parts).map fun p =>
      .magicOpen (intentMarket p) p.side (intentNumber p.collateral)
        (intentNumber p.leverage)) := by
  unfold resolveOpen openIntent
  cases parseMagicOpenArgs custodies (argString parts) with
  | some p => rfl
  | none =>
    cases intentOf data .OpenPosition ("open ".toList ++ argString parts) with
    | some p => rfl
    | none => rfl

/-- The calls of an intent of an open. -/
theorem intent_iff {call : ParsedIntent → MagicCall}
    (hcall : ∀ p, (call p).values = [intentNumber p.collateral, intentNumber p.leverage]) :
    (∀ c, (openIntent data parts).map call = some c →
        Passed (((openIntent data parts).map openValues).getD []) c) ↔
      ∀ p ∈ openIntent data parts, p.takeProfit = none ∧ p.stopLoss = none := by
  cases hintent : openIntent data parts with
  | none => exact ⟨fun _ p h => (by cases h), fun _ c h => (by cases h)⟩
  | some p =>
    constructor
    · rintro h _ ⟨⟩
      exact (passed_open data hintent (hcall p)).mp (h _ rfl)
    · rintro h _ ⟨⟩
      exact (passed_open data hintent (hcall p)).mpr (h p rfl)

theorem reverse_iff (hsub : subCommand parts = some .reverse) :
    (∀ call, (resolveReverse parts data).call? = some call →
        Passed (carried data custodies parts) call) ↔ DropsNothing data custodies parts := by
  unfold carried DropsNothing
  rw [hsub, call_reverse]
  exact intent_iff data fun _ => rfl

end Branches

/-! ## Opens -/

section Tokens

variable (custodies : List (List Char))

/-- The tokens that have a number but are none. -/
def unread (tokens : List (List Char)) : List (List Char) :=
  tokens.filter fun tok => readToken custodies tok = .unknown && hasNumber tok

open MagicToken in
theorem tokens_perm (tokens : List (List Char)) :
    (tokens.filterMap (tokenValue custodies)).Perm
      ((tokens.map (readToken custodies)).filterMap leverage? ++
        (tokens.map (readToken custodies)).filterMap number? ++
          (unread custodies tokens).map fun _ => .nan) := by
  induction tokens with
  | nil => exact List.Perm.refl _
  | cons tok tokens ih =>
    have hunread : unread custodies (tok :: tokens) =
        if readToken custodies tok = .unknown ∧ hasNumber tok = true then
          tok :: unread custodies tokens
        else unread custodies tokens := by
      unfold unread
      rw [List.filter_cons]
      exact if_congr (by simp) rfl rfl
    have hvalue : tokenValue custodies tok =
        match readToken custodies tok with
        | .leverage n => some n
        | .number n => some n
        | .unknown => if hasNumber tok then some .nan else none
        | _ => none := rfl
    rw [List.filterMap_cons, List.map_cons, List.filterMap_cons, List.filterMap_cons, hunread,
      hvalue]
    cases hread : readToken custodies tok with
    | side s => simpa [leverage?, number?] using ih
    | market m => simpa [leverage?, number?] using ih
    | leverage n => simpa [leverage?, number?] using ih
    | number n =>
      simp only [leverage?, number?, reduceCtorEq, false_and, if_false, List.append_assoc,
        List.cons_append]
      rw [List.append_assoc] at ih
      exact (ih.cons n).trans List.perm_middle.symm
    | unknown =>
      by_cases hnumber : hasNumber tok = true
      · simp only [leverage?, number?, hnumber, if_true, and_self, List.map_cons]
        exact (ih.cons .nan).trans List.perm_middle.symm
      · simpa [leverage?, number?, hnumber] using ih

open MagicToken in
theorem countP_isAmount (tokens : List (List Char)) :
    tokens.countP (fun tok => (readToken custodies tok).isAmount) =
      ((tokens.map (readToken custodies)).filterMap leverage?).length +
        ((tokens.map (readToken custodies)).filterMap number?).length := by
  induction tokens with
  | nil => rfl
  | cons tok tokens ih =>
    rw [List.countP_cons, List.map_cons, List.filterMap_cons, List.filterMap_cons, ih]
    cases hread : readToken custodies tok with
    | side s => simp [leverage?, number?, MagicToken.isAmount]
    | market m => simp [leverage?, number?, MagicToken.isAmount]
    | leverage n =>
      simp [leverage?, number?, MagicToken.isAmount]
      omega
    | number n =>
      simp [leverage?, number?, MagicToken.isAmount]
      omega
    | unknown => simp [leverage?, number?, MagicToken.isAmount]

open MagicToken in
/-- A result of the magic parser has two numbers, so that it has all if there are no more. -/
theorem passed_tokens {tokens : List (List Char)} {r : MagicOpenParams}
    (h : OpenedAs (tokens.map (readToken custodies)) r) {call : MagicCall}
    (hcall : call.values = [.finite r.collateral, .finite r.leverage]) :
    Passed (tokens.filterMap (tokenValue custodies)) call ↔
      tokens.countP (fun tok => (readToken custodies tok).isAmount) ≤ 2 ∧
        ∀ tok ∈ tokens, readToken custodies tok = .unknown → hasNumber tok = false := by
  have hperm := tokens_perm custodies tokens
  have hcount := countP_isAmount custodies tokens
  have hunread : unread custodies tokens = [] ↔
      ∀ tok ∈ tokens, readToken custodies tok = .unknown → hasNumber tok = false := by
    unfold unread
    rw [List.filter_eq_nil_iff]
    simp only [Bool.and_eq_true, decide_eq_true_eq, not_and, Bool.not_eq_true]
  rw [← hunread, hcount]
  generalize tokens.map (readToken custodies) = read at h hperm hcount
  unfold Passed
  rw [hcall]
  constructor
  · rintro ⟨hnan, hsub⟩
    have hlength := hsub.length_le
    rw [hperm.length_eq] at hlength
    simp only [List.length_append, List.length_map, List.length_cons, List.length_nil] at hlength
    refine ⟨by omega, List.eq_nil_iff_forall_not_mem.mpr fun tok htok => hnan ?_⟩
    refine hperm.mem_iff.mpr (List.mem_append_right _ ?_)
    exact List.mem_map.mpr ⟨tok, htok, rfl⟩
  · rintro ⟨htwo, hnone⟩
    rw [hnone, List.map_nil, List.append_nil] at hperm
    have hpair : (tokens.filterMap (tokenValue custodies)).Perm
        [.finite r.collateral, .finite r.leverage] := by
      rcases h.amounts with ⟨hlast, hhead⟩ | ⟨hnil, hmany, hboth⟩
      · obtain ⟨ls, hls⟩ := List.getLast?_eq_some_iff.mp hlast
        obtain ⟨ns, hns⟩ := List.head?_eq_some_iff.mp hhead
        rw [hls, hns, List.length_append, List.length_cons, List.length_cons] at htwo
        obtain rfl : ls = [] := List.length_eq_zero_iff.mp (by simp at htwo; omega)
        obtain rfl : ns = [] := List.length_eq_zero_iff.mp (by simp at htwo; omega)
        rw [hls, hns] at hperm
        exact hperm.trans (List.Perm.swap _ _ _)
      · rw [hnil, List.nil_append] at hperm
        rw [hnil, List.length_nil] at htwo
        exact hperm.trans ((hboth (by omega)).1.trans (List.Perm.swap _ _ _))
    refine ⟨fun hnan => ?_, hpair.subperm⟩
    have hmem := hpair.mem_iff.mp hnan
    rcases List.mem_pair.mp hmem with hfinite | hfinite
    · cases hfinite
    · cases hfinite

theorem open_iff (data : ParserData) {parts : List (List Char)}
    (hsub : subCommand parts = some .open) :
    (∀ call, (resolveOpen parts data custodies).call? = some call →
        Passed (carried data custodies parts) call) ↔ DropsNothing data custodies parts := by
  unfold carried DropsNothing
  rw [hsub, call_open]
  dsimp only
  cases hparse : parseMagicOpenArgs custodies (argString parts) with
  | some r =>
    have hopened : OpenedAs ((magicTokens (argString parts)).map (readToken custodies)) r :=
      openedAs_of_openOf hparse
    have hvalues : (MagicCall.magicOpen r.market (some r.side) (.finite r.collateral)
        (.finite r.leverage)).values = [.finite r.collateral, .finite r.leverage] := rfl
    have hpassed := passed_tokens custodies hopened hvalues
    rw [Option.isSome_some, if_pos rfl, if_pos rfl, ← hpassed]
    constructor
    · exact fun h => h _ rfl
    · rintro h _ ⟨⟩
      exact h
  | none => exact intent_iff data fun _ => rfl

end Tokens

/-! ## The words of a text -/

theorem splitWords_ne_nil (t : List Char) : splitWords t ≠ [] := by
  induction t with
  | nil => exact List.cons_ne_nil _ _
  | cons c t ih =>
    by_cases hc : isSpace c = true
    · cases t with
      | nil =>
        rw [splitWords, if_pos hc]
        exact List.cons_ne_nil _ _
      | cons d t =>
        rw [splitWords_space hc]
        split
        · exact ih
        · exact List.cons_ne_nil _ _
    · obtain ⟨word, words, hsplit⟩ := List.exists_cons_of_ne_nil ih
      rw [splitWords_cons (Bool.eq_false_of_not_eq_true hc) hsplit]
      exact List.cons_ne_nil _ _

/-- Behind the first word of a text that does not end with a space no word is empty. -/
theorem tail_splitWords {t : List Char} (h : ∀ c ∈ t.getLast?, isSpace c = false) :
    ∀ w ∈ (splitWords t).tail, w ≠ [] := by
  induction t with
  | nil => exact fun w hw => by cases hw
  | cons c t ih =>
    by_cases hc : isSpace c = true
    · cases t with
      | nil => exact absurd (h c rfl) (by rw [hc]; exact Bool.true_eq_false_eq_False)
      | cons d t =>
        have ih := ih fun e he => h e (by rwa [List.getLast?_cons_cons])
        rw [splitWords_space hc]
        split
        · exact ih
        · next hd =>
          obtain ⟨word, words, hsplit⟩ := List.exists_cons_of_ne_nil (splitWords_ne_nil t)
          rw [splitWords_cons (Bool.eq_false_of_not_eq_true hd) hsplit] at ih ⊢
          intro w hw
          rcases List.mem_cons.mp hw with rfl | hw
          · exact List.cons_ne_nil _ _
          · exact ih w hw
    · obtain ⟨word, words, hsplit⟩ := List.exists_cons_of_ne_nil (splitWords_ne_nil t)
      rw [splitWords_cons (Bool.eq_false_of_not_eq_true hc) hsplit]
      cases t with
      | nil =>
        obtain ⟨-, rfl⟩ := List.cons.inj hsplit
        exact fun w hw => by cases hw
      | cons d t =>
        have ih := ih fun e he => h e (by rwa [List.getLast?_cons_cons])
        rwa [hsplit] at ih

theorem getLast?_trim (t : List Char) :
    ∀ c ∈ (Interpreter.trim t).getLast?, isSpace c = false := by
  intro c hc
  unfold Interpreter.trim at hc
  rw [List.getLast?_reverse] at hc
  have hhead := List.head?_dropWhile_not isSpace (t.dropWhile isSpace).reverse
  rw [hc] at hhead
  simpa using hhead

/-- Behind the sub-command no word is empty. -/
theorem tail_magicWords (text : List Char) : ∀ w ∈ (magicWords text).tail, w ≠ [] := by
  unfold magicWords
  dsimp only
  refine tail_splitWords ?_
  split
  · decide
  · exact getLast?_trim _

/-- Where a word is missing, all behind it are. -/
theorem drop_of_optionalPart {parts : List (List Char)} (hparts : ∀ w ∈ parts.tail, w ≠ []) {i : ℕ}
    (h : optionalPart parts (i + 1) = none) : parts.drop (i + 2) = [] := by
  refine List.drop_eq_nil_of_le ?_
  by_contra hlong
  have hlt : i + 1 < parts.length := by omega
  have hmem : parts[i + 1] ∈ parts.tail := by
    rw [← List.getElem_tail (by simp; omega)]
    exact List.getElem_mem _
  unfold optionalPart at h
  rw [List.getElem?_eq_getElem hlt, Option.filter_some_pos (by simpa using hparts _ hmem)] at h
  cases h

/-- The added collateral is passed on as it is read, and as zero where there is none. -/
theorem increase_iff (data : ParserData) (custodies : List (List Char))
    {parts : List (List Char)} (hparts : ∀ w ∈ parts.tail, w ≠ [])
    (hsub : subCommand parts = some .increase) :
    (∀ call, (resolveIncrease parts).call? = some call →
        Passed (carried data custodies parts) call) ↔ DropsNothing data custodies parts := by
  have hplace : ByPlace data parts ↔
      (4 ≤ parts.length ∧ isPositive (readAmount (part parts 3))) ∧
        (readSide (part parts 2)).isSome := by
    unfold ByPlace ReadsSide
    rw [hsub, sideOf_eq hsub (by decide)]
  unfold carried DropsNothing
  rw [hsub, call_increase]
  dsimp only
  rw [hplace]
  refine positional_iff fun hin side => ?_
  have hsize : JsNumber.nan ≠ readAmount (part parts 3) := (ne_nan_of_isPositive hin.2).symm
  rw [← valuesOf_eq_nil]
  cases hadded : optionalPart parts 4 with
  | none =>
    have hnil : valuesOf (parts.drop 5) = [] := by
      rw [drop_of_optionalPart hparts hadded]
      rfl
    rw [hnil]
    refine ⟨fun _ => ⟨fun w hw => (by cases hw), rfl⟩, fun _ => ⟨fun hmem => ?_, ?_⟩⟩
    · exact hsize (List.mem_singleton.mp hmem)
    · exact List.Sublist.subperm (List.Sublist.cons_cons _ (List.nil_sublist _))
  | some w =>
    show Passed ([readAmount (part parts 3), readAmount w] ++ valuesOf (parts.drop 5)) _ ↔ _
    constructor
    · rintro ⟨hnan, hsub⟩
      have hlength := hsub.length_le
      rw [List.length_append] at hlength
      refine ⟨?_, List.length_eq_zero_iff.mp (Nat.le_zero.mp (Nat.add_le_add_iff_left.mp hlength))⟩
      rintro _ ⟨⟩ hw
      exact hnan (by rw [hw]; simp)
    · rintro ⟨hw, hnil⟩
      rw [hnil]
      refine ⟨fun hmem => ?_, List.Subperm.refl _⟩
      rcases List.mem_pair.mp hmem with heq | heq
      · exact hsize heq
      · exact hw w rfl heq.symm

end Magic

end FlashEdge
