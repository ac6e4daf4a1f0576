import FlashEdge.Cli.TradePredictor
import FlashEdge.Sdk.CommandRoundTrip

/-!
# The preferred leverage of a market

Where a text names no leverage, an open is given the one that the recorded commands use most for
its market, and two without such a command. What a recorded command trades is what the parser
reads in it.

- `tradedWith`, `leverageIn`: the market and the leverage that a command trades by itself.
- `SuppliesPreferred`: the leverage that is supplied is the most used one.
- `suppliesPreferred_iff`: so it is, whatever is recorded of some commands, where the leverage
  looked up in each of them is the one that it trades, or where all of both are two.
- `not_suppliesPreferred`: a market under another name is not found.
-/

namespace FlashEdge

namespace TradePredictor

open Interpreter

/-! ## What a command trades -/

/-- What the parser reads in a command where every market is preferred with this leverage. -/
def parsedWith (data : ParserData) (preferred : SdkNumber) (command : List Char) :
    Option ParsedIntent :=
  localParse { data with getPreferredLeverage := fun _ => some preferred } command

/-- The market and the leverage of a command. A leverage that changes with the preferred one is
not explicit. -/
def tradedWith (data : ParserData) (command : List Char) : Option (List Char × SdkNumber) := do
  let intent ← parsedWith data (parseInt ['2']) command
  let intent' ← parsedWith data (parseInt ['3']) command
  let market ← intent.market
  let leverage ← intent.leverage
  if intent'.leverage = some leverage then some (market, leverage) else none

/-- The explicit leverage with which a command trades a market. -/
def leverageIn (data : ParserData) (market command : List Char) : Option SdkNumber :=
  (tradedWith data command).bind fun t => if t.1 = market then some t.2 else none

/-- The leverage with the largest use count among the commands that trade a market, or the default
where none of them has one. -/
def IsPreferred (data : ParserData) (patterns : List CommandPattern) (market : List Char)
    (leverage : SdkNumber) : Prop :=
  IsChoice (fun p => leverageIn data market p.command) CommandPattern.count defaultLeverage
    patterns leverage

/-- The preferred leverage of a market is supplied. -/
structure SuppliesPreferred (data : ParserData) (patterns : List CommandPattern)
    (market : List Char) : Prop where
  /-- as the default of the parser -/
  supplied : IsPreferred data patterns market (supplied patterns market)
  /-- in every open of the market that names none -/
  opened : ∀ input intent, flexParseOpen (withPatterns data patterns) input = some intent →
    intent.market = some market → namedLeverage input = none →
      ∃ leverage, intent.leverage = some leverage ∧ IsPreferred data patterns market leverage

/-- An open that names no leverage has the one that is supplied. -/
theorem suppliesPreferred_of_supplied {data : ParserData} {patterns : List CommandPattern}
    {market : List Char}
    (h : IsPreferred data patterns market (TradePredictor.supplied patterns market)) :
    SuppliesPreferred data patterns market where
  supplied := h
  opened := by
    intro input intent hparse hmarket hnone
    obtain ⟨market', hmarket', hleverage⟩ := leverage_of_flexParseOpen hparse
    obtain rfl : market' = market := Option.some.inj (hmarket'.symm.trans hmarket)
    rw [hnone] at hleverage
    exact ⟨_, hleverage, h⟩

/-! ## When it is supplied -/

/-- A history of these commands. -/
def HistoryOf (commands : Set (List Char)) (history : List (ℤ × List Char)) : Prop :=
  ∀ e ∈ history, e.2 ∈ commands

/-- The texts under which these commands are recorded. -/
def texts (commands : Set (List Char)) : Set (List Char) :=
  {text | ∃ command ∈ commands, tradeText command = some text}

/-- In each text the leverage that is looked up is the one that it trades. -/
def ReadsTraded (data : ParserData) (market : List Char) (texts : Set (List Char)) : Prop :=
  ∀ text ∈ texts, leverageText market text = leverageIn data market text

/-- No leverage but the default one, looked up or traded. -/
def OnlyDefault (data : ParserData) (market : List Char) (texts : Set (List Char)) : Prop :=
  ∀ text ∈ texts, (leverageText market text).getD defaultLeverage = defaultLeverage ∧
    (leverageIn data market text).getD defaultLeverage = defaultLeverage

section Histories

variable {data : ParserData} {market : List Char} {commands : Set (List Char)}
  {history : List (ℤ × List Char)}

theorem text_of_history (hhistory : HistoryOf commands history) {p : CommandPattern}
    (hp : p ∈ stored history) : p.command ∈ texts commands := by
  obtain ⟨e, he, htext⟩ := text_of_mem_stored hp
  exact ⟨e.2, hhistory e he, htext⟩

/-- Where the texts read as they trade, so does every history. -/
theorem isPreferred_of_readsTraded (hreads : ReadsTraded data market (texts commands))
    (hhistory : HistoryOf commands history) :
    IsPreferred data (stored history) market (supplied (stored history) market) :=
  (isChoice_supplied (stored history) market).congr fun _ hp =>
    hreads _ (text_of_history hhistory hp)

theorem isPreferred_of_onlyDefault (honly : OnlyDefault data market (texts commands))
    (hhistory : HistoryOf commands history) :
    IsPreferred data (stored history) market (supplied (stored history) market) := by
  have hlooked := (isChoice_default fun p hp =>
    (honly _ (text_of_history hhistory hp)).1).mp (isChoice_supplied (stored history) market)
  rw [hlooked]
  exact (isChoice_default fun p hp => (honly _ (text_of_history hhistory hp)).2).mpr rfl

variable (hall : ∀ history, HistoryOf commands history →
  SuppliesPreferred data (stored history) market)

include hall

/-- A history of one command: both leverages are the same, or one is the default. -/
theorem getD_eq_of_once {text : List Char} (htext : text ∈ texts commands) :
    (leverageText market text).getD defaultLeverage =
      (leverageIn data market text).getD defaultLeverage := by
  obtain ⟨command, hcommand, htext⟩ := htext
  have hpreferred := (hall [(0, command)] fun e he => by
    rw [List.mem_singleton.mp he]
    exact hcommand).supplied
  have hlooked := isChoice_supplied (stored [(0, command)]) market
  unfold IsPreferred at hpreferred
  rw [stored_once htext, isChoice_singleton] at hpreferred hlooked
  exact hlooked.symm.trans hpreferred

/-- A history of two commands: a text that reads as the default but does not trade it, or the
other way round, outweighs one with another leverage on one side only. -/
theorem default_of_twice_once {text text' : List Char} (htext : text ∈ texts commands)
    (htext' : text' ∈ texts commands)
    (hne : leverageText market text ≠ leverageIn data market text) :
    (leverageText market text').getD defaultLeverage = defaultLeverage := by
  have honce := getD_eq_of_once hall htext
  have honce' := getD_eq_of_once hall htext'
  by_contra hother
  have htexts : text ≠ text' := by
    rintro rfl
    cases hlook : leverageText market text <;> cases htrade : leverageIn data market text <;>
      simp_all
  obtain ⟨command, hcommand, hrecorded⟩ := htext
  obtain ⟨command', hcommand', hrecorded'⟩ := htext'
  have hpreferred := (hall [(0, command), (0, command), (0, command')] fun e he => by
    rcases List.mem_cons.mp he with rfl | he
    · exact hcommand
    · rcases List.mem_cons.mp he with rfl | he
      · exact hcommand
      · rw [List.mem_singleton.mp he]
        exact hcommand').supplied
  have hlooked := isChoice_supplied (stored [(0, command), (0, command), (0, command')]) market
  have hperm := stored_twice_once hrecorded hrecorded' htexts
  unfold IsPreferred at hpreferred
  replace hpreferred := hpreferred.perm hperm
  replace hlooked := hlooked.perm hperm
  generalize supplied _ _ = leverage at hpreferred hlooked
  generalize defaultLeverage = two at *
  cases hlook : leverageText market text with
  | none =>
    cases htrade : leverageIn data market text with
    | none => exact hne (hlook.trans htrade.symm)
    | some v =>
      rw [hlook, htrade] at honce
      obtain rfl : two = v := honce
      refine not_isChoice_pair ?_ ?_ Nat.one_lt_two ?_ hlooked hpreferred
      · exact hlook
      · exact htrade
      · exact hother
  | some v =>
    cases htrade : leverageIn data market text with
    | none =>
      rw [hlook, htrade] at honce
      obtain rfl : v = two := honce
      rw [honce'] at hother
      refine not_isChoice_pair ?_ ?_ Nat.one_lt_two ?_ hpreferred hlooked
      · exact htrade
      · exact hlook
      · exact hother
    | some v' =>
      rw [hlook, htrade] at honce
      exact hne (by rw [hlook, htrade, show v = v' from honce])

end Histories

/-- **The preferred leverage is supplied** whatever is recorded of some commands, just where each
of their texts reads as it trades, or where none has a leverage but the default one. -/
theorem suppliesPreferred_iff (data : ParserData) (market : List Char)
    (commands : Set (List Char)) :
    (∀ history, HistoryOf commands history → SuppliesPreferred data (stored history) market) ↔
      ReadsTraded data market (texts commands) ∨ OnlyDefault data market (texts commands) := by
  constructor
  · intro hall
    by_cases hreads : ReadsTraded data market (texts commands)
    · exact Or.inl hreads
    · refine Or.inr fun text' htext' => ?_
      unfold ReadsTraded at hreads
      push Not at hreads
      obtain ⟨text, htext, hne⟩ := hreads
      have hlooked := default_of_twice_once hall htext htext' hne
      exact ⟨hlooked, by rw [← getD_eq_of_once hall htext', hlooked]⟩
  · rintro (hreads | honly) history hhistory
    · exact suppliesPreferred_of_supplied (isPreferred_of_readsTraded hreads hhistory)
    · exact suppliesPreferred_of_supplied (isPreferred_of_onlyDefault honly hhistory)

/-! ## Another name -/

/-- A trade of a market under its other name. -/
def bitcoinTrade : List Char := "long bitcoin 5x 100".toList

theorem tradedWith_bitcoinTrade : tradedWith cryptoMarkets bitcoinTrade =
      some ("BTC".toList, parseInt ['5']) ∧ defaultLeverage ≠ parseInt ['5'] := by
  decide +kernel

/-- Its leverage is not found under the market. -/
theorem not_suppliesPreferred : ¬ ∀ history : List (ℤ × List Char),
    SuppliesPreferred cryptoMarkets (stored history) "BTC".toList := by
  intro hall
  have htext : tradeText bitcoinTrade = some bitcoinTrade := by decide
  have hlook : leverageText "BTC".toList bitcoinTrade = none := by decide
  have htraded : leverageIn cryptoMarkets "BTC".toList bitcoinTrade = some (parseInt ['5']) := by
    unfold leverageIn
    rw [tradedWith_bitcoinTrade.1, Option.bind_some, if_pos rfl]
  have hpreferred := (hall [(0, bitcoinTrade)]).supplied
  have hlooked := isChoice_supplied (stored [(0, bitcoinTrade)]) "BTC".toList
  unfold IsPreferred at hpreferred
  rw [stored_once htext, isChoice_singleton] at hpreferred hlooked
  rw [hlooked, hlook, htraded, Option.getD_none, Option.getD_some] at hpreferred
  exact tradedWith_bitcoinTrade.2 hpreferred

end TradePredictor

end FlashEdge
