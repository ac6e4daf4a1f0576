import FlashEdge.Theory.Tally
import FlashEdge.Ai.OpenParser

/-!
# The trade predictor (`cli/trade-predictor.ts`)

Trade commands are recorded as normalized texts with a use count, the best twenty of them. The
preferred leverage of a market is looked up in these texts.

- `namedLeverage`, `leverage_of_flexParseOpen`: an open has the leverage that its text names, or
  else the preferred one.
- `recordTradeCommand`, `stored`: what a history of commands leaves.
- `getPreferredLeverage`: the look-up.
- `text_of_mem_stored`: what is stored was recorded.
- `stored_once`, `stored_twice_once`: histories of one and of two commands.
- `isChoice_supplied`: the leverage that is supplied is a choice among those that are looked up.
-/

namespace FlashEdge

/-!
## The leverage that a text names

`flexParseOpen` reads the leverage of an open from the text, and only where it has read none it
supplies one. What it reads depends on the text alone.
-/

namespace Interpreter

open Pattern

/-- The leverage that the text of an open names, if its side is found. -/
def namedLeverage (input : List Char) : Option SdkNumber :=
  let (mainPart, _) :=
    match tpSlSplit.exec input with
    | some m => (trim (m.group 1), m.group 2)
    | none => (input, [])
  let body := stripLeading 3 mainPart
  let body := atAmount.replaceAll (fun m => '$' :: m.group 1) body
  let body := openFiller.replaceAll (fun _ => [' ']) body
  let body := leverageNumber.replaceAll (fun m => m.group 1 ++ ['x']) body
  let body := trim (collapse body)
  let body := if (sideWord.exec body).isSome then takeOut sideWord body else body
  let levMatch := leverageWord.exec body
  let body := if levMatch.isSome then takeOut leverageWord body else body
  (takeCollateral (levMatch.map fun m => parseFloat (m.group 1)) body).2.1.filter SdkNumber.truthy

/-- What the rest of the parser makes of a collateral, a leverage and a market. -/
theorem leverage_of_checked {market : Option (List Char)} {collateral leverage : Option SdkNumber}
    {side : TradeSide} {tp sl : Option SdkNumber} {f : List Char → SdkNumber}
    {intent : ParsedIntent}
    (h : (match market, collateral with
      | some market, some collateral =>
        if ¬ finitePositive collateral then none
        else
          let leverage :=
            if leverage.any SdkNumber.truthy then leverage else some (f market)
          if ¬ leverage.any finiteAtLeastOne then none
          else
            some {
              action := .OpenPosition
              market := some market
              side := some side
              collateral := some collateral
              leverage
              takeProfit := tp
              stopLoss := sl }
      | _, _ => none) = some intent) :
    ∃ m, intent.market = some m ∧
      intent.leverage = some ((leverage.filter SdkNumber.truthy).getD (f m)) := by
  split at h
  · next m c =>
    obtain ⟨-, h⟩ := Option.ite_none_left_eq_some.mp h
    obtain ⟨-, h⟩ := Option.ite_none_left_eq_some.mp h
    obtain rfl := Option.some.inj h
    refine ⟨m, rfl, ?_⟩
    cases leverage with
    | none => rfl
    | some l =>
      by_cases hl : l.truthy = true
      · rw [Option.filter_some_pos hl]
        exact if_pos hl
      · rw [Option.filter_some_neg (Bool.eq_false_of_not_eq_true hl)]
        exact if_neg hl
  · cases h

/-- **The leverage of an open** is the one that is named, or else the preferred one. -/
theorem leverage_of_flexParseOpen {data : ParserData} {input : List Char} {intent : ParsedIntent}
    (h : flexParseOpen data input = some intent) :
    ∃ market, intent.market = some market ∧
      intent.leverage = some ((namedLeverage input).getD
        ((data.getPreferredLeverage market).getD (parseInt ['2']))) := by
  unfold flexParseOpen at h
  unfold namedLeverage
  dsimp only at h ⊢
  generalize takeCollateral _ _ = taken at h ⊢
  split at h
  · cases h
  · split at h
    · cases h
    · exact leverage_of_checked
        (f := fun m => (data.getPreferredLeverage m).getD (parseInt ['2'])) h

end Interpreter

namespace TradePredictor

open Interpreter Pattern

structure CommandPattern where
  command : List Char
  count : ℕ
  /-- milliseconds -/
  lastUsed : ℤ
deriving DecidableEq

def MAX_PATTERNS : ℕ := 20

/-! ## Recording -/

/-- The text under which a command is recorded, if it looks like a trade. -/
def tradeText (command : List Char) : Option (List Char) :=
  let normalized := Interpreter.trim (collapse ((lowerCase command).filter fun c => c ≠ '$'))
  if normalized = [] ∨ 100 < normalized.length then none
  else if ¬ sideWord.test normalized ∨ ¬ normalized.any Char.isDigit then none
  else some normalized

/-- One more use of a text. -/
def used (now : ℤ) (normalized : List Char) : List CommandPattern → List CommandPattern
  | [] => [{ command := normalized, count := 1, lastUsed := now }]
  | p :: ps =>
    if p.command = normalized then { p with count := p.count + 1, lastUsed := now } :: ps
    else p :: used now normalized ps

/-- Count times recency, which falls from two to one within a day. -/
def score (now : ℤ) (p : CommandPattern) : ℚ :=
  p.count * (1 + max 0 (1 - (now - p.lastUsed : ℤ) / 86400000))

def recordTradeCommand (now : ℤ) (patterns : List CommandPattern) (command : List Char) :
    List CommandPattern :=
  match tradeText command with
  | none => patterns
  | some normalized =>
    ((used now normalized patterns).insertionSort fun a b => score now b ≤ score now a).take
      MAX_PATTERNS

/-- What a history leaves: commands with the times at which they were recorded. -/
def stored (history : List (ℤ × List Char)) : List CommandPattern :=
  history.foldl (fun patterns e => recordTradeCommand e.1 patterns e.2) []

/-! ## The look-up -/

/-- `(\d+(?:\.\d+)?)\s*x`. -/
def levMatch : Pattern := seqs [group 1 number, many isSpace, lit "x"]

/-- The leverage that is looked up in a command. -/
def leverageText (market command : List Char) : Option SdkNumber :=
  if lowerCase market <:+: command then
    (levMatch.exec command).map fun m => parseFloat (m.group 1)
  else none

def levCounts (patterns : List CommandPattern) (market : List Char) : OrderedMap SdkNumber ℕ :=
  tally (fun p => leverageText market p.command) CommandPattern.count patterns

/-- The keys that a record lists first. -/
def isArrayIndex : SdkNumber → Bool
  | .finite n =>
    !n.negative && decide (0 ≤ n.exponent) &&
      decide (n.digits * 10 ^ n.exponent.toNat < 2 ^ 32 - 1)
  | _ => false

/-- `Object.entries`: array indices by size, then the other keys as they were added. -/
def objectEntries (m : OrderedMap SdkNumber ℕ) : List (SdkNumber × ℕ) :=
  (m.entries.filter fun e => isArrayIndex e.1).insertionSort
      (fun a b => numberLe a.1 b.1 = true) ++
    m.entries.filter fun e => !isArrayIndex e.1

def getPreferredLeverage (patterns : List CommandPattern) (market : List Char) :
    Option SdkNumber :=
  heaviest (objectEntries (levCounts patterns market))

/-- The parser, with the patterns that are stored. -/
def withPatterns (data : ParserData) (patterns : List CommandPattern) : ParserData :=
  { data with getPreferredLeverage := getPreferredLeverage patterns }

/-- The leverage without a history. -/
def defaultLeverage : SdkNumber := parseInt ['2']

/-- The leverage that `flexParseOpen` supplies where none is named. -/
def supplied (patterns : List CommandPattern) (market : List Char) : SdkNumber :=
  (getPreferredLeverage patterns market).getD defaultLeverage

/-! ## What is stored -/

theorem mem_used {now : ℤ} {text : List Char} {ps : List CommandPattern} {p : CommandPattern}
    (h : p ∈ used now text ps) : p.command = text ∨ ∃ q ∈ ps, q.command = p.command := by
  induction ps with
  | nil =>
    obtain rfl := List.mem_singleton.mp h
    exact Or.inl rfl
  | cons q ps ih =>
    unfold used at h
    split at h
    · next htext =>
      rcases List.mem_cons.mp h with rfl | h
      · exact Or.inl htext
      · exact Or.inr ⟨p, List.mem_cons_of_mem q h, rfl⟩
    · rcases List.mem_cons.mp h with rfl | h
      · exact Or.inr ⟨p, List.mem_cons_self, rfl⟩
      · rcases ih h with htext | ⟨r, hr, hcommand⟩
        · exact Or.inl htext
        · exact Or.inr ⟨r, List.mem_cons_of_mem q hr, hcommand⟩

/-- **What is stored was recorded**, under the text of a command of the history. -/
theorem text_of_mem_stored {history : List (ℤ × List Char)} {p : CommandPattern}
    (h : p ∈ stored history) : ∃ e ∈ history, tradeText e.2 = some p.command := by
  induction history using List.reverseRecOn generalizing p with
  | nil => cases h
  | append_singleton history e ih =>
    unfold stored at h
    rw [List.foldl_append] at h
    change p ∈ recordTradeCommand e.1 (stored history) e.2 at h
    have hbefore : ∀ {q : CommandPattern}, q ∈ stored history →
        ∃ e' ∈ history ++ [e], tradeText e'.2 = some q.command := by
      intro q hq
      obtain ⟨e', he', htext⟩ := ih hq
      exact ⟨e', List.mem_append_left [e] he', htext⟩
    unfold recordTradeCommand at h
    split at h
    · exact hbefore h
    · next text htext =>
      have hused := (List.mem_insertionSort _).mp (List.mem_of_mem_take h)
      rcases mem_used hused with hcommand | ⟨q, hq, hcommand⟩
      · exact ⟨e, by simp, by rw [htext, hcommand]⟩
      · rw [← hcommand]
        exact hbefore hq

/-- Up to twenty patterns are all kept. -/
theorem recordTradeCommand_perm {now : ℤ} {ps : List CommandPattern} {command text : List Char}
    (htext : tradeText command = some text)
    (hlength : (used now text ps).length ≤ MAX_PATTERNS) :
    (recordTradeCommand now ps command).Perm (used now text ps) := by
  have hrecord : recordTradeCommand now ps command =
      ((used now text ps).insertionSort fun a b => score now b ≤ score now a).take
        MAX_PATTERNS := by
    unfold recordTradeCommand
    rw [htext]
  rw [hrecord, List.take_of_length_le (by rwa [List.length_insertionSort])]
  exact List.perm_insertionSort _ _

/-- A history of one command. -/
theorem stored_once {command text : List Char} (htext : tradeText command = some text) :
    stored [(0, command)] = [{ command := text, count := 1, lastUsed := 0 }] :=
  List.perm_singleton.mp (recordTradeCommand_perm htext (by simp [used, MAX_PATTERNS]))

/-- A history of two commands, the first of them recorded twice. -/
theorem stored_twice_once {command command' text text' : List Char}
    (htext : tradeText command = some text) (htext' : tradeText command' = some text')
    (hne : text ≠ text') :
    (stored [(0, command), (0, command), (0, command')]).Perm
      [{ command := text, count := 2, lastUsed := 0 },
        { command := text', count := 1, lastUsed := 0 }] := by
  have htwice : stored [(0, command), (0, command)] =
      [{ command := text, count := 2, lastUsed := 0 }] := by
    change recordTradeCommand 0 (stored [(0, command)]) command = _
    rw [stored_once htext]
    have hused : used 0 text [{ command := text, count := 1, lastUsed := 0 }] =
        [{ command := text, count := 2, lastUsed := 0 }] := if_pos rfl
    rw [← List.perm_singleton, ← hused]
    exact recordTradeCommand_perm htext (by rw [hused]; simp [MAX_PATTERNS])
  change (recordTradeCommand 0 (stored [(0, command), (0, command)]) command').Perm _
  rw [htwice]
  have hused : used 0 text' [{ command := text, count := 2, lastUsed := 0 }] =
      [{ command := text, count := 2, lastUsed := 0 },
        { command := text', count := 1, lastUsed := 0 }] := if_neg hne
  rw [← hused]
  exact recordTradeCommand_perm htext' (by rw [hused]; simp [MAX_PATTERNS])

/-! ## What is looked up -/

theorem objectEntries_perm (m : OrderedMap SdkNumber ℕ) : (objectEntries m).Perm m.entries :=
  ((List.perm_insertionSort _ _).append_right _).trans (List.filter_append_perm _ m.entries)

/-- **The supplied leverage is a choice** among those that the stored texts have. -/
theorem isChoice_supplied (patterns : List CommandPattern) (market : List Char) :
    IsChoice (fun p => leverageText market p.command) CommandPattern.count defaultLeverage
      patterns (supplied patterns market) :=
  isChoice_heaviest (objectEntries_perm _) defaultLeverage

end TradePredictor

end FlashEdge
