import FlashEdge.Ai.TokenTexts
import FlashEdge.JsNumberText
import FlashEdge.Theory.OrderedMap
import Mathlib.Data.List.Sort

/-!
# Opens in magic mode (`parseMagicOpenArgs`, `cli/terminal.ts`)

The arguments of `magic open` are read token by token, in any order, after noise words are taken
out: a side, a market of the pool, a leverage `Nx`, and numbers. A token of no kind is skipped,
and of several tokens of one kind the last counts; numbers are told apart afterwards.

- `parseMagicOpenArgs`: the parser.
- `OpenedAs`: what a result says about the tokens.
- `openedAs_of_parse`: every result says so.
- `parse_of_perm`: four tokens, one of each kind, give the same in every order.
-/

namespace FlashEdge

namespace Magic

open Pattern Interpreter
open NumberText (value)

/-! ## The pool's symbols -/

def ALIAS_MAP : List (String × List String) :=
  [("SOL", ["solana"]), ("BTC", ["bitcoin"]), ("ETH", ["ethereum", "ether"]), ("BNB", ["binance"]),
    ("MON", ["monad"]), ("SUI", ["sui"]), ("HYPE", ["hyperliquid"]), ("ZEC", ["zcash"]),
    ("SPY", ["sp500", "s&p", "s&p500"]), ("AAPL", ["apple"]), ("TSLA", ["tesla"]),
    ("NVDA", ["nvidia"]), ("AMZN", ["amazon"]), ("INTC", ["intel"]), ("LLY", ["lilly"]),
    ("TSM", ["tsmc", "taiwan"]), ("TXN", ["texas"]), ("EUR", ["euro"]),
    ("GBP", ["pound", "sterling"]), ("USDJPY", ["jpy", "yen", "usdjpy"]),
    ("USDCNH", ["cnh", "yuan", "usdcnh"]), ("XAU", ["gold"]), ("XAG", ["silver"]),
    ("CRUDEOIL", ["crude", "oil", "crudeoil"]), ("NATGAS", ["natgas", "gas", "naturalgas"]),
    ("COPPER", ["copper"])]

/-- The symbols of the custodies of a pool. -/
def symbols (custodies : List (List Char)) : List (List Char) := custodies.map upperCase

/-- The names of the symbols that the pool has. -/
def aliases (custodies : List (List Char)) : OrderedMap (List Char) (List Char) :=
  (ALIAS_MAP.filter fun e => e.1.toList ∈ symbols custodies).foldl
    (fun m e => e.2.foldl (fun m n => m.set (lowerCase n.toList) e.1.toList) m) .empty

/-! ## Tokens -/

/-- `\$(\d)`. -/
def dollarDigit : Pattern := seq (lit "$") (group 1 (char Char.isDigit))

/-- The words that are taken out. -/
def noise : Pattern :=
  seqs [boundary,
    alts (["with", "for", "on", "at", "to", "in", "of", "using", "and", "the", "a", "an", "my",
        "position", "collateral"].map lit ++
      [seq (lit "dollar") (optional (lit "s")), seq (lit "buck") (optional (lit "s"))] ++
      ["usd", "usdc", "leverage", "lev"].map lit),
    boundary]

/-- One word without dollar signs and noise. -/
def clean (t : List Char) : List Char :=
  noise.replaceAll (fun _ => [' ']) (dollarDigit.replaceAll (fun m => m.group 1) (lowerCase t))

def magicTokens (argString : List Char) : List (List Char) :=
  splitWords (Interpreter.trim (collapse (clean argString)))

/-- `^(\d+(?:\.\d+)?)x$`. -/
def leverageToken : Pattern := seqs [start, group 1 number, lit "x", stop]

/-- `^\d+(?:\.\d+)?$`. -/
def numberToken : Pattern := seqs [start, number, stop]

/-- What a token is. -/
inductive MagicToken where
  | side (s : TradeSide)
  | leverage (n : JsNumber)
  | number (n : JsNumber)
  | market (m : List Char)
  | unknown
deriving DecidableEq

/-- The tests of the loop, in order. -/
def readToken (custodies : List (List Char)) (tok : List Char) : MagicToken :=
  if tok ∈ ["long".toList, "short".toList, "buy".toList, "sell".toList] then
    .side (if tok = "short".toList ∨ tok = "sell".toList then .Short else .Long)
  else
    match leverageToken.exec tok with
    | some m => .leverage (value (parseFloat (m.group 1)))
    | none =>
      if numberToken.test tok then .number (value (parseFloat tok))
      else if upperCase tok ∈ symbols custodies then .market (upperCase tok)
      else
        match (aliases custodies).get? tok with
        | some canon => .market canon
        | none => .unknown

/-! ## The parser -/

/-- The variables of the loop. -/
structure OpenWords where
  side : Option TradeSide := none
  leverage : Option JsNumber := none
  market : Option (List Char) := none
  numbers : List JsNumber := []

def addToken (w : OpenWords) : MagicToken → OpenWords
  | .side s => { w with side := some s }
  | .leverage n => { w with leverage := some n }
  | .number n => { w with numbers := w.numbers ++ [n] }
  | .market m => { w with market := some m }
  | .unknown => w

/-- `(a, b) => a - b` puts `a` first. -/
def ascending (a b : JsNumber) : Prop := (a - b).gt 0 = false

instance (a b : JsNumber) : Decidable (ascending a b) := by
  unfold ascending
  infer_instance

/-- Which numbers are collateral and leverage. -/
def resolveNumbers (w : OpenWords) : Option JsNumber × Option JsNumber :=
  match w.numbers, w.leverage with
  | [], leverage => (none, leverage)
  | collateral :: _, some leverage => (some collateral, some leverage)
  | [_], none => (none, none)
  | numbers, none =>
    let sorted := numbers.insertionSort ascending
    (sorted[1]?, sorted[0]?)

structure MagicOpenParams where
  market : List Char
  side : TradeSide
  collateral : ℚ
  leverage : ℚ
deriving DecidableEq

/-- The checks at the end. -/
def checked (market : Option (List Char)) (side : Option TradeSide) :
    Option JsNumber × Option JsNumber → Option MagicOpenParams
  | (some (.finite collateral), some (.finite leverage)) =>
    match market, side with
    | some market, some side =>
      if market ≠ [] ∧ 0 < collateral ∧ 0 < leverage then
        some { market, side, collateral, leverage }
      else none
    | _, _ => none
  | _ => none

/-- What the tokens give. -/
def openOf (tokens : List MagicToken) : Option MagicOpenParams :=
  let w := tokens.foldl addToken {}
  checked w.market w.side (resolveNumbers w)

def parseMagicOpenArgs (custodies : List (List Char)) (argString : List Char) :
    Option MagicOpenParams :=
  openOf ((magicTokens argString).map (readToken custodies))

/-! ## What a result says -/

namespace MagicToken

def side? : MagicToken → Option TradeSide
  | .side s => some s
  | _ => none

def leverage? : MagicToken → Option JsNumber
  | .leverage n => some n
  | _ => none

def number? : MagicToken → Option JsNumber
  | .number n => some n
  | _ => none

def market? : MagicToken → Option (List Char)
  | .market m => some m
  | _ => none

end MagicToken

open MagicToken

/-- The loop keeps the last token of each kind, and all numbers. -/
theorem foldl_addToken (tokens : List MagicToken) :
    tokens.foldl addToken {} =
      { side := (tokens.filterMap side?).getLast?
        leverage := (tokens.filterMap leverage?).getLast?
        market := (tokens.filterMap market?).getLast?
        numbers := tokens.filterMap number? } := by
  induction tokens using List.reverseRecOn with
  | nil => rfl
  | append_singleton tokens t ih =>
    rw [List.foldl_append, List.foldl_cons, List.foldl_nil, ih]
    simp only [List.filterMap_append]
    cases t with
    | side s => simp [addToken, side?, leverage?, number?, market?]
    | leverage n => simp [addToken, side?, leverage?, number?, market?]
    | number n => simp [addToken, side?, leverage?, number?, market?]
    | market m => simp [addToken, side?, leverage?, number?, market?]
    | unknown => simp [addToken, side?, leverage?, number?, market?]

/-- What a result says about the tokens: it has the last market and the last side, with the last
leverage and the first number, or without a leverage with the smaller and the larger of two
numbers. -/
structure OpenedAs (tokens : List MagicToken) (r : MagicOpenParams) : Prop where
  market : (tokens.filterMap market?).getLast? = some r.market
  side : (tokens.filterMap side?).getLast? = some r.side
  amounts :
    ((tokens.filterMap leverage?).getLast? = some (.finite r.leverage) ∧
      (tokens.filterMap number?).head? = some (.finite r.collateral)) ∨
    (tokens.filterMap leverage? = [] ∧ 2 ≤ (tokens.filterMap number?).length ∧
      ((tokens.filterMap number?).length = 2 →
        (tokens.filterMap number?).Perm [.finite r.leverage, .finite r.collateral] ∧
          r.leverage ≤ r.collateral))
  positive : 0 < r.collateral ∧ 0 < r.leverage

/-- What the checks let through. -/
theorem checked_eq_some {market : Option (List Char)} {side : Option TradeSide}
    {amounts : Option JsNumber × Option JsNumber} {r : MagicOpenParams}
    (h : checked market side amounts = some r) :
    market = some r.market ∧ side = some r.side ∧
      amounts = (some (.finite r.collateral), some (.finite r.leverage)) ∧
      0 < r.collateral ∧ 0 < r.leverage := by
  unfold checked at h
  split at h
  · split at h
    · split at h
      · next hpositive =>
        obtain rfl := Option.some.inj h
        exact ⟨rfl, rfl, rfl, hpositive.2⟩
      · cases h
    · cases h
  · cases h

theorem ascending_finite {p q : ℚ} : ascending (.finite p) (.finite q) ↔ p ≤ q := by
  unfold ascending
  rw [JsNumber.finite_sub_finite]
  show (JsNumber.finite _).gt (.finite 0) = false ↔ _
  rw [JsNumber.gt_finite_finite, decide_eq_false_iff_not, not_lt, sub_nonpos]

/-- Two numbers are told apart by their size. -/
theorem sorted_pair {numbers : List JsNumber} {p q : ℚ} (hlength : numbers.length = 2)
    (hp : (numbers.insertionSort ascending)[0]? = some (.finite p))
    (hq : (numbers.insertionSort ascending)[1]? = some (.finite q)) :
    numbers.Perm [.finite p, .finite q] ∧ p ≤ q := by
  obtain ⟨a, b, rfl⟩ := List.length_eq_two.mp hlength
  have hsort : [a, b].insertionSort ascending = if ascending a b then [a, b] else [b, a] := rfl
  rw [hsort] at hp hq
  split at hp
  · next hasc =>
    rw [if_pos hasc] at hq
    obtain rfl := Option.some.inj hp
    obtain rfl := Option.some.inj hq
    exact ⟨List.Perm.refl _, ascending_finite.mp hasc⟩
  · next hasc =>
    rw [if_neg hasc] at hq
    obtain rfl := Option.some.inj hp
    obtain rfl := Option.some.inj hq
    rw [ascending_finite, not_le] at hasc
    exact ⟨List.Perm.swap _ _ _, hasc.le⟩

theorem openedAs_of_openOf {tokens : List MagicToken} {r : MagicOpenParams}
    (h : openOf tokens = some r) : OpenedAs tokens r := by
  unfold openOf at h
  rw [foldl_addToken] at h
  obtain ⟨hmarket, hside, hamounts, hpositive⟩ := checked_eq_some h
  refine ⟨hmarket, hside, ?_, hpositive⟩
  simp only [resolveNumbers] at hamounts
  cases hnumbers : tokens.filterMap number? with
  | nil =>
    rw [hnumbers] at hamounts
    cases (Prod.mk.inj hamounts).1
  | cons n numbers =>
    cases hlast : (tokens.filterMap leverage?).getLast? with
    | some l =>
      rw [hnumbers, hlast] at hamounts
      obtain ⟨hc, hl⟩ := Prod.mk.inj hamounts
      exact .inl ⟨hl, hc⟩
    | none =>
      cases numbers with
      | nil =>
        rw [hnumbers, hlast] at hamounts
        cases (Prod.mk.inj hamounts).1
      | cons n' numbers =>
        rw [hnumbers, hlast] at hamounts
        obtain ⟨hc, hl⟩ := Prod.mk.inj hamounts
        refine .inr ⟨List.getLast?_eq_none_iff.mp hlast, Nat.le_add_left 2 numbers.length, ?_⟩
        exact fun hlength => sorted_pair hlength hl hc

/-! ## Texts of four tokens -/

/-- A word of a text that the parser reads as one token. -/
structure ReadAs (custodies : List (List Char)) (w : List Char) (t : MagicToken) : Prop where
  token : IsToken (clean w)
  read : readToken custodies (clean w) = t

theorem splitWords_before {w : List Char} (hw : ∀ c ∈ w, isSpace c = false) {d : Char}
    (hd : isSpace d = false) (rest : List Char) :
    splitWords (w ++ ' ' :: d :: rest) = w :: splitWords (d :: rest) := by
  induction w with
  | nil => rw [List.nil_append, splitWords_space rfl, if_neg (by rw [hd]; exact Bool.false_ne_true)]
  | cons c w ih =>
    exact splitWords_cons (hw c List.mem_cons_self)
      (ih fun e he => hw e (List.mem_cons_of_mem c he))

theorem splitWords_joinWords {ws : List (List Char)} (hne : ws ≠ [])
    (hws : ∀ w ∈ ws, IsToken w) : splitWords (joinWords ws) = ws := by
  induction ws with
  | nil => exact absurd rfl hne
  | cons w ws ih =>
    have hw := (hws w List.mem_cons_self).2
    cases ws with
    | nil => rw [joinWords_singleton, splitWords_word hw]
    | cons v ws =>
      have hrest : ∀ u ∈ v :: ws, IsToken u := fun u hu => hws u (List.mem_cons_of_mem w hu)
      obtain ⟨d, rest, hhead, hd⟩ := head_tokens (hrest v List.mem_cons_self) ws
      rw [joinWords_cons, hhead, splitWords_before hw hd, ← hhead,
        ih (List.cons_ne_nil v ws) hrest]

/-- The words are cleaned one by one. -/
theorem clean_joinWords (ws : List (List Char)) :
    clean (joinWords ws) = joinWords (ws.map clean) := by
  have hlower : lowerCase (joinWords ws) = joinWords (ws.map lowerCase) := by
    induction ws with
    | nil => rfl
    | cons w ws ih =>
      cases ws with
      | nil => rw [List.map_singleton, joinWords_singleton, joinWords_singleton]
      | cons v ws =>
        rw [List.map_cons] at ih ⊢
        rw [List.map_cons, joinWords_cons, joinWords_cons, ← ih]
        exact List.map_append
  unfold clean
  rw [hlower]
  unfold joinWords
  rw [replaceAll_joined (by decide) (by decide) (by decide) (fun _ _ _ => rfl),
    replaceAll_joined (by decide) (by decide) (by decide) (fun _ _ _ => rfl), List.map_map,
    List.map_map]
  rfl

/-- The tokens of a text of words that are one token each. -/
theorem magicTokens_joinWords {ws : List (List Char)} (hne : ws ≠ [])
    (hws : ∀ w ∈ ws, IsToken (clean w)) : magicTokens (joinWords ws) = ws.map clean := by
  have htokens : ∀ u ∈ ws.map clean, IsToken u := by
    intro u hu
    obtain ⟨w, hw, rfl⟩ := List.mem_map.mp hu
    exact hws w hw
  unfold magicTokens
  rw [clean_joinWords, trim_collapse (spaced_joinWords htokens)]
  exact splitWords_joinWords (fun h => hne (List.map_eq_nil_iff.mp h)) htokens

/-- One token of each kind, in any order. -/
theorem openOf_perm {tokens : List MagicToken} {s : TradeSide} {m : List Char} {l c : JsNumber}
    (h : tokens.Perm [.side s, .market m, .leverage l, .number c]) :
    openOf tokens = checked (some m) (some s) (some c, some l) := by
  have hside : tokens.filterMap side? = [s] := List.perm_singleton.mp (h.filterMap side?)
  have hleverage : tokens.filterMap leverage? = [l] :=
    List.perm_singleton.mp (h.filterMap leverage?)
  have hmarket : tokens.filterMap market? = [m] := List.perm_singleton.mp (h.filterMap market?)
  have hnumbers : tokens.filterMap number? = [c] := List.perm_singleton.mp (h.filterMap number?)
  unfold openOf
  rw [foldl_addToken, hside, hleverage, hmarket, hnumbers]
  rfl

/-- Four words, one of each kind, give the same in every order. -/
theorem parse_of_perm {custodies : List (List Char)} {side market leverage collateral : List Char}
    {s : TradeSide} {m : List Char} {l c : JsNumber} (hside : ReadAs custodies side (.side s))
    (hmarket : ReadAs custodies market (.market m))
    (hleverage : ReadAs custodies leverage (.leverage l))
    (hcollateral : ReadAs custodies collateral (.number c)) {ws : List (List Char)}
    (hws : ws.Perm [side, market, leverage, collateral]) :
    parseMagicOpenArgs custodies (joinWords ws) = checked (some m) (some s) (some c, some l) := by
  have htoken : ∀ w ∈ ws, IsToken (clean w) := by
    intro w hw
    have hmem := hws.mem_iff.mp hw
    simp only [List.mem_cons, List.not_mem_nil, or_false] at hmem
    rcases hmem with rfl | rfl | rfl | rfl
    · exact hside.token
    · exact hmarket.token
    · exact hleverage.token
    · exact hcollateral.token
  have hne : ws ≠ [] := fun h => by
    rw [h] at hws
    exact absurd hws.symm.eq_nil (List.cons_ne_nil _ _)
  unfold parseMagicOpenArgs
  rw [magicTokens_joinWords hne htoken, List.map_map]
  refine openOf_perm ?_
  have hread := hws.map (readToken custodies ∘ clean)
  simp only [List.map_cons, List.map_nil, Function.comp, hside.read, hmarket.read, hleverage.read,
    hcollateral.read] at hread
  exact hread

def withTakeProfit : List Char := "sol long 10 5x tp 160".toList

theorem parse_withTakeProfit :
    parseMagicOpenArgs ["SOL".toList] withTakeProfit = some ⟨"SOL".toList, .Long, 10, 5⟩ := by
  decide +kernel

end Magic

end FlashEdge
