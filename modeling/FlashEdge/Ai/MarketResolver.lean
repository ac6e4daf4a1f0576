import FlashEdge.Sdk.TradeCalls
import FlashEdge.Theory.Regex
import Mathlib.Data.List.Sort

/-!
# Names in commands (`utils/market-resolver.ts`, `cli/trade-templates.ts`, `cli/learned-aliases.ts`)

Before a command is parsed its text is rewritten: templates and aliases that the user
has defined, short forms of the first word, number words, and the aliases of markets.
What is known of markets and pools comes with the protocol's package, and the user's
definitions from files: both are `ParserData`, whose fields say what such names look
like. Texts are ASCII where their case or length matters.
-/

namespace FlashEdge

open Pattern

/-- A symbol of a market or the name of a pool. -/
def IsName (t : List Char) : Prop := t ≠ [] ∧ ∀ c ∈ t, c.isAlphanum = true ∨ c = '.'

instance (t : List Char) : Decidable (IsName t) :=
  decidable_of_iff (t ≠ [] ∧ t.all (fun c => c.isAlphanum || c = '.') = true) (by simp [IsName])

/-- What `setAlias` accepts as a shortcut. -/
def IsShortcut (t : List Char) : Prop :=
  t ≠ [] ∧ ∀ c ∈ t, c.isLower = true ∨ c.isDigit = true ∨ c = '_' ∨ c = '-'

/-- `getAllMarkets`, the symbols of the market registry, `POOL_NAMES`, the templates and
learned aliases of the user, and the leverage the user prefers in a market. -/
structure ParserData where
  markets : List (List Char)
  registered : List (List Char)
  pools : List (List Char)
  templates : List (List Char × List Char) := []
  learnedAliases : List (List Char × List Char) := []
  getPreferredLeverage : List Char → Option SdkNumber := fun _ => none
  market_name : ∀ m ∈ markets, IsName m
  pool_name : ∀ p ∈ pools, IsName p
  shortcut : ∀ e ∈ learnedAliases, IsShortcut e.1

/-- `getAllMarkets().includes(m)`. -/
instance (data : ParserData) (m : List Char) : Decidable (m ∈ data.markets) :=
  decidableMemTexts m data.markets

/-- The name of a pool. -/
theorem isName_crypto : ∀ p ∈ ["Crypto.1".toList], IsName p := by decide

theorem isShortcut_nil : ∀ e ∈ ([] : List (List Char × List Char)), IsShortcut e.1 :=
  fun _ h => by cases h

namespace Interpreter

def lowerCase (t : List Char) : List Char := t.map Char.toLower

def upperCase (t : List Char) : List Char := t.map Char.toUpper

/-- `t.trim()`. -/
def trim (t : List Char) : List Char :=
  ((t.dropWhile isSpace).reverse.dropWhile isSpace).reverse

/-- `t.replace(/\s+/g, ' ')`. -/
def collapse (t : List Char) : List Char := spaces.replaceAll (fun _ => [' ']) t

/-- `t.split(/\s+/)`. -/
def splitWords : List Char → List (List Char)
  | [] => [[]]
  | c :: rest =>
    if isSpace c then
      match rest with
      | [] => [[], []]
      | d :: _ => if isSpace d then splitWords rest else [] :: splitWords rest
    else
      match splitWords rest with
      | [] => [[c]]
      | word :: words => (c :: word) :: words

/-- The value of an object under a key, when it is a text that is not empty. -/
def lookUp (entries : List (List Char × List Char)) (key : List Char) : Option (List Char) :=
  (entries.find? fun e => e.1 = key && !e.2.isEmpty).map Prod.snd

/-- Longer keys first. -/
def byLength (entries : List (List Char × List Char)) : List (List Char × List Char) :=
  entries.insertionSort fun a b => b.1.length ≤ a.1.length

/-! ## Markets -/

/-- The aliases of the symbols. -/
def KNOWN_ALIASES : List (String × List String) :=
  [("SOL", ["solana"]), ("BTC", ["bitcoin"]), ("ETH", ["ethereum", "ether"]),
    ("BNB", ["binance"]), ("ZEC", ["zcash"]), ("JTO", ["jito"]), ("JUP", ["jupiter"]),
    ("RAY", ["raydium"]), ("KMNO", ["kamino"]), ("MET", ["metaplex"]), ("PYTH", ["pyth"]),
    ("BONK", ["bonk"]), ("WIF", ["wif", "dogwifhat"]), ("PENGU", ["penguin", "pengu"]),
    ("PUMP", ["pumpfun", "pump"]), ("FARTCOIN", ["fartcoin", "fart"]), ("ORE", ["ore"]),
    ("HYPE", ["hyperliquid", "hype"]), ("XAU", ["gold"]), ("XAG", ["silver"]),
    ("CRUDEOIL", ["crude", "oil", "crude oil", "crudeoil"]),
    ("NATGAS", ["natural gas", "nat gas", "gas"]), ("EUR", ["euro"]),
    ("GBP", ["pound", "sterling"]), ("USDJPY", ["yen"]), ("USDCNH", ["yuan"]),
    ("SPY", ["sp500", "s&p", "s&p500", "sp 500"]), ("NVDA", ["nvidia"]), ("TSLA", ["tesla"]),
    ("AAPL", ["apple"]), ("AMD", ["amd"]), ("AMZN", ["amazon"]), ("PLTR", ["palantir"])]

/-- All of them, each with its symbol. -/
def knownAliases : List (List Char × List Char) :=
  KNOWN_ALIASES.flatMap fun e => e.2.map fun w => (w.toList, e.1.toList)

/-- `getAllAliases`: the aliases of the symbols in the registry. No alias is one of two
symbols. -/
def getMarketAliasMap (data : ParserData) : List (List Char × List Char) :=
  data.registered.flatMap fun symbol => knownAliases.filter fun e => e.2 = symbol

/-- `/[-\s]?perp(?:etual)?$/i`. -/
def perpSuffix : Pattern :=
  seqs [optional (char fun c => c = '-' || isSpace c), litIgnoreCase "perp".toList,
    optional (litIgnoreCase "etual".toList), stop]

/-- `resolveMarket`; every suffix that is stripped makes the text shorter. -/
def resolveMarketWith (data : ParserData) : ℕ → List Char → List Char
  | fuel, input =>
    let trimmed := trim input
    if trimmed = [] then []
    else
      let upper := upperCase trimmed
      let lower := lowerCase trimmed
      let collapsed := spaces.replaceAll (fun _ => []) upper
      let stripped := trim (perpSuffix.replace (fun _ => []) lower)
      let resolved :=
        match fuel with
        | 0 => []
        | fuel + 1 =>
          if stripped ≠ [] ∧ stripped ≠ lower then resolveMarketWith data fuel stripped else []
      if resolved ≠ [] ∧ resolved ∈ data.markets then resolved
      else if upper ∈ data.markets then upper
      else if collapsed ∈ data.markets then collapsed
      else
        match lookUp (getMarketAliasMap data) lower with
        | some symbol => symbol
        | none =>
          match lookUp (getMarketAliasMap data) (spaces.replaceAll (fun _ => []) lower) with
          | some symbol => symbol
          | none => collapsed

def resolveMarket (data : ParserData) (input : List Char) : List Char :=
  resolveMarketWith data input.length input

/-- An alias with a space in it is replaced wherever it stands. -/
def multiWordAlias (w : List Char) : Pattern := litIgnoreCase w

/-- `\bw\b`, with the flag `i`. -/
def wordPattern (w : List Char) : Pattern := seqs [boundary, litIgnoreCase w, boundary]

/-- `normalizeAssetText`: longer aliases of several words first, then the others. -/
def normalizeAssetText (data : ParserData) (text : List Char) : List Char :=
  let aliasMap := getMarketAliasMap data
  let multiWord := byLength (aliasMap.filter fun e => ' ' ∈ e.1)
  let result := multiWord.foldl
    (fun result e => (multiWordAlias e.1).replaceAll (fun _ => lowerCase e.2) result) text
  (aliasMap.filter fun e => ' ' ∉ e.1).foldl
    (fun result e => (wordPattern e.1).replaceAll (fun _ => lowerCase e.2) result) result

/-! ## Number words -/

def NUMBER_WORDS : List (String × ℕ) :=
  [("zero", 0), ("one", 1), ("two", 2), ("three", 3), ("four", 4), ("five", 5), ("six", 6),
    ("seven", 7), ("eight", 8), ("nine", 9), ("ten", 10), ("eleven", 11), ("twelve", 12),
    ("thirteen", 13), ("fourteen", 14), ("fifteen", 15), ("sixteen", 16), ("seventeen", 17),
    ("eighteen", 18), ("nineteen", 19), ("twenty", 20), ("thirty", 30), ("forty", 40),
    ("fifty", 50), ("sixty", 60), ("seventy", 70), ("eighty", 80), ("ninety", 90),
    ("hundred", 100), ("thousand", 1000)]

/-- `NUMBER_WORDS[word]`. -/
def numberWord (word : List Char) : Option ℕ :=
  (NUMBER_WORDS.find? fun e => e.1.toList = word).map Prod.snd

def onesWords : List String :=
  ["one", "two", "three", "four", "five", "six", "seven", "eight", "nine"]

def tensWords : List String :=
  ["twenty", "thirty", "forty", "fifty", "sixty", "seventy", "eighty", "ninety"]

def anyWord (ws : List String) : Pattern := alts (ws.map fun w => litIgnoreCase w.toList)

/-- "twenty five". -/
def compoundNumber : Pattern :=
  seqs [boundary, group 1 (anyWord tensWords), spaces, group 2 (anyWord onesWords), boundary]

/-- "X hundred". -/
def multipliedNumber (multiplier : String) : Pattern :=
  seqs [boundary, group 1 (alt digits (anyWord (onesWords ++ ["ten"]))), spaces,
    litIgnoreCase multiplier.toList, boundary]

/-- From here on a number is infinite. -/
def MAX_NUMBER : ℕ := 2 ^ 1024 - 2 ^ 970

/-- `String(n)`. -/
def numberText (n : ℕ) : List Char :=
  if n < MAX_NUMBER then (Decimal.ofScaled false n 0).print else "Infinity".toList

/-- The digits of a compound number. -/
def compounded (m : Match) : List Char :=
  numberText ((numberWord (lowerCase (m.group 1))).getD 0 +
    (numberWord (lowerCase (m.group 2))).getD 0)

/-- The digits of a multiplied number, or the number of its word. -/
def multiplied (factor : ℕ) (m : Match) : List Char :=
  let word := m.group 1
  let val := (numberWord (lowerCase word)).getD (Nat.ofDigitChars 10 word 0)
  if val < MAX_NUMBER then numberText (val * factor) else word

def normalizeNumberWords (text : List Char) : List Char :=
  let result := compoundNumber.replaceAll compounded text
  let result := (multipliedNumber "hundred").replaceAll (multiplied 100) result
  let result := (multipliedNumber "thousand").replaceAll (multiplied 1000) result
  -- the multipliers are done
  (NUMBER_WORDS.filter fun e => e.2 < 100).foldl
    (fun result e => (wordPattern e.1.toList).replaceAll (fun _ => numberText e.2) result) result

/-! ## Shortcuts -/

/-- `expandTemplate`, or the text itself. -/
def expandTemplate (data : ParserData) (input : List Char) : List Char :=
  let firstToken := (trim (lowerCase input)).takeWhile fun c => !isSpace c
  match lookUp data.templates firstToken with
  | some template =>
    let rest := trim (input.drop firstToken.length)
    if firstToken = [] then input
    else if rest = [] then template
    else template ++ ' ' :: rest
  | none => input

/-- `expandLearnedAlias`: the longest alias that the text begins with. -/
def expandLearnedAlias (data : ParserData) (input : List Char) : List Char :=
  let lower := lowerCase input
  match (byLength data.learnedAliases).find? fun e =>
      decide (lower = e.1) || (e.1 ++ [' ']).isPrefixOf lower with
  | some (shortcut, expansion) => expansion ++ input.drop shortcut.length
  | none => input

def COMMAND_ALIASES : List (String × String) :=
  [("p", "positions"), ("pos", "positions"), ("m", "monitor"), ("w", "wallet"),
    ("d", "dashboard"), ("b", "portfolio"), ("bal", "portfolio"), ("buy", "open"),
    ("sell", "close")]

/-- `expandAliases`: a short form of the first word. -/
def expandAliases (input : List Char) : List Char :=
  let firstToken := input.takeWhile (· ≠ ' ')
  match COMMAND_ALIASES.find? fun e => e.1.toList = lowerCase firstToken with
  | some (_, expanded) => expanded.toList ++ input.dropWhile (· ≠ ' ')
  | none => input

/-- Control characters become spaces, and spaces one space. -/
def sanitize (input : List Char) : List Char :=
  trim (collapse (input.map fun c => if c.toNat ≤ 0x1F ∨ c.toNat = 0x7F then ' ' else c))

/-- The text that the expressions see, in the case in which it was typed. -/
def normalize (data : ParserData) (input : List Char) : List Char :=
  normalizeAssetText data (normalizeNumberWords (expandAliases
    (expandLearnedAlias data (expandTemplate data (sanitize input)))))

end Interpreter

end FlashEdge
