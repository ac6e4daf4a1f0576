import FlashEdge.Ai.MarketResolver
import FlashEdge.Js
import FlashEdge.Sdk.TradeCalls

/-!
# The numbers of texts

What the runtime reads from a text that comes from outside: `parseFloat` takes the longest
number the text begins with, `Number` wants the whole text to be one. What a double can not hold
is an infinity or zero; finite numbers are exact.
-/

namespace FlashEdge

namespace NumberText

open Pattern Interpreter

/-- `n * 10 ^ e` or its negative. -/
def scaled (negative : Bool) (n : ℕ) (e : ℤ) : SdkNumber :=
  let up := n * 10 ^ e.toNat
  let down := 10 ^ (-e).toNat
  if MAX_NUMBER * down ≤ up then if negative then .negInfinity else .posInfinity
  else if up * 2 ^ 1075 ≤ down then .finite 0
  else .finite (Decimal.ofScaled negative n e)

/-- The sign of a text, and what follows. -/
def readSign : List Char → Bool × List Char
  | '-' :: rest => (true, rest)
  | '+' :: rest => (false, rest)
  | rest => (false, rest)

/-- The exponent a text begins with; without one it is zero, and the text is left. -/
def readExponent (t : List Char) : ℤ × List Char :=
  match t with
  | [] => (0, [])
  | c :: rest =>
    let (negative, ds) := readSign rest
    if (c = 'e' ∨ c = 'E') ∧ ds.takeWhile Char.isDigit ≠ [] then
      let n := Nat.ofDigitChars 10 (ds.takeWhile Char.isDigit) 0
      (if negative then -n else n, ds.dropWhile Char.isDigit)
    else (0, c :: rest)

/-- The decimal that a text without a sign begins with, and what follows. -/
def readDecimal (negative : Bool) (t : List Char) : Option (SdkNumber × List Char) :=
  let int := t.takeWhile Char.isDigit
  let rest := t.dropWhile Char.isDigit
  let (fraction, rest) :=
    match rest with
    | '.' :: more => (more.takeWhile Char.isDigit, more.dropWhile Char.isDigit)
    | _ => ([], rest)
  if int = [] ∧ fraction = [] then none
  else
    let (e, rest) := readExponent rest
    some (scaled negative (Nat.ofDigitChars 10 (int ++ fraction) 0) (e - fraction.length), rest)

/-- The number that a text begins with, and what follows. -/
def readNumber (t : List Char) : Option (SdkNumber × List Char) :=
  let (negative, rest) := readSign t
  if "Infinity".toList.isPrefixOf rest then
    some (if negative then .negInfinity else .posInfinity, rest.drop 8)
  else readDecimal negative rest

/-- `parseFloat(t)`. -/
def parseFloat (t : List Char) : SdkNumber :=
  ((readNumber (t.dropWhile isSpace)).map Prod.fst).getD .nan

/-- The value of a digit of a base up to 16. -/
def digitValue (c : Char) : ℕ :=
  if c.isDigit then c.toNat - 48 else c.toLower.toNat - 87

/-- An integer in a base, behind `0x`, `0o` or `0b`. -/
def readBase (base : ℕ) (isDigit : Char → Bool) (ds : List Char) : SdkNumber :=
  if ds ≠ [] ∧ ds.all isDigit then scaled false (ds.foldl (fun n c => n * base + digitValue c) 0) 0
  else .nan

def isHexDigit (c : Char) : Bool := c.isDigit || (97 ≤ c.toLower.toNat && c.toLower.toNat ≤ 102)

/-- A whole text that is one number. -/
def wholeNumber (t : List Char) : SdkNumber :=
  match readNumber t with
  | some (n, []) => n
  | _ => .nan

/-- `Number(t)`. -/
def toNumber (t : List Char) : SdkNumber :=
  match trim t with
  | [] => .finite 0
  | '0' :: 'x' :: ds => readBase 16 isHexDigit ds
  | '0' :: 'X' :: ds => readBase 16 isHexDigit ds
  | '0' :: 'o' :: ds => readBase 8 (fun c => '0' ≤ c && c ≤ '7') ds
  | '0' :: 'O' :: ds => readBase 8 (fun c => '0' ≤ c && c ≤ '7') ds
  | '0' :: 'b' :: ds => readBase 2 (fun c => c = '0' || c = '1') ds
  | '0' :: 'B' :: ds => readBase 2 (fun c => c = '0' || c = '1') ds
  | trimmed => wholeNumber trimmed

/-- `parseInt(t, 10)`. -/
def parseInt (t : List Char) : SdkNumber :=
  let (negative, rest) := readSign (t.dropWhile isSpace)
  let ds := rest.takeWhile Char.isDigit
  if ds = [] then .nan else scaled negative (Nat.ofDigitChars 10 ds 0) 0

/-- The number itself. -/
def value : SdkNumber → JsNumber
  | .finite d => .finite d.toRat
  | .posInfinity => .posInfinity
  | .negInfinity => .negInfinity
  | .nan => .nan

end NumberText

end FlashEdge
