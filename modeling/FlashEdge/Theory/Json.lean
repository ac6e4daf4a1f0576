import FlashEdge.Theory.Acceptor
import FlashEdge.Theory.Decimal
import FlashEdge.Theory.Transducer

/-!
# JSON

The text of a JSON document is a list of UTF-16 code units, as the strings of the
language it comes from are; a string may hold any units, surrogates without a
partner included.

- `Json`: the values. An object is the list of its members as they are written, and
  `Json.get?` looks a member up by the last one of its name.
- `Json.print`: the text with an indentation of two, every string escaped.
- `Json.lexer` and `Json.grammar`: the two halves of a parser, a transducer from
  units to tokens and an acceptor of tokens with a stack. `Json.parse` runs both.
-/

namespace FlashEdge

abbrev CodeUnit := UInt16

/-- The unit of an ASCII character. -/
def unit (c : Char) : CodeUnit := UInt16.ofNat c.toNat

/-- The units of an ASCII text. -/
def units (s : String) : List CodeUnit := s.toList.map unit

inductive Json where
  | null
  | bool (b : Bool)
  | number (n : Decimal)
  | string (s : List CodeUnit)
  | array (items : List Json)
  | object (fields : List (List CodeUnit × Json))

namespace Json

/-- A member of an object; other values have none. -/
def get? (v : Json) (key : List CodeUnit) : Option Json :=
  match v with
  | .object fields => (fields.reverse.find? fun field => field.1 = key).map Prod.snd
  | _ => none

/-! ## Printing -/

/-- The lower-case hexadecimal digit. -/
def hexDigit (n : ℕ) : CodeUnit := unit (Nat.digitChar n)

/-- `\u` and the four digits of a unit. -/
def unicodeEscape (c : CodeUnit) : List CodeUnit :=
  [unit '\\', unit 'u', hexDigit (c.toNat / 4096), hexDigit (c.toNat / 256 % 16),
    hexDigit (c.toNat / 16 % 16), hexDigit (c.toNat % 16)]

def isHighSurrogate (c : CodeUnit) : Bool := decide (0xD800 ≤ c.toNat ∧ c.toNat < 0xDC00)

def isLowSurrogate (c : CodeUnit) : Bool := decide (0xDC00 ≤ c.toNat ∧ c.toNat < 0xE000)

/-- A unit that is no part of a surrogate pair. -/
def escapeUnit (c : CodeUnit) : List CodeUnit :=
  if c = unit '"' then units "\\\""
  else if c = unit '\\' then units "\\\\"
  else if c = 0x08 then units "\\b"
  else if c = 0x0C then units "\\f"
  else if c = 0x0A then units "\\n"
  else if c = 0x0D then units "\\r"
  else if c = 0x09 then units "\\t"
  else if c.toNat < 0x20 ∨ isHighSurrogate c ∨ isLowSurrogate c then unicodeEscape c
  else [c]

/-- The inside of a string literal: a surrogate pair stands for itself. -/
def escape : List CodeUnit → List CodeUnit
  | c :: d :: rest =>
    if isHighSurrogate c ∧ isLowSurrogate d then c :: d :: escape rest
    else escapeUnit c ++ escape (d :: rest)
  | [c] => escapeUnit c
  | [] => []

/-- A string literal. -/
def quote (s : List CodeUnit) : List CodeUnit := unit '"' :: (escape s ++ [unit '"'])

/-- The beginning of a line. -/
def newline (indent : ℕ) : List CodeUnit := 0x0A :: List.replicate indent (unit ' ')

mutual

/-- The text of a value that stands at some indentation. -/
def print (indent : ℕ) : Json → List CodeUnit
  | .null => units "null"
  | .bool true => units "true"
  | .bool false => units "false"
  | .number n => n.print.map unit
  | .string s => quote s
  | .array [] => units "[]"
  | .array (item :: items) =>
    unit '[' :: newline (indent + 2) ++ print (indent + 2) item ++
      printItems (indent + 2) items ++ newline indent ++ [unit ']']
  | .object [] => units "{}"
  | .object ((key, value) :: fields) =>
    unit '{' :: newline (indent + 2) ++ quote key ++ units ": " ++ print (indent + 2) value ++
      printFields (indent + 2) fields ++ newline indent ++ [unit '}']

/-- The items after the first. -/
def printItems (indent : ℕ) : List Json → List CodeUnit
  | [] => []
  | item :: items =>
    unit ',' :: newline indent ++ print indent item ++ printItems indent items

/-- The members after the first. -/
def printFields (indent : ℕ) : List (List CodeUnit × Json) → List CodeUnit
  | [] => []
  | (key, value) :: fields =>
    unit ',' :: newline indent ++ quote key ++ units ": " ++ print indent value ++
      printFields indent fields

end

/-! ## Tokens -/

inductive Token where
  | lbrace
  | rbrace
  | lbracket
  | rbracket
  | colon
  | comma
  | string (s : List CodeUnit)
  | atom (v : Json)

/-- Inside which token the lexer is. -/
inductive LexState where
  | out
  | string (read : List CodeUnit)
  | escape (read : List CodeUnit)
  | unicode (read : List CodeUnit) (value : ℕ) (digits : ℕ)
  | number (read : List CodeUnit)
  | word (read : List CodeUnit)

def isSpace (c : CodeUnit) : Bool := decide (c = unit ' ' ∨ c = 0x09 ∨ c = 0x0A ∨ c = 0x0D)

def isDigitUnit (c : CodeUnit) : Bool := decide (48 ≤ c.toNat ∧ c.toNat ≤ 57)

/-- A unit that goes on with a number. -/
def isNumeric (c : CodeUnit) : Bool :=
  isDigitUnit c ||
    decide (c = unit '-' ∨ c = unit '+' ∨ c = unit '.' ∨ c = unit 'e' ∨ c = unit 'E')

def isLower (c : CodeUnit) : Bool := decide (97 ≤ c.toNat ∧ c.toNat ≤ 122)

def hexValue (c : CodeUnit) : Option ℕ :=
  if isDigitUnit c then some (c.toNat - 48)
  else if 97 ≤ c.toNat ∧ c.toNat ≤ 102 then some (c.toNat - 87)
  else if 65 ≤ c.toNat ∧ c.toNat ≤ 70 then some (c.toNat - 55)
  else none

/-- The units that stand for another one behind a backslash. -/
def unescape (c : CodeUnit) : Option CodeUnit :=
  if c = unit '"' ∨ c = unit '\\' ∨ c = unit '/' then some c
  else if c = unit 'b' then some 0x08
  else if c = unit 'f' then some 0x0C
  else if c = unit 'n' then some 0x0A
  else if c = unit 'r' then some 0x0D
  else if c = unit 't' then some 0x09
  else none

def numberToken (read : List CodeUnit) : Option Token :=
  (Decimal.read (read.map fun c => Char.ofNat c.toNat)).map fun n => .atom (.number n)

def wordToken (read : List CodeUnit) : Option Token :=
  if read = units "null" then some (.atom .null)
  else if read = units "true" then some (.atom (.bool true))
  else if read = units "false" then some (.atom (.bool false))
  else none

/-- A unit outside every token. -/
def lexOut (c : CodeUnit) : Option (LexState × List Token) :=
  if isSpace c then some (.out, [])
  else if c = unit '"' then some (.string [], [])
  else if c = unit '{' then some (.out, [.lbrace])
  else if c = unit '}' then some (.out, [.rbrace])
  else if c = unit '[' then some (.out, [.lbracket])
  else if c = unit ']' then some (.out, [.rbracket])
  else if c = unit ':' then some (.out, [.colon])
  else if c = unit ',' then some (.out, [.comma])
  else if isDigitUnit c ∨ c = unit '-' then some (.number [c], [])
  else if isLower c then some (.word [c], [])
  else none

/-- A unit behind a token that ends only with what follows it. -/
def lexAfter (token : Option Token) (c : CodeUnit) : Option (LexState × List Token) :=
  match token with
  | none => none
  | some t => (lexOut c).map fun p => (p.1, t :: p.2)

def lexStep : LexState → CodeUnit → Option (LexState × List Token)
  | .out, c => lexOut c
  | .string read, c =>
    if c = unit '"' then some (.out, [.string read])
    else if c = unit '\\' then some (.escape read, [])
    else if c.toNat < 0x20 then none
    else some (.string (read ++ [c]), [])
  | .escape read, c =>
    if c = unit 'u' then some (.unicode read 0 0, [])
    else (unescape c).map fun d => (.string (read ++ [d]), [])
  | .unicode read value digits, c =>
    (hexValue c).map fun d =>
      if digits = 3 then (.string (read ++ [UInt16.ofNat (value * 16 + d)]), [])
      else (.unicode read (value * 16 + d) (digits + 1), [])
  | .number read, c =>
    if isNumeric c then some (.number (read ++ [c]), []) else lexAfter (numberToken read) c
  | .word read, c =>
    if isLower c then some (.word (read ++ [c]), []) else lexAfter (wordToken read) c

def lexer : Transducer LexState CodeUnit Token where
  step := lexStep

theorem step_quote (read : List CodeUnit) :
    lexer.step (.string read) (unit '"') = some (.out, [.string read]) := rfl

theorem step_backslash (read : List CodeUnit) :
    lexer.step (.string read) (unit '\\') = some (.escape read, []) := rfl

theorem step_string {read : List CodeUnit} {c : CodeUnit} (hquote : c ≠ unit '"')
    (hback : c ≠ unit '\\') (hcontrol : 0x20 ≤ c.toNat) :
    lexer.step (.string read) c = some (.string (read ++ [c]), []) := by
  show (if c = unit '"' then _ else if c = unit '\\' then _ else if c.toNat < 0x20 then _
    else _) = _
  rw [if_neg hquote, if_neg hback, if_neg (by omega)]

theorem step_escape {read : List CodeUnit} {c d : CodeUnit} (hu : c ≠ unit 'u')
    (hd : unescape c = some d) :
    lexer.step (.escape read) c = some (.string (read ++ [d]), []) := by
  show (if c = unit 'u' then _ else (unescape c).map _) = _
  rw [if_neg hu, hd]
  rfl

theorem step_unicode {read : List CodeUnit} {value digits d : ℕ} {c : CodeUnit}
    (hd : hexValue c = some d) (hmore : digits ≠ 3) :
    lexer.step (.unicode read value digits) c =
      some (.unicode read (value * 16 + d) (digits + 1), []) := by
  show (hexValue c).map _ = _
  rw [hd, Option.map_some, if_neg hmore]

theorem step_unicode_last {read : List CodeUnit} {value d : ℕ} {c : CodeUnit}
    (hd : hexValue c = some d) :
    lexer.step (.unicode read value 3) c =
      some (.string (read ++ [UInt16.ofNat (value * 16 + d)]), []) := by
  show (hexValue c).map _ = _
  rw [hd, Option.map_some, if_pos rfl]

/-- The end of the text. -/
def lexEnd : LexState → Option (List Token)
  | .out => some []
  | .number read => (numberToken read).map fun t => [t]
  | .word read => (wordToken read).map fun t => [t]
  | _ => none

/-- The tokens of a text that begins in a state. -/
def lexFrom (s : LexState) (text : List CodeUnit) : Option (List Token) :=
  match lexer.run s text with
  | none => none
  | some (t, tokens) => (lexEnd t).map fun last => tokens ++ last

def lex (text : List CodeUnit) : Option (List Token) := lexFrom .out text

/-! ## Grammar -/

/-- An array or object that is not complete; the object waits for the value of a
key. -/
inductive Frame where
  | array (items : List Json)
  | object (fields : List (List CodeUnit × Json)) (key : List CodeUnit)

/-- What is expected next. -/
inductive ParseState where
  | value (stack : List Frame)
  | itemOrEnd (stack : List Frame)
  | keyOrEnd (stack : List Frame)
  | key (fields : List (List CodeUnit × Json)) (stack : List Frame)
  | colon (fields : List (List CodeUnit × Json)) (key : List CodeUnit) (stack : List Frame)
  | afterItem (items : List Json) (stack : List Frame)
  | afterField (fields : List (List CodeUnit × Json)) (stack : List Frame)
  | done (v : Json)

/-- A value is complete, and goes into the frame on top. -/
def complete (v : Json) : List Frame → ParseState
  | [] => .done v
  | .array items :: stack => .afterItem (items ++ [v]) stack
  | .object fields key :: stack => .afterField (fields ++ [(key, v)]) stack

/-- The first token of a value. -/
def parseValue (stack : List Frame) : Token → Option ParseState
  | .lbrace => some (.keyOrEnd stack)
  | .lbracket => some (.itemOrEnd stack)
  | .string s => some (complete (.string s) stack)
  | .atom v => some (complete v stack)
  | _ => none

def parseStep : ParseState → Token → Option ParseState
  | .value stack, t => parseValue stack t
  | .itemOrEnd stack, .rbracket => some (complete (.array []) stack)
  | .itemOrEnd stack, t => parseValue (.array [] :: stack) t
  | .keyOrEnd stack, .rbrace => some (complete (.object []) stack)
  | .keyOrEnd stack, .string s => some (.colon [] s stack)
  | .key fields stack, .string s => some (.colon fields s stack)
  | .colon fields key stack, .colon => some (.value (.object fields key :: stack))
  | .afterItem items stack, .comma => some (.value (.array items :: stack))
  | .afterItem items stack, .rbracket => some (complete (.array items) stack)
  | .afterField fields stack, .comma => some (.key fields stack)
  | .afterField fields stack, .rbrace => some (complete (.object fields) stack)
  | _, _ => none

def grammar : Acceptor ParseState Token where
  start := .value []
  next := parseStep

/-- The value of a list of tokens. -/
def parseTokens (tokens : List Token) : Option Json :=
  match grammar.read grammar.start tokens with
  | some (.done v) => some v
  | _ => none

/-- The value of a text. -/
def parse (text : List CodeUnit) : Option Json := (lex text).bind parseTokens

end Json

end FlashEdge
