import PageDesigner.Json.Literal

/-!
The tokens of JSON text, found by one pass over its characters. The scanner's state says what the
character before it left open: nothing, a bare word or number, or a point inside a quoted text.
-/

namespace PageDesigner.Json

inductive Token where
  | openObject
  | closeObject
  | openArray
  | closeArray
  | colon
  | comma
  /-- A quoted text has no value where half of a surrogate pair stands alone in it. -/
  | text (value : Option String)
  | scalar (value : Json)

/-- A quoted text so far: its characters in reverse, as long as it has a value, and the first half
of a surrogate pair while the second is due. -/
structure Spelling where
  before : Option (List Char) := some []
  high : Option Nat := none

namespace Spelling

def broken : Spelling := ⟨none, none⟩

def isHighSurrogate (unit : Nat) : Bool := 0xD800 ≤ unit && unit < 0xDC00

def isLowSurrogate (unit : Nat) : Bool := 0xDC00 ≤ unit && unit < 0xE000

def ofPair (high low : Nat) : Char :=
  Char.ofNat (0x10000 + (high - 0xD800) * 0x400 + (low - 0xDC00))

def push (spelling : Spelling) (c : Char) : Spelling :=
  match spelling.high with
  | none => { spelling with before := spelling.before.map (c :: ·) }
  | some _ => broken

/-- An escaped UTF-16 unit is a character of its own or half of a surrogate pair. -/
def pushUnit (spelling : Spelling) (unit : Nat) : Spelling :=
  match spelling.high with
  | some high =>
    if isLowSurrogate unit then ⟨spelling.before.map (ofPair high unit :: ·), none⟩ else broken
  | none =>
    if isHighSurrogate unit then { spelling with high := some unit }
    else if isLowSurrogate unit then broken
    else spelling.push (Char.ofNat unit)

def text? (spelling : Spelling) : Option String :=
  match spelling.high with
  | none => spelling.before.map fun chars => String.ofList chars.reverse
  | some _ => none

end Spelling

/-- Where the scanner stands. A bare word is held in reverse, and an escaped UTF-16 unit is read
digit by digit. -/
inductive Scanner.Place where
  | between
  | word (before : List Char)
  | quoted (spelling : Spelling)
  | escape (spelling : Spelling)
  | unit (spelling : Spelling) (value : Nat) (digitsLeft : Nat)

structure Scanner where
  place : Scanner.Place
  tokens : List Token

namespace Scanner

def start : Scanner := ⟨.between, []⟩

def blank (c : Char) : Bool := c = ' ' || c = '\t' || c = '\n' || c = '\r'

def wordChar (c : Char) : Bool := c.isAlphanum || c = '+' || c = '-' || c = '.'

def punctuation : Char → Option Token
  | '{' => some .openObject
  | '}' => some .closeObject
  | '[' => some .openArray
  | ']' => some .closeArray
  | ':' => some .colon
  | ',' => some .comma
  | _ => none

def scalar? (chars : List Char) : Option Json :=
  if chars = ['n', 'u', 'l', 'l'] then some .null
  else if chars = ['t', 'r', 'u', 'e'] then some (.bool true)
  else if chars = ['f', 'a', 'l', 's', 'e'] then some (.bool false)
  else (Number.Literal.ofChars? chars).map fun literal => literal.number?.elim .unread .number

def simpleEscape : Char → Option Char
  | '"' => some '"'
  | '\\' => some '\\'
  | '/' => some '/'
  | 'b' => some '\x08'
  | 'f' => some '\x0c'
  | 'n' => some '\n'
  | 'r' => some '\r'
  | 't' => some '\t'
  | _ => none

def hexDigit? (c : Char) : Option Nat :=
  if '0' ≤ c ∧ c ≤ '9' then some (c.toNat - '0'.toNat)
  else if 'a' ≤ c ∧ c ≤ 'f' then some (c.toNat - 'a'.toNat + 10)
  else if 'A' ≤ c ∧ c ≤ 'F' then some (c.toNat - 'A'.toNat + 10)
  else none

def startAt (tokens : List Token) (c : Char) : Option Scanner :=
  if blank c then some ⟨.between, tokens⟩
  else if c = '"' then some ⟨.quoted {}, tokens⟩
  else if wordChar c then some ⟨.word [c], tokens⟩
  else (punctuation c).map fun token => ⟨.between, token :: tokens⟩

def closeWord (before : List Char) (tokens : List Token) : Option (List Token) :=
  (scalar? before.reverse).map fun value => .scalar value :: tokens

def step (scanner : Scanner) (c : Char) : Option Scanner :=
  match scanner.place with
  | .between => startAt scanner.tokens c
  | .word before =>
    if wordChar c then some ⟨.word (c :: before), scanner.tokens⟩
    else do startAt (← closeWord before scanner.tokens) c
  | .quoted spelling =>
    if c = '"' then some ⟨.between, .text spelling.text? :: scanner.tokens⟩
    else if c = '\\' then some ⟨.escape spelling, scanner.tokens⟩
    else if c.toNat < 0x20 then none
    else some ⟨.quoted (spelling.push c), scanner.tokens⟩
  | .escape spelling =>
    if c = 'u' then some ⟨.unit spelling 0 4, scanner.tokens⟩
    else (simpleEscape c).map fun escaped => ⟨.quoted (spelling.push escaped), scanner.tokens⟩
  | .unit spelling value digitsLeft => do
    let value := 16 * value + (← hexDigit? c)
    if digitsLeft ≤ 1 then some ⟨.quoted (spelling.pushUnit value), scanner.tokens⟩
    else some ⟨.unit spelling value (digitsLeft - 1), scanner.tokens⟩

def finish (scanner : Scanner) : Option (List Token) :=
  match scanner.place with
  | .between => some scanner.tokens.reverse
  | .word before => (closeWord before scanner.tokens).map List.reverse
  | _ => none

end Scanner

def tokens? (chars : List Char) : Option (List Token) := do
  (← chars.foldlM Scanner.step Scanner.start).finish

end PageDesigner.Json
