import ActionReplay.Json.Number
import ActionReplay.Text.Octets

/-!
# JSON documents

A document is a JSON text as it was written: members stand in their order and may repeat, and a
number or a string that is spelled well but stands for nothing (a number whose scaling overflows, a
string with a lone surrogate or broken UTF-8) is kept as `none`. A reader that passes over part of a
document never asks what that part stands for, which is why a document is not yet a value.

`Document.read` works in two steps. `Lexer` cuts the octets into tokens, one octet at a time.
`Builder` reads the tokens with a stack of open brackets, one token at a time. `Document.value?` is
the value of a document: every number and string must stand for something, of repeated members the
last wins, and no more than `nestingLimit` brackets are open at once.
-/

set_option autoImplicit false
set_option relaxedAutoImplicit false

namespace ActionReplay

inductive Document where
  | null
  | bool (b : Bool)
  | number (n : Option Json.Number)
  | string (s : Option String)
  | array (items : List Document)
  | object (members : List (Option String × Document))

namespace Document

instance : Inhabited Document := ⟨.null⟩

/-! ### Tokens -/

inductive Token where
  | openArray
  | closeArray
  | openObject
  | closeObject
  | comma
  | colon
  | scalar (d : Document)
  | text (s : Option String)

/-- A string while it is read: its octets in reverse, a leading surrogate that waits for its partner,
and whether something in it stands for no character. -/
structure TextBuffer where
  octets : List UInt8 := []
  leading : Option Nat := none
  broken : Bool := false

namespace TextBuffer

/-- A leading surrogate that is not followed by its partner breaks the string. -/
def settle (b : TextBuffer) : TextBuffer :=
  { b with leading := none, broken := b.broken || b.leading.isSome }

def octet (b : TextBuffer) (o : UInt8) : TextBuffer :=
  let b := b.settle
  { b with octets := o :: b.octets }

def scalar (b : TextBuffer) (code : Nat) : TextBuffer :=
  let b := b.settle
  { b with octets := (String.utf8EncodeChar (Char.ofNat code)).reverse ++ b.octets }

/-- Takes one escaped UTF-16 unit. -/
def unit (b : TextBuffer) (u : Nat) : TextBuffer :=
  if 0xdc00 ≤ u && u ≤ 0xdfff then
    match b.leading with
    | some l =>
      { b with leading := none }.scalar (0x10000 + (l - 0xd800) * 0x400 + (u - 0xdc00))
    | none => { b with broken := true }
  else if 0xd800 ≤ u && u ≤ 0xdbff then { b.settle with leading := some u }
  else b.scalar u

def finish (b : TextBuffer) : Option String :=
  let b := b.settle
  if b.broken then none else Text.decode? b.octets.reverse

end TextBuffer

/-- Where the lexer stands: between tokens, in a word or a number (held in reverse), in a string,
just after a backslash in one, or inside the four digits of an escaped unit. -/
inductive Lexer.Place where
  | between
  | word (letters : List Char)
  | number (chars : List Char)
  | text (b : TextBuffer)
  | escape (b : TextBuffer)
  | unit (b : TextBuffer) (due : Nat) (value : Nat)

/-- The lexer: the tokens so far in reverse, and its place. -/
structure Lexer where
  tokens : List Token := []
  place : Lexer.Place := .between

namespace Lexer

def isSpace (c : Char) : Bool :=
  c = ' ' || c = '\t' || c = '\n' || c = '\r'

def isWordChar (c : Char) : Bool :=
  'a' ≤ c && c ≤ 'z'

def isNumberChar (c : Char) : Bool :=
  c.isDigit || c = '-' || c = '+' || c = '.' || c = 'e' || c = 'E'

/-- Reads one character between two tokens. -/
def begin (tokens : List Token) (c : Char) : Option Lexer :=
  if isSpace c then some { tokens }
  else if c = '[' then some { tokens := .openArray :: tokens }
  else if c = ']' then some { tokens := .closeArray :: tokens }
  else if c = '\x7b' then some { tokens := .openObject :: tokens }
  else if c = '\x7d' then some { tokens := .closeObject :: tokens }
  else if c = ',' then some { tokens := .comma :: tokens }
  else if c = ':' then some { tokens := .colon :: tokens }
  else if c = '"' then some { tokens, place := .text {} }
  else if c.isDigit || c = '-' then some { tokens, place := .number [c] }
  else if isWordChar c then some { tokens, place := .word [c] }
  else none

def word? (letters : List Char) : Option Token :=
  if letters = ['n', 'u', 'l', 'l'] then some (.scalar .null)
  else if letters = ['t', 'r', 'u', 'e'] then some (.scalar (.bool true))
  else if letters = ['f', 'a', 'l', 's', 'e'] then some (.scalar (.bool false))
  else none

def number? (chars : List Char) : Option Token :=
  (Json.NumberToken.ofChars? chars).map fun t ↦ .scalar (.number t.number?)

def hexValue? (c : Char) : Option Nat :=
  if c.isDigit then some (c.toNat - '0'.toNat)
  else if 'a' ≤ c && c ≤ 'f' then some (c.toNat - 'a'.toNat + 10)
  else if 'A' ≤ c && c ≤ 'F' then some (c.toNat - 'A'.toNat + 10)
  else none

/-- The character code that a one-letter escape stands for. -/
def escape? (c : Char) : Option Nat :=
  if c = '"' || c = '\\' || c = '/' then some c.toNat
  else if c = 'b' then some 0x8
  else if c = 'f' then some 0xc
  else if c = 'n' then some 0xa
  else if c = 'r' then some 0xd
  else if c = 't' then some 0x9
  else none

/-- Reads one octet. Outside strings only ASCII can occur; inside, control characters cannot. -/
def step (lexer : Lexer) (octet : UInt8) : Option Lexer :=
  let c := Char.ofNat octet.toNat
  let tokens := lexer.tokens
  match lexer.place with
  | .between => begin tokens c
  | .word letters =>
    if isWordChar c then some { tokens, place := .word (c :: letters) }
    else (word? letters.reverse).bind fun token ↦ begin (token :: tokens) c
  | .number chars =>
    if isNumberChar c then some { tokens, place := .number (c :: chars) }
    else (number? chars.reverse).bind fun token ↦ begin (token :: tokens) c
  | .text b =>
    if c = '"' then some { tokens := .text b.finish :: tokens }
    else if c = '\\' then some { tokens, place := .escape b }
    else if octet < 0x20 then none
    else some { tokens, place := .text (b.octet octet) }
  | .escape b =>
    if c = 'u' then some { tokens, place := .unit b 4 0 }
    else (escape? c).map fun code ↦ { tokens, place := .text (b.scalar code) }
  | .unit b due value =>
    (hexValue? c).map fun digit ↦
      let value := 16 * value + digit
      if due ≤ 1 then { tokens, place := .text (b.unit value) }
      else { tokens, place := .unit b (due - 1) value }

/-- The tokens in order, if the text does not end inside one. -/
def finish (lexer : Lexer) : Option (List Token) :=
  match lexer.place with
  | .between => some lexer.tokens.reverse
  | .word letters => (word? letters.reverse).map fun token ↦ (token :: lexer.tokens).reverse
  | .number chars => (number? chars.reverse).map fun token ↦ (token :: lexer.tokens).reverse
  | _ => none

end Lexer

def tokens? (octets : List UInt8) : Option (List Token) :=
  (octets.foldlM Lexer.step {}).bind Lexer.finish

/-! ### Nesting -/

/-- An open bracket: the finished items of an array, or the finished members of an object and the key
of the one being read, everything in reverse. -/
inductive Builder.Frame where
  | array (items : List Document)
  | object (members : List (Option String × Document)) (key : Option String)

/-- What may come next: a value; a value or the end of an empty array; a key; a key or the end of an
empty object; the colon after a key; a comma or a closing bracket; nothing, the document being
complete. -/
inductive Builder.Due where
  | value
  | valueOrClose
  | key
  | keyOrClose
  | colon
  | more
  | nothing (d : Document)

structure Builder where
  frames : List Builder.Frame := []
  due : Builder.Due := .value

namespace Builder

/-- Puts a finished value into the innermost open bracket. -/
def put (d : Document) : List Frame → Builder
  | [] => { due := .nothing d }
  | .array items :: outer => { frames := .array (d :: items) :: outer, due := .more }
  | .object members key :: outer =>
    { frames := .object ((key, d) :: members) none :: outer, due := .more }

/-- Closes the innermost bracket. -/
def closeArray : List Frame → Option Builder
  | .array items :: outer => some (put (.array items.reverse) outer)
  | _ => none

def closeObject : List Frame → Option Builder
  | .object members _ :: outer => some (put (.object members.reverse) outer)
  | _ => none

def beginValue (frames : List Frame) : Token → Option Builder
  | .openArray => some { frames := .array [] :: frames, due := .valueOrClose }
  | .openObject => some { frames := .object [] none :: frames, due := .keyOrClose }
  | .scalar d => some (put d frames)
  | .text s => some (put (.string s) frames)
  | _ => none

def beginKey (frames : List Frame) : Token → Option Builder
  | .text s => match frames with
    | .object members _ :: outer => some { frames := .object members s :: outer, due := .colon }
    | _ => none
  | _ => none

/-- What follows a comma. -/
def afterComma (frames : List Frame) : Option Builder :=
  match frames with
  | .array _ :: _ => some { frames, due := .value }
  | .object _ _ :: _ => some { frames, due := .key }
  | [] => none

def step (builder : Builder) (token : Token) : Option Builder :=
  let frames := builder.frames
  match builder.due, token with
  | .value, token => beginValue frames token
  | .valueOrClose, .closeArray => closeArray frames
  | .valueOrClose, token => beginValue frames token
  | .key, token => beginKey frames token
  | .keyOrClose, .closeObject => closeObject frames
  | .keyOrClose, token => beginKey frames token
  | .colon, .colon => some { frames, due := .value }
  | .more, .comma => afterComma frames
  | .more, .closeArray => closeArray frames
  | .more, .closeObject => closeObject frames
  | _, _ => none

def finish (builder : Builder) : Option Document :=
  match builder.due with
  | .nothing d => some d
  | _ => none

end Builder

/-- The document that an octet sequence spells. -/
def read (octets : List UInt8) : Option Document := do
  let tokens ← tokens? octets
  (← tokens.foldlM Builder.step {}).finish

/-! ### Values -/

/-- How many brackets may be open at once where a document is read for its value. -/
def nestingLimit : Nat := 127

mutual

/-- The value of a document that may open `room` brackets. -/
def valueIn? (room : Nat) : Document → Option Json
  | .null => some .null
  | .bool b => some (.bool b)
  | .number n => n.map .number
  | .string s => s.map .string
  | .array items =>
    if room = 0 then none else (itemValues? (room - 1) items).map .array
  | .object members =>
    if room = 0 then none
    else (memberValues? (room - 1) members).map fun entries ↦ .object (Table.ofList entries)

def itemValues? (room : Nat) : List Document → Option (List Json)
  | [] => some []
  | d :: rest => do
    let v ← valueIn? room d
    let values ← itemValues? room rest
    return v :: values

def memberValues? (room : Nat) : List (Option String × Document) → Option (List (String × Json))
  | [] => some []
  | (key, d) :: rest => do
    let key ← key
    let v ← valueIn? room d
    let entries ← memberValues? room rest
    return (key, v) :: entries

end

/-- The value of a whole document. -/
def value? (d : Document) : Option Json :=
  d.valueIn? nestingLimit

mutual

/-- The document that spells a value. -/
def ofJson : Json → Document
  | .null => .null
  | .bool b => .bool b
  | .number n => .number (some n)
  | .string s => .string (some s)
  | .array items => .array (ofItems items)
  | .object members => .object (ofMembers members)

def ofItems : List Json → List Document
  | [] => []
  | v :: rest => ofJson v :: ofItems rest

def ofMembers : List (String × Json) → List (Option String × Document)
  | [] => []
  | (key, v) :: rest => (some key, ofJson v) :: ofMembers rest

end

end Document

/-- The value that an octet sequence spells. -/
def Json.readOctets (octets : List UInt8) : Option Json :=
  (Document.read octets).bind Document.value?

/-- The value that a text spells. -/
def Json.read (s : String) : Option Json :=
  Json.readOctets (Text.encode s)

end ActionReplay
