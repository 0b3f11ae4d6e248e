/-!
# Texts as octets

UTF-8, as a machine over octets. `decode?` reads the shortest form of every scalar value and
refuses everything else: lone continuation octets, overlong forms, surrogates, values past
`0x10ffff` and a sequence cut short. `lines` cuts a stream after each line feed.
-/

set_option autoImplicit false
set_option relaxedAutoImplicit false

namespace ActionReplay.Text

/-- What has been read: the characters so far in reverse, how many continuation octets are still
due, the bits they extend, and the interval the next of them lies in. -/
structure Decoder where
  done : List Char := []
  due : Nat := 0
  bits : Nat := 0
  least : UInt8 := 0x80
  most : UInt8 := 0xbf

/-- Reads one octet. The first continuation octet is bounded more tightly after the leads that
could begin an overlong form, a surrogate or a value past the last scalar. -/
def Decoder.step (d : Decoder) (octet : UInt8) : Option Decoder :=
  let bits := octet.toNat
  match d.due with
  | 0 =>
    if octet < 0x80 then some { done := Char.ofNat bits :: d.done }
    else if octet < 0xc2 then none
    else if octet < 0xe0 then some { done := d.done, due := 1, bits := bits - 0xc0 }
    else if octet < 0xf0 then
      some { done := d.done, due := 2, bits := bits - 0xe0,
             least := if octet = 0xe0 then 0xa0 else 0x80,
             most := if octet = 0xed then 0x9f else 0xbf }
    else if octet < 0xf5 then
      some { done := d.done, due := 3, bits := bits - 0xf0,
             least := if octet = 0xf0 then 0x90 else 0x80,
             most := if octet = 0xf4 then 0x8f else 0xbf }
    else none
  | due + 1 =>
    if octet < d.least || d.most < octet then none
    else
      let value := d.bits * 64 + (bits - 0x80)
      if due = 0 then some { done := Char.ofNat value :: d.done }
      else some { done := d.done, due := due, bits := value }

/-- The characters of a UTF-8 octet sequence. -/
def decodeChars? (octets : List UInt8) : Option (List Char) :=
  match octets.foldlM Decoder.step {} with
  | some d => if d.due = 0 then some d.done.reverse else none
  | none => none

def decode? (octets : List UInt8) : Option String :=
  (decodeChars? octets).map String.ofList

def encode (s : String) : List UInt8 :=
  s.toList.flatMap String.utf8EncodeChar

/-- The lines of a stream, without their line feeds; what follows the last line feed is a line if
it is not empty. -/
def lines (octets : List UInt8) : List (List UInt8) :=
  let (complete, rest) := octets.foldl
    (fun (complete, current) octet ↦
      if octet = 10 then (current.reverse :: complete, []) else (complete, octet :: current))
    (([], []) : List (List UInt8) × List UInt8)
  (if rest.isEmpty then complete else rest.reverse :: complete).reverse

end ActionReplay.Text
