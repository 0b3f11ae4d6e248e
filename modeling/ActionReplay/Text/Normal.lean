import ActionReplay.Text.CaseTable
import ActionReplay.Text.Unprintable

/-!
# Blank space and case

Two things about a text that often do not matter to whoever reads it. `trim` removes blank space from both
ends of a text, that is the 25 characters of Unicode's `White_Space` property.

`lowercase` maps each character to its lowercase form. Two characters need more than the table: a capital
I with a dot becomes two characters, and a capital sigma takes its final form at the end of a word, that is
when a cased character stands before it and none after it, characters that are ignorable for case being
passed over on both sides.
-/

set_option autoImplicit false
set_option relaxedAutoImplicit false

namespace ActionReplay.Text

/-! ### Blank space -/

def isBlank (c : Char) : Bool :=
  let code := c.toNat
  (0x9 ≤ code && code ≤ 0xd) || code == 0x20 || code == 0x85 || code == 0xa0 || code == 0x1680 ||
    (0x2000 ≤ code && code ≤ 0x200a) || code == 0x2028 || code == 0x2029 || code == 0x202f ||
    code == 0x205f || code == 0x3000

/-- The characters between the first and the last that are not blank. -/
def trimChars (cs : List Char) : List Char :=
  ((cs.dropWhile isBlank).reverse.dropWhile isBlank).reverse

def trim (s : String) : String :=
  String.ofList (trimChars s.toList)

/-! ### Case -/

/-- The simple lowercase form of a character: itself where the table has none. -/
def lowercaseChar (c : Char) : Char :=
  let code := c.toNat
  match lowercaseRuns.find? fun (first, last, stride, _) ↦
      first ≤ code && code ≤ last && (code - first) % stride == 0 with
  | some (_, _, _, shift) => Char.ofNat (code + shift).toNat
  | none => c

def isCased (c : Char) : Bool :=
  inRanges casedRanges c.toNat

def isCaseIgnorable (c : Char) : Bool :=
  inRanges caseIgnorableRanges c.toNat

/-- Whether the first character that is not ignorable for case carries case. -/
def leadsToCased (cs : List Char) : Bool :=
  match cs.dropWhile isCaseIgnorable with
  | c :: _ => isCased c
  | [] => false

/-- The lowercase of the characters after `before`, which is held in reverse. -/
def lowercaseAfter (before : List Char) : List Char → List Char
  | [] => []
  | c :: rest =>
    let lowered :=
      if c = 'İ' then ['i', '\u0307']
      else if c = 'Σ' then
        if leadsToCased before && !leadsToCased rest then ['ς'] else ['σ']
      else [lowercaseChar c]
    lowered ++ lowercaseAfter (c :: before) rest

def lowercase (s : String) : String :=
  String.ofList (lowercaseAfter [] s.toList)

end ActionReplay.Text
