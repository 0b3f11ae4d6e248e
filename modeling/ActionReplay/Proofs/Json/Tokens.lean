import ActionReplay.Json.Document
import ActionReplay.Proofs.Json.Number
import ActionReplay.Proofs.Text.Octets

/-!
# What is written is cut into tokens

A value that is written without space is a row of tokens (`Json.tokens`). The lexer cuts the text of one
token after another off, but it notices the end of a word or a number only at what follows, so it is said of
a lexer that it has read tokens to their end (`Lexer.Ends`), and of a text that it spells tokens
(`Lexer.Spells`). Words, integers and strings spell one token each (`Lexer.spells_number`,
`Lexer.spells_text`). Texts that are joined by commas and set in brackets spell what they spell alone,
joined by commas and set in brackets (`Lexer.Spells.intercalate`, `Lexer.Spells.bracket`), so a value
whose numbers are integers spells its tokens (`Json.spells_compact`).
-/

set_option autoImplicit false
set_option relaxedAutoImplicit false

namespace ActionReplay

open Document (Token Lexer TextBuffer)

namespace Document.Lexer

variable {tokens ts us : List Token} {lexer : Lexer} {c : Char} {cs ds : List Char}

/-! ### Reading characters -/

/-- Reads the octets of characters. -/
def read (lexer : Lexer) (cs : List Char) : Option Lexer :=
  (cs.flatMap String.utf8EncodeChar).foldlM step lexer

theorem read_append (lexer : Lexer) (cs ds : List Char) :
    lexer.read (cs ++ ds) = (lexer.read cs).bind fun lexer ↦ lexer.read ds := by
  rw [read, List.flatMap_append, List.foldlM_append]
  rfl

theorem read_cons (lexer : Lexer) (c : Char) (cs : List Char) :
    lexer.read (c :: cs) = (lexer.read [c]).bind fun lexer ↦ lexer.read cs :=
  read_append lexer [c] cs

theorem ofNat_octet (hc : c.toNat < 128) : Char.ofNat (UInt8.ofNat c.toNat).toNat = c := by
  rw [Text.toNat_ofNat_octet (by omega), Char.ofNat_toNat]

theorem read_ascii (hc : c.toNat < 128) (lexer : Lexer) :
    lexer.read [c] = lexer.step (UInt8.ofNat c.toNat) := by
  rw [read, List.flatMap_singleton, Text.utf8EncodeChar_ascii hc, List.foldlM_cons]
  exact bind_pure _

theorem read_between (hc : c.toNat < 128) : ({ tokens } : Lexer).read [c] = begin tokens c := by
  rw [read_ascii hc, step]
  dsimp only
  rw [ofNat_octet hc]

/-! ### Tokens to their end -/

/-- What can follow a token. -/
def isDelimiter (c : Char) : Bool :=
  c = ',' || c = ']' || c = '\x7d'

/-- A lexer that has read some tokens to the end: they are what it ends with, and what follows a token is
read after them. -/
structure Ends (lexer : Lexer) (tokens : List Token) : Prop where
  finish : lexer.finish = some tokens.reverse
  next : ∀ c, isDelimiter c = true → lexer.read [c] = begin tokens c

/-- A text spells some tokens: read after any others, it leaves a lexer that has read them to the end. -/
def Spells (cs : List Char) (ts : List Token) : Prop :=
  ∀ tokens, ∃ lexer, ({ tokens } : Lexer).read cs = some lexer ∧ lexer.Ends (ts.reverse ++ tokens)

theorem eq_of_isDelimiter (hc : isDelimiter c = true) : c = ',' ∨ c = ']' ∨ c = '\x7d' := by
  simpa [isDelimiter, or_assoc] using hc

theorem toNat_lt_of_isDelimiter (hc : isDelimiter c = true) : c.toNat < 128 := by
  rcases eq_of_isDelimiter hc with rfl | rfl | rfl <;> decide

/-- Between two tokens all are read to the end. -/
theorem ends_between (tokens : List Token) : ({ tokens } : Lexer).Ends tokens :=
  ⟨rfl, fun _ hc ↦ read_between (toNat_lt_of_isDelimiter hc)⟩

theorem spells_nil : Spells [] [] := fun tokens ↦ ⟨_, rfl, ends_between tokens⟩

/-- Assumes: a token that ends with its text. -/
theorem spells_of_read {t : Token}
    (hread : ∀ tokens, ({ tokens } : Lexer).read cs = some { tokens := t :: tokens }) :
    Spells cs [t] := fun tokens ↦ ⟨_, hread tokens, ends_between _⟩

theorem Spells.comma (hfirst : Spells cs ts) (hsecond : Spells ds us) :
    Spells (cs ++ ',' :: ds) (ts ++ .comma :: us) := by
  intro tokens
  obtain ⟨lexer, hlexer, hends⟩ := hfirst tokens
  obtain ⟨after, hafter, hall⟩ := hsecond (.comma :: (ts.reverse ++ tokens))
  have hcomma : lexer.read [','] = some { tokens := .comma :: (ts.reverse ++ tokens) } :=
    hends.next ',' rfl
  refine ⟨after, ?_, ?_⟩
  · rw [read_append, hlexer, Option.bind_some, read_cons, hcomma, Option.bind_some, hafter]
  · rw [List.reverse_append, List.reverse_cons, List.append_assoc, List.append_assoc]
    exact hall

/-- Texts joined by commas spell their tokens joined by commas. -/
theorem Spells.intercalate {texts : List (List Char)} {rows : List (List Token)}
    (hall : List.Forall₂ Spells texts rows) :
    Spells ([','].intercalate texts) ([Token.comma].intercalate rows) := by
  induction hall with
  | nil => exact spells_nil
  | @cons text row texts rows hfirst hrest ih =>
    cases hrest with
    | nil => rwa [List.intercalate_singleton, List.intercalate_singleton]
    | cons hsecond hlater =>
      rw [List.intercalate_cons_cons, List.intercalate_cons_cons, List.append_assoc,
        List.append_assoc]
      exact hfirst.comma ih

/-- A text in brackets spells its tokens in brackets. -/
theorem Spells.bracket {opening closing : Char} {first last : Token} (hspells : Spells cs ts)
    (hascii : opening.toNat < 128) (hdelimiter : isDelimiter closing = true)
    (hopening : ∀ tokens, begin tokens opening = some { tokens := first :: tokens })
    (hclosing : ∀ tokens, begin tokens closing = some { tokens := last :: tokens }) :
    Spells (opening :: (cs ++ [closing])) (first :: (ts ++ [last])) := by
  intro tokens
  obtain ⟨lexer, hlexer, hends⟩ := hspells (first :: tokens)
  have hlast : lexer.read [closing] = some { tokens := last :: (ts.reverse ++ first :: tokens) } :=
    (hends.next closing hdelimiter).trans (hclosing _)
  refine ⟨_, ?_, ends_between _⟩
  rw [read_cons, read_between hascii, hopening, Option.bind_some, read_append, hlexer,
    Option.bind_some, hlast, List.reverse_cons, List.reverse_append, List.append_assoc,
    List.append_assoc]
  rfl

theorem Spells.array (hspells : Spells cs ts) :
    Spells ('[' :: (cs ++ [']'])) (.openArray :: (ts ++ [.closeArray])) :=
  hspells.bracket (by decide) rfl (fun _ ↦ rfl) fun _ ↦ rfl

theorem Spells.object (hspells : Spells cs ts) :
    Spells ('\x7b' :: (cs ++ ['\x7d'])) (.openObject :: (ts ++ [.closeObject])) :=
  hspells.bracket (by decide) rfl (fun _ ↦ rfl) fun _ ↦ rfl

/-! ### Words and integers -/

theorem spells_null : Spells "null".toList [.scalar .null] := by
  intro tokens
  refine ⟨{ tokens, place := .word ['l', 'l', 'u', 'n'] }, rfl, rfl, fun c hc ↦ ?_⟩
  rcases eq_of_isDelimiter hc with rfl | rfl | rfl <;> rfl

theorem spells_bool (b : Bool) : Spells (if b then "true" else "false").toList [.scalar (.bool b)] := by
  intro tokens
  cases b with
  | true =>
    refine ⟨{ tokens, place := .word ['e', 'u', 'r', 't'] }, rfl, rfl, fun c hc ↦ ?_⟩
    rcases eq_of_isDelimiter hc with rfl | rfl | rfl <;> rfl
  | false =>
    refine ⟨{ tokens, place := .word ['e', 's', 'l', 'a', 'f'] }, rfl, rfl, fun c hc ↦ ?_⟩
    rcases eq_of_isDelimiter hc with rfl | rfl | rfl <;> rfl

theorem toNat_of_isDigit (hc : c.isDigit = true) : 48 ≤ c.toNat ∧ c.toNat ≤ 57 := by
  rwa [Char.isDigit, Bool.and_eq_true, decide_eq_true_iff, decide_eq_true_iff, ge_iff_le,
    UInt32.le_iff_toNat_le, UInt32.le_iff_toNat_le] at hc

/-- A digit or a minus begins a number and goes on with one. -/
theorem begin_number (hc : c.isDigit = true ∨ c = '-') (tokens : List Token) :
    c.toNat < 128 ∧ isNumberChar c = true ∧
      begin tokens c = some { tokens, place := .number [c] } := by
  rcases hc with hdigit | rfl
  · obtain ⟨hleast, hmost⟩ := toNat_of_isDigit hdigit
    rw [← Char.ofNat_toNat c]
    generalize c.toNat = n at hleast hmost
    interval_cases n <;> exact ⟨by decide, rfl, rfl⟩
  · exact ⟨by decide, rfl, rfl⟩

/-- A number goes on as long as digits follow. -/
theorem read_number (hcs : ∀ c ∈ cs, c.isDigit = true ∨ c = '-') (chars : List Char) :
    ({ tokens, place := .number chars } : Lexer).read cs =
      some { tokens, place := .number (cs.reverse ++ chars) } := by
  induction cs generalizing chars with
  | nil => rfl
  | cons c rest ih =>
    obtain ⟨hc, hrest⟩ := List.forall_mem_cons.1 hcs
    obtain ⟨hascii, hnumber, -⟩ := begin_number hc tokens
    have hstep : ({ tokens, place := .number chars } : Lexer).read [c] =
        some { tokens, place := .number (c :: chars) } := by
      rw [read_ascii hascii, step]
      dsimp only
      rw [ofNat_octet hascii, if_pos hnumber]
    rw [read_cons, hstep, Option.bind_some, ih hrest, List.reverse_cons, List.append_assoc]
    rfl

theorem spells_number {n : Json.Number} (hinteger : n.IsInteger) :
    Spells n.render.toList [.scalar (.number (some n))] := by
  intro tokens
  obtain ⟨token, htoken, hvalue⟩ := Json.Number.exists_token hinteger
  have hchars : ∀ c ∈ n.render.toList, c.isDigit = true ∨ c = '-' := fun c hc ↦
    Json.Number.isDigit_of_mem_render hinteger hc
  cases hspelled : n.render.toList with
  | nil => exact absurd hspelled (Json.Number.render_ne_nil hinteger)
  | cons c rest =>
    rw [hspelled] at hchars htoken
    obtain ⟨hc, hrest⟩ := List.forall_mem_cons.1 hchars
    obtain ⟨hascii, -, hbegin⟩ := begin_number hc tokens
    have hnumber : number? (rest.reverse ++ [c]).reverse = some (.scalar (.number (some n))) := by
      rw [List.reverse_append, List.reverse_reverse, number?]
      change (Json.NumberToken.ofChars? (c :: rest)).map _ = _
      rw [htoken, Option.map_some, hvalue]
    refine ⟨{ tokens, place := .number (rest.reverse ++ [c]) }, ?_, ?_, ?_⟩
    · rw [read_cons, read_between hascii, hbegin, Option.bind_some, read_number hrest]
    · rw [finish]
      dsimp only
      rw [hnumber]
      rfl
    · intro d hd
      have hdelimiter : isNumberChar d = false := by
        rcases eq_of_isDelimiter hd with rfl | rfl | rfl <;> rfl
      have hd := toNat_lt_of_isDelimiter hd
      rw [read_ascii hd, step]
      dsimp only
      rw [ofNat_octet hd, if_neg (by rw [hdelimiter]; exact Bool.false_ne_true), hnumber]
      rfl

/-! ### Strings -/

/-- An octet that stands for itself in a string. -/
def Plain (octet : UInt8) : Prop :=
  Char.ofNat octet.toNat ≠ '"' ∧ Char.ofNat octet.toNat ≠ '\\' ∧ ¬octet < 0x20

theorem foldlM_step_plain {octets : List UInt8} (hplain : ∀ octet ∈ octets, Plain octet)
    (before : List UInt8) :
    octets.foldlM step { tokens, place := .text { octets := before } } =
      some { tokens, place := .text { octets := octets.reverse ++ before } } := by
  induction octets generalizing before with
  | nil => rfl
  | cons octet rest ih =>
    obtain ⟨⟨hquote, hslash, hcontrol⟩, hrest⟩ := List.forall_mem_cons.1 hplain
    have hstep : step { tokens, place := .text { octets := before } } octet =
        some { tokens, place := .text { octets := octet :: before } } := by
      rw [step]
      dsimp only
      rw [if_neg hquote, if_neg hslash, if_neg hcontrol]
      rfl
    rw [List.foldlM_cons, hstep, Option.bind_eq_bind, Option.bind_some, ih hrest, List.reverse_cons,
      List.append_assoc]
    rfl

/-- The octets of a character that is not escaped stand for themselves. -/
theorem plain_of_mem_utf8EncodeChar (hquote : c ≠ '"') (hslash : c ≠ '\\') (hcontrol : ¬c.toNat < 0x20)
    {octet : UInt8} (hoctet : octet ∈ String.utf8EncodeChar c) : Plain octet := by
  rcases lt_or_ge c.toNat 128 with hascii | hlarge
  · rw [Text.utf8EncodeChar_ascii hascii, List.mem_singleton] at hoctet
    subst hoctet
    refine ⟨?_, ?_, ?_⟩
    · rwa [ofNat_octet hascii]
    · rwa [ofNat_octet hascii]
    · rwa [Text.ofNat_lt_iff (by omega)]
  · have hle := Text.le_of_mem_utf8EncodeChar hlarge hoctet
    have hbound := octet.toNat_lt
    have hvalid : octet.toNat.isValidChar := .inl (by omega)
    have hcode : (Char.ofNat octet.toNat).toNat = octet.toNat := by
      rw [Char.ofNat, dif_pos hvalid]
      rfl
    have hne : ∀ d : Char, d.toNat < 128 → Char.ofNat octet.toNat ≠ d := by
      rintro d hd rfl
      omega
    refine ⟨hne _ (by decide), hne _ (by decide), ?_⟩
    rw [UInt8.lt_iff_toNat_lt]
    change ¬octet.toNat < 32
    omega

/-- A unit below the surrogates is a character. -/
theorem unit_eq_scalar {unit : Nat} (hunit : unit < 0xd800) (b : TextBuffer) :
    b.unit unit = b.scalar unit := by
  have htrailing : ¬0xdc00 ≤ unit := by omega
  have hleading : ¬0xd800 ≤ unit := by omega
  simp [TextBuffer.unit, htrailing, hleading]

/-- A hexadecimal digit is one more digit of a unit. -/
theorem read_hexDigit {digit : Nat} (hdigit : digit < 16) (b : TextBuffer) (due value : Nat) :
    ({ tokens, place := .unit b due value } : Lexer).read [Json.hexDigit digit] =
      some (if due ≤ 1 then { tokens, place := .text (b.unit (16 * value + digit)) }
        else { tokens, place := .unit b (due - 1) (16 * value + digit) }) := by
  have hvalue : ∀ d < 16, (Json.hexDigit d).toNat < 128 ∧ hexValue? (Json.hexDigit d) = some d := by
    decide
  obtain ⟨hascii, hhex⟩ := hvalue digit hdigit
  rw [read_ascii hascii, step]
  dsimp only
  rw [ofNat_octet hascii, hhex]
  rfl

/-- A character comes back from the way in which it is written in a string. -/
theorem read_escapedChar (c : Char) (before : List UInt8) :
    ({ tokens, place := .text { octets := before } } : Lexer).read (Json.escapedChar c) =
      some { tokens, place := .text { octets := (String.utf8EncodeChar c).reverse ++ before } } := by
  rw [Json.escapedChar]
  split_ifs with hquote hslash hbackspace htab hfeed hform hreturn hcontrol
  · rw [hquote]
    rfl
  · rw [hslash]
    rfl
  · rw [hbackspace]
    rfl
  · rw [htab]
    rfl
  · rw [hfeed]
    rfl
  · rw [hform]
    rfl
  · rw [hreturn]
    rfl
  · have hbegun : ({ tokens, place := .text { octets := before } } : Lexer).read
        ['\\', 'u', '0', '0'] = some { tokens, place := .unit { octets := before } 2 0 } := rfl
    have hcode : 16 * (16 * 0 + c.toNat / 16) + c.toNat % 16 = c.toNat := by omega
    have hunit : ({ octets := before } : TextBuffer).unit c.toNat =
        { octets := (String.utf8EncodeChar c).reverse ++ before } := by
      rw [unit_eq_scalar (by omega), TextBuffer.scalar, Char.ofNat_toNat]
      rfl
    change Lexer.read _ (['\\', 'u', '0', '0'] ++ ([Json.hexDigit (c.toNat / 16)] ++
      [Json.hexDigit (c.toNat % 16)])) = _
    rw [read_append, hbegun, Option.bind_some, read_append, read_hexDigit (by omega), Option.bind_some,
      if_neg (by decide), read_hexDigit (by omega), if_pos (by decide), hcode, hunit]
  · rw [read, List.flatMap_singleton]
    exact foldlM_step_plain (fun _ ↦ plain_of_mem_utf8EncodeChar hquote hslash hcontrol) before

theorem read_flatMap_escapedChar (cs : List Char) (before : List UInt8) :
    ({ tokens, place := .text { octets := before } } : Lexer).read (cs.flatMap Json.escapedChar) =
      some
        { tokens, place := .text { octets := (cs.flatMap String.utf8EncodeChar).reverse ++ before } } := by
  induction cs generalizing before with
  | nil => rfl
  | cons c rest ih =>
    rw [List.flatMap_cons, read_append, read_escapedChar, Option.bind_some, ih, List.flatMap_cons,
      List.reverse_append, List.append_assoc]

/-- A string comes back from the way in which it is written. -/
theorem read_escaped (s : String) (tokens : List Token) :
    ({ tokens } : Lexer).read (Json.escaped s).toList = some { tokens := .text (some s) :: tokens } := by
  have hopen : ({ tokens } : Lexer).read ['"'] = some { tokens, place := .text {} } := rfl
  have htext : TextBuffer.finish { octets := (Text.encode s).reverse ++ [] } = some s := by
    rw [TextBuffer.finish, ← Text.decode?_encode s]
    change (if false = true then none else Text.decode? ((Text.encode s).reverse ++ []).reverse) = _
    rw [if_neg Bool.false_ne_true, List.append_nil, List.reverse_reverse]
  have hclose : ({ tokens, place := .text { octets := (Text.encode s).reverse ++ [] } } : Lexer).read
      ['"'] = some { tokens := .text (some s) :: tokens } := by
    rw [← htext]
    rfl
  rw [Json.escaped, String.toList_ofList, read_append, read_append, hopen, Option.bind_some,
    read_flatMap_escapedChar, Option.bind_some]
  exact hclose

theorem spells_text (s : String) : Spells (Json.escaped s).toList [.text (some s)] :=
  spells_of_read (read_escaped s)

/-- A key and a value with a colon between them. -/
theorem Spells.member (hspells : Spells cs ts) (key : String) :
    Spells ((Json.escaped key).toList ++ ':' :: cs) (.text (some key) :: .colon :: ts) := by
  intro tokens
  obtain ⟨lexer, hlexer, hends⟩ := hspells (.colon :: .text (some key) :: tokens)
  have hcolon : ({ tokens := .text (some key) :: tokens } : Lexer).read [':'] =
      some { tokens := .colon :: .text (some key) :: tokens } := rfl
  refine ⟨lexer, ?_, ?_⟩
  · rw [read_append, read_escaped, Option.bind_some, read_cons, hcolon, Option.bind_some, hlexer]
  · rw [List.reverse_cons, List.reverse_cons, List.append_assoc, List.append_assoc]
    exact hends

end Document.Lexer

/-! ### Values -/

namespace Json

open Document.Lexer (Spells)

mutual

/-- A value whose numbers are all integers. -/
def IsIntegral : Json → Prop
  | .null | .bool _ | .string _ => True
  | .number n => n.IsInteger
  | .array items => ItemsIntegral items
  | .object members => MembersIntegral members

def ItemsIntegral : List Json → Prop
  | [] => True
  | v :: rest => IsIntegral v ∧ ItemsIntegral rest

def MembersIntegral : List (String × Json) → Prop
  | [] => True
  | (_, v) :: rest => IsIntegral v ∧ MembersIntegral rest

end

theorem itemsIntegral_iff {items : List Json} : ItemsIntegral items ↔ ∀ v ∈ items, v.IsIntegral := by
  induction items with
  | nil => exact ⟨fun _ ↦ List.forall_mem_nil _, fun _ ↦ trivial⟩
  | cons v rest ih => rw [ItemsIntegral, ih, List.forall_mem_cons]

theorem membersIntegral_iff {members : List (String × Json)} :
    MembersIntegral members ↔ ∀ member ∈ members, member.2.IsIntegral := by
  induction members with
  | nil => exact ⟨fun _ ↦ List.forall_mem_nil _, fun _ ↦ trivial⟩
  | cons member rest ih => rw [MembersIntegral, ih, List.forall_mem_cons]

mutual

/-- The tokens of a value. -/
def tokens : Json → List Token
  | .null => [.scalar .null]
  | .bool b => [.scalar (.bool b)]
  | .number n => [.scalar (.number (some n))]
  | .string s => [.text (some s)]
  | .array items => .openArray :: ([Token.comma].intercalate (itemTokens items) ++ [.closeArray])
  | .object members =>
    .openObject :: ([Token.comma].intercalate (memberTokens members) ++ [.closeObject])

def itemTokens : List Json → List (List Token)
  | [] => []
  | v :: rest => tokens v :: itemTokens rest

def memberTokens : List (String × Json) → List (List Token)
  | [] => []
  | (key, v) :: rest => (.text (some key) :: .colon :: tokens v) :: memberTokens rest

end

mutual

/-- A value that is written without space spells its tokens. -/
theorem spells_compact : (v : Json) → v.IsIntegral → Spells v.compact.toList v.tokens
  | .null, _ => Document.Lexer.spells_null
  | .bool true, _ => Document.Lexer.spells_bool true
  | .bool false, _ => Document.Lexer.spells_bool false
  | .number _, hinteger => Document.Lexer.spells_number hinteger
  | .string s, _ => Document.Lexer.spells_text s
  | .array items, hitems => by
    have hspells := (Spells.intercalate (spells_compactItems items hitems)).array
    rw [compact, String.toList_append, String.toList_append, String.toList_intercalate]
    exact hspells
  | .object members, hmembers => by
    have hspells := (Spells.intercalate (spells_compactMembers members hmembers)).object
    rw [compact, String.toList_append, String.toList_append, String.toList_intercalate]
    exact hspells

theorem spells_compactItems : (items : List Json) → ItemsIntegral items →
    List.Forall₂ Spells ((compactItems items).map String.toList) (itemTokens items)
  | [], _ => .nil
  | v :: rest, ⟨hv, hrest⟩ => .cons (spells_compact v hv) (spells_compactItems rest hrest)

theorem spells_compactMembers : (members : List (String × Json)) → MembersIntegral members →
    List.Forall₂ Spells ((compactMembers members).map String.toList) (memberTokens members)
  | [], _ => .nil
  | (key, v) :: rest, ⟨hv, hrest⟩ => by
    refine .cons ?_ (spells_compactMembers rest hrest)
    have hspells := (spells_compact v hv).member key
    rw [String.toList_append, String.toList_append, List.append_assoc]
    exact hspells

end

end Json

end ActionReplay
