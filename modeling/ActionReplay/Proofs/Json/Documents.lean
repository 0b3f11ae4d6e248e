import ActionReplay.Proofs.Json.Tokens

/-!
# Tokens are put together

The tokens of a value are put together to the document that spells it, whatever brackets are open around
it (`Builder.foldlM_step_tokens`): its items are put into the innermost bracket one after another
(`Builder.foldlM_step_items`), and so are its members (`Builder.foldlM_step_members`). So a value whose
numbers are integers, written without space, is read as the document that spells it
(`Document.read_compact`).
-/

set_option autoImplicit false
set_option relaxedAutoImplicit false

namespace ActionReplay.Document

/-- The tokens of a value begin with one that begins a value. -/
theorem exists_tokens_eq_cons (v : Json) : ∃ t rest, v.tokens = t :: rest ∧ t ≠ .closeArray := by
  cases v with
  | null | bool | number | string | array | object =>
    rw [Json.tokens]
    exact ⟨_, _, rfl, nofun⟩

/-- Rows of tokens with commas between them begin with the first row. -/
theorem exists_intercalate_eq_append (row : List Token) (rows : List (List Token)) :
    ∃ later, [Token.comma].intercalate (row :: rows) = row ++ later := by
  cases rows with
  | nil => exact ⟨[], by rw [List.intercalate_singleton, List.append_nil]⟩
  | cons second later => exact ⟨_, by rw [List.intercalate_cons_cons, List.append_assoc]⟩

namespace Builder

variable {frames : List Frame}

/-- What begins a value begins it also in an array that has just been opened and could be closed. -/
theorem step_valueOrClose {t : Token} (ht : t ≠ .closeArray) :
    step { frames, due := .valueOrClose } t = step { frames, due := .value } t := by
  cases t with
  | closeArray => exact absurd rfl ht
  | openArray | openObject | closeObject | comma | colon | scalar | text => rfl

theorem foldlM_step_valueOrClose (v : Json) (rest : List Json) (later : List Token) :
    ([Token.comma].intercalate (Json.itemTokens (v :: rest)) ++ later).foldlM step
        { frames, due := .valueOrClose } =
      ([Token.comma].intercalate (Json.itemTokens (v :: rest)) ++ later).foldlM step
        { frames, due := .value } := by
  obtain ⟨t, tokens, htokens, ht⟩ := exists_tokens_eq_cons v
  obtain ⟨between, hrows⟩ := exists_intercalate_eq_append v.tokens (Json.itemTokens rest)
  rw [Json.itemTokens, hrows, htokens, List.cons_append, List.cons_append, List.foldlM_cons,
    List.foldlM_cons, step_valueOrClose ht]

/-- What begins a key begins it also in an object that has just been opened and could be closed. -/
theorem foldlM_step_keyOrClose (key : String) (v : Json) (rest : List (String × Json))
    (later : List Token) :
    ([Token.comma].intercalate (Json.memberTokens ((key, v) :: rest)) ++ later).foldlM step
        { frames, due := .keyOrClose } =
      ([Token.comma].intercalate (Json.memberTokens ((key, v) :: rest)) ++ later).foldlM step
        { frames, due := .key } := by
  obtain ⟨between, hrows⟩ := exists_intercalate_eq_append
    (.text (some key) :: .colon :: v.tokens) (Json.memberTokens rest)
  rw [Json.memberTokens, hrows, List.cons_append, List.cons_append, List.foldlM_cons,
    List.foldlM_cons]
  rfl

mutual

/-- The tokens of a value are put together to its document, which is put into the innermost bracket. What
stands in a bracket is held in reverse until it is closed. -/
theorem foldlM_step_tokens : (v : Json) → (frames : List Frame) →
    v.tokens.foldlM step { frames, due := .value } = some (put (ofJson v) frames)
  | .null, _ => rfl
  | .bool _, _ => rfl
  | .number _, _ => rfl
  | .string _, _ => rfl
  | .array [], _ => rfl
  | .array (v :: rest), frames => by
    have hopen : step { frames, due := .value } .openArray =
        some { frames := .array [] :: frames, due := .valueOrClose } := rfl
    rw [Json.tokens, List.foldlM_cons, hopen, Option.bind_eq_bind, Option.bind_some,
      foldlM_step_valueOrClose, List.foldlM_append,
      foldlM_step_items (v :: rest) (List.cons_ne_nil v rest) [] frames, List.append_nil]
    change some (put (.array (ofItems (v :: rest)).reverse.reverse) frames) = _
    rw [List.reverse_reverse, ofJson]
  | .object [], _ => rfl
  | .object ((key, v) :: rest), frames => by
    have hopen : step { frames, due := .value } .openObject =
        some { frames := .object [] none :: frames, due := .keyOrClose } := rfl
    rw [Json.tokens, List.foldlM_cons, hopen, Option.bind_eq_bind, Option.bind_some,
      foldlM_step_keyOrClose, List.foldlM_append,
      foldlM_step_members ((key, v) :: rest) (List.cons_ne_nil (key, v) rest) [] frames,
      List.append_nil]
    change some (put (.object (ofMembers ((key, v) :: rest)).reverse.reverse) frames) = _
    rw [List.reverse_reverse, ofJson]

/-- Items with commas between them are put into an array one after another. -/
theorem foldlM_step_items : (values : List Json) → values ≠ [] → (items : List Document) →
    (frames : List Frame) →
    ([Token.comma].intercalate (Json.itemTokens values)).foldlM step
        { frames := .array items :: frames, due := .value } =
      some { frames := .array ((ofItems values).reverse ++ items) :: frames, due := .more }
  | [], hsome, _, _ => absurd rfl hsome
  | [v], _, items, frames => by
    rw [Json.itemTokens, Json.itemTokens, List.intercalate_singleton, foldlM_step_tokens v]
    rfl
  | v :: w :: rest, _, items, frames => by
    have hcomma : [Token.comma].foldlM step (put (ofJson v) (.array items :: frames)) =
        some { frames := .array (ofJson v :: items) :: frames, due := .value } := rfl
    have hlater := foldlM_step_items (w :: rest) (List.cons_ne_nil w rest) (ofJson v :: items) frames
    rw [Json.itemTokens] at hlater
    rw [Json.itemTokens, Json.itemTokens, List.intercalate_cons_cons, List.foldlM_append,
      List.foldlM_append, foldlM_step_tokens v, Option.bind_eq_bind, Option.bind_some, hcomma,
      Option.bind_some, hlater, ofItems.eq_2 v, List.reverse_cons, List.append_assoc]
    rfl

/-- Members with commas between them are put into an object one after another. -/
theorem foldlM_step_members : (entries : List (String × Json)) → entries ≠ [] →
    (members : List (Option String × Document)) → (frames : List Frame) →
    ([Token.comma].intercalate (Json.memberTokens entries)).foldlM step
        { frames := .object members none :: frames, due := .key } =
      some { frames := .object ((ofMembers entries).reverse ++ members) none :: frames, due := .more }
  | [], hsome, _, _ => absurd rfl hsome
  | [(key, v)], _, members, frames => by
    rw [Json.memberTokens, Json.memberTokens, List.intercalate_singleton]
    exact foldlM_step_tokens v (.object members (some key) :: frames)
  | (key, v) :: (other, w) :: rest, _, members, frames => by
    have hfirst : (Token.text (some key) :: .colon :: v.tokens).foldlM step
        { frames := .object members none :: frames, due := .key } =
          some (put (ofJson v) (.object members (some key) :: frames)) :=
      foldlM_step_tokens v (.object members (some key) :: frames)
    have hcomma : [Token.comma].foldlM step (put (ofJson v) (.object members (some key) :: frames)) =
        some { frames := .object ((some key, ofJson v) :: members) none :: frames, due := .key } := rfl
    have hlater := foldlM_step_members ((other, w) :: rest) (List.cons_ne_nil (other, w) rest)
      ((some key, ofJson v) :: members) frames
    rw [Json.memberTokens] at hlater
    rw [Json.memberTokens, Json.memberTokens, List.intercalate_cons_cons, List.foldlM_append,
      List.foldlM_append, hfirst, Option.bind_eq_bind, Option.bind_some, hcomma, Option.bind_some,
      hlater, ofMembers.eq_2 key v, List.reverse_cons, List.append_assoc]
    rfl

end

end Builder

/-- A value whose numbers are integers, written without space, is read as the document that spells
it. -/
theorem read_compact {v : Json} (hintegral : v.IsIntegral) :
    read (Text.encode v.compact) = some (ofJson v) := by
  obtain ⟨lexer, hlexer, hends⟩ := v.spells_compact hintegral []
  have htokens : tokens? (Text.encode v.compact) = some v.tokens := by
    rw [List.append_nil] at hends
    have hread : (Text.encode v.compact).foldlM Lexer.step {} = some lexer := hlexer
    rw [tokens?, hread, Option.bind_some, hends.finish, List.reverse_reverse]
  have hbuilt : v.tokens.foldlM Builder.step {} = some (Builder.put (ofJson v) []) :=
    Builder.foldlM_step_tokens v []
  rw [read, htokens, Option.bind_eq_bind, Option.bind_some, hbuilt]
  rfl

end ActionReplay.Document
