import ActionReplay.Proofs.Success
import ActionReplay.Source.Reading
import Mathlib.Tactic.MkIffOfInductiveProp

/-!
# Which values spell sources

A payload is read field by field, and the first fault met is the answer. What is read without a fault
can be told without reading: a value spells an item if it names the type of the item and the fields of
that type are what stands under their keys (`Json.Spells`), where nothing and null count alike
(`Json.value?`); a value spells a source if it names its id, its kind and its pointer type, and an array
under `actions` spells its items one by one (`Json.SpellsSource`).

Each reader of a field succeeds with exactly what is spelled there, and so do the readers of an item
(`Item.read_eq_ok`), of a source (`Source.read_eq_ok`) and of a payload (`Source.readAll_eq_ok`).
-/

set_option autoImplicit false
set_option relaxedAutoImplicit false

namespace ActionReplay

/-! ### What is spelled -/

namespace Json

/-- The type that a value names as an item or as a source. -/
def typeName? (v : Json) : Option String :=
  (v.member? "type").bind string?

/-- The id that a value names as a source. -/
def sourceId? (v : Json) : Option String :=
  (v.member? "id").bind string?

/-- The value under a key, unless it is null. -/
def value? (key : String) (v : Json) : Option Json :=
  (v.member? key).filter (!·.isNull)

/-- A number spells an integer: itself, or what is left of it when it is cut off toward zero and at
the ends of the signed words. -/
@[mk_iff]
inductive SpellsInteger : Json → Int64 → Prop
  | number (n : Number) : SpellsInteger (.number n) (n.integer?.getD n.toFloat.toInt64)

@[mk_iff]
inductive SpellsFloat : Json → Float → Prop
  | number (n : Number) : SpellsFloat (.number n) n.toFloat

@[mk_iff]
inductive SpellsText : Json → String → Prop
  | string (s : String) : SpellsText (.string s) s

/-- An origin is one of two words, or any other text, which is the handle of an element, or an object
that refers to an element. -/
inductive SpellsOrigin : Json → Origin → Prop
  | viewport : SpellsOrigin (.string "viewport") .viewport
  | pointer : SpellsOrigin (.string "pointer") .pointer
  | handle {handle : String} (hviewport : handle ≠ "viewport") (hpointer : handle ≠ "pointer") :
      SpellsOrigin (.string handle) (.element handle)
  | reference {members : List (String × Json)} {handle : String}
      (hrefers : Reference.handle? members = some handle) :
      SpellsOrigin (.object members) (.element handle)

/-- The fields of a move are what stands under their keys. Without an origin it is the viewport. -/
structure SpellsMove (v : Json) (move : PointerMove) : Prop where
  duration : Option.Rel SpellsInteger (v.value? ItemField.duration.name) move.duration
  origin : ∃ named, Option.Rel SpellsOrigin (v.value? ItemField.origin.name) named ∧
    move.origin = named.getD .viewport
  x : Option.Rel SpellsFloat (v.value? ItemField.x.name) move.x
  y : Option.Rel SpellsFloat (v.value? ItemField.y.name) move.y
  pressure : Option.Rel SpellsFloat (v.value? ItemField.pressure.name) move.pressure
  size : Option.Rel SpellsFloat (v.value? ItemField.size.name) move.size

/-- The fields of an item are what stands under their keys. -/
def SpellsFields (v : Json) : Item → Prop
  | .pause duration => Option.Rel SpellsInteger (v.value? ItemField.duration.name) duration
  | .pointerDown button | .pointerUp button =>
    Option.Rel SpellsInteger (v.value? ItemField.button.name) button
  | .pointerMove move => v.SpellsMove move
  | .pointerCancel => True
  | .keyDown value | .keyUp value => Option.Rel SpellsText (v.value? ItemField.value.name) value

/-- A value spells an item. -/
structure Spells (v : Json) (item : Item) : Prop where
  type : v.typeName? = some item.type.name
  fields : v.SpellsFields item

/-- A value spells a source. The pointer type is asked of the parameters only if they are an object. -/
structure SpellsSource (v : Json) (s : Source) : Prop where
  id : v.sourceId? = some s.id
  kind : v.typeName? = some s.kind.name
  pointerType : (v.member? "parameters").bind (member? "pointerType") =
    s.pointerType.map fun type ↦ .string type.name
  items : ∃ values, (v.member? "actions").bind items? = some values ∧
    List.Forall₂ Spells values s.items

/-! ### What stands under a key -/

theorem map_number?_eq_some {α : Type} {found : Number → α} {v : Json} {a : α} :
    v.number?.map found = some a ↔ ∃ n, v = .number n ∧ a = found n := by
  cases v with
  | number n => simp [number?, eq_comm]
  | null | bool | string | array | object =>
    exact ⟨nofun, by rintro ⟨_, ⟨⟩, -⟩⟩

theorem string?_eq_some {v : Json} {s : String} : v.string? = some s ↔ v = .string s := by
  cases v with
  | string other => simp [string?]
  | null | bool | number | array | object => exact ⟨nofun, nofun⟩

theorem items?_eq_some {v : Json} {values : List Json} :
    v.items? = some values ↔ v = .array values := by
  cases v with
  | array other => simp [items?]
  | null | bool | number | string | object => exact ⟨nofun, nofun⟩

theorem bind_string?_eq_some {member : Option Json} {s : String} :
    member.bind string? = some s ↔ member = some (.string s) := by
  simp [Option.bind_eq_some_iff, string?_eq_some]

theorem bind_items?_eq_some {member : Option Json} {values : List Json} :
    member.bind items? = some values ↔ member = some (.array values) := by
  simp [Option.bind_eq_some_iff, items?_eq_some]

theorem exists_member?_of_rel {v : Json} {key : String} {α : Type} {Spelled : Json → α → Prop}
    {a : α} (hspells : Option.Rel Spelled (v.value? key) (some a)) :
    ∃ w, v.member? key = some w ∧ Spelled w a := by
  generalize hvalue : v.value? key = value at hspells
  cases hspells with
  | some hw => exact ⟨_, (Option.filter_eq_some_iff.1 hvalue).1, hw⟩

end Json

/-! ### Reading what is spelled -/

/-- Where each name leads back to what it names, looking up a name finds what is so named. -/
theorem find?_name_eq_some {α : Type} {all : List α} {name : α → String}
    (hself : ∀ a, (all.find? fun other ↦ name other = name a) = some a) {spelled : String} {a : α} :
    (all.find? fun other ↦ name other = spelled) = some a ↔ name a = spelled := by
  constructor
  · intro hfind
    simpa using List.find?_some hfind
  · rintro rfl
    exact hself a

theorem ItemType.ofName?_eq_some {spelled : String} {type : ItemType} :
    ofName? spelled = some type ↔ type.name = spelled :=
  find?_name_eq_some ofName?_name

theorem SourceKind.ofName?_eq_some {spelled : String} {kind : SourceKind} :
    ofName? spelled = some kind ↔ kind.name = spelled :=
  find?_name_eq_some ofName?_name

theorem PointerType.ofName?_eq_some {spelled : String} {type : PointerType} :
    ofName? spelled = some type ↔ type.name = spelled :=
  find?_name_eq_some ofName?_name

namespace ItemReader

variable {r : ItemReader} {field : ItemField}

/-- Assumes: a reader of values takes what they spell. A field is read as what is spelled under its
key. -/
theorem taken_eq_ok {α : Type} {take : Json → Option α} {Spelled : Json → α → Prop}
    (htake : ∀ v a, take v = some a ↔ Spelled v a) {defect : FieldDefect} {answer : Option α} :
    r.taken take defect field = .ok answer ↔
      Option.Rel Spelled ((Json.object r.members).value? field.name) answer := by
  change _ ↔ Option.Rel _ (r.field? field) _
  unfold taken
  cases r.field? field with
  | none => exact ⟨by rintro ⟨⟩; exact .none, by rintro ⟨⟩; rfl⟩
  | some v =>
    dsimp only
    cases htaken : take v with
    | none =>
      refine ⟨nofun, ?_⟩
      rintro ⟨hspelled⟩
      rw [(htake v _).2 hspelled] at htaken
      cases htaken
    | some a =>
      constructor
      · rintro ⟨⟩
        exact .some ((htake v a).1 htaken)
      · rintro ⟨hspelled⟩
        rw [← htaken, (htake v _).2 hspelled]

theorem integer_eq_ok {answer : Option Int64} :
    r.integer field = .ok answer ↔
      Option.Rel Json.SpellsInteger ((Json.object r.members).value? field.name) answer :=
  taken_eq_ok fun v n ↦ Json.map_number?_eq_some.trans (Json.spellsInteger_iff v n).symm

theorem float_eq_ok {answer : Option Float} :
    r.float field = .ok answer ↔
      Option.Rel Json.SpellsFloat ((Json.object r.members).value? field.name) answer :=
  taken_eq_ok fun v x ↦ Json.map_number?_eq_some.trans (Json.spellsFloat_iff v x).symm

theorem string_eq_ok {answer : Option String} :
    r.string field = .ok answer ↔
      Option.Rel Json.SpellsText ((Json.object r.members).value? field.name) answer :=
  taken_eq_ok fun v s ↦ Json.string?_eq_some.trans (Json.spellsText_iff v s).symm

theorem spellsOrigin_originNamed (name : String) :
    (Json.string name).SpellsOrigin (originNamed name) := by
  unfold originNamed
  split_ifs with hviewport hpointer
  · exact hviewport ▸ .viewport
  · exact hpointer ▸ .pointer
  · exact .handle hviewport hpointer

theorem origin_eq_ok {answer : Origin} :
    r.origin = .ok answer ↔
      ∃ named, Option.Rel Json.SpellsOrigin ((Json.object r.members).value? ItemField.origin.name)
        named ∧ answer = named.getD .viewport := by
  change _ ↔ ∃ named, Option.Rel _ (r.field? .origin) _ ∧ _
  unfold origin
  rcases r.field? .origin with _ | v
  · exact ⟨by rintro ⟨⟩; exact ⟨none, .none, rfl⟩, by rintro ⟨_, ⟨⟩, rfl⟩; rfl⟩
  · cases v with
    | string name =>
      constructor
      · rintro ⟨⟩
        exact ⟨_, .some (spellsOrigin_originNamed name), rfl⟩
      · rintro ⟨_, ⟨hspells⟩, rfl⟩
        cases hspells with
        | viewport => rfl
        | pointer => rfl
        | handle hviewport hpointer =>
          change Except.ok (originNamed name) = _
          rw [originNamed, if_neg hviewport, if_neg hpointer]
    | object members =>
      dsimp only
      cases hhandle : Reference.handle? members with
      | none =>
        refine ⟨nofun, ?_⟩
        rintro ⟨_, ⟨hspells⟩, rfl⟩
        cases hspells with
        | reference hrefers =>
          rw [hhandle] at hrefers
          cases hrefers
      | some handle =>
        constructor
        · rintro ⟨⟩
          exact ⟨_, .some (.reference hhandle), rfl⟩
        · rintro ⟨_, ⟨hspells⟩, rfl⟩
          cases hspells with
          | reference hrefers =>
            rw [hhandle] at hrefers
            cases hrefers
            rfl
    | null | bool | number | array => exact ⟨nofun, by rintro ⟨_, ⟨⟨⟩⟩ | _, -⟩⟩

theorem move_eq_ok {move : PointerMove} :
    r.move = .ok move ↔ (Json.object r.members).SpellsMove move := by
  unfold ItemReader.move
  simp only [bind_eq_ok, integer_eq_ok, origin_eq_ok, float_eq_ok]
  constructor
  · rintro ⟨duration, hduration, origin, horigin, x, hx, y, hy, pressure, hpressure, size, hsize,
      ⟨⟩⟩
    exact ⟨hduration, horigin, hx, hy, hpressure, hsize⟩
  · rintro ⟨hduration, horigin, hx, hy, hpressure, hsize⟩
    exact ⟨_, hduration, _, horigin, _, hx, _, hy, _, hpressure, _, hsize, rfl⟩

theorem type_of_ofType {type : ItemType} {item : Item} (hread : r.ofType type = .ok item) :
    item.type = type := by
  cases type with
  | pause | pointerDown | pointerUp | pointerMove | keyDown | keyUp =>
    obtain ⟨_, -, rfl⟩ := map_eq_ok.1 hread
    rfl
  | pointerCancel =>
    cases hread
    rfl

theorem ofType_eq_ok {item : Item} :
    r.ofType item.type = .ok item ↔ (Json.object r.members).SpellsFields item := by
  cases item with
  | pause => exact (map_eq_ok_of_injective fun _ _ ↦ Item.pause.inj).trans integer_eq_ok
  | pointerDown => exact (map_eq_ok_of_injective fun _ _ ↦ Item.pointerDown.inj).trans integer_eq_ok
  | pointerUp => exact (map_eq_ok_of_injective fun _ _ ↦ Item.pointerUp.inj).trans integer_eq_ok
  | pointerMove => exact (map_eq_ok_of_injective fun _ _ ↦ Item.pointerMove.inj).trans move_eq_ok
  | pointerCancel => exact ⟨fun _ ↦ trivial, fun _ ↦ rfl⟩
  | keyDown => exact (map_eq_ok_of_injective fun _ _ ↦ Item.keyDown.inj).trans string_eq_ok
  | keyUp => exact (map_eq_ok_of_injective fun _ _ ↦ Item.keyUp.inj).trans string_eq_ok

end ItemReader

/-- An item is read from a value exactly if the value spells it. -/
theorem Item.read_eq_ok {id : String} {kind : SourceKind} {place : Nat} {v : Json} {item : Item} :
    read id kind place v = .ok item ↔ v.Spells item := by
  cases v with
  | object members =>
    unfold read
    dsimp only
    constructor
    · intro hread
      split at hread
      · cases hread
      · next spelled hspelled =>
        split at hread
        · cases hread
        · next type htype =>
          obtain rfl := ItemReader.type_of_ofType hread
          rw [ItemType.ofName?_eq_some] at htype
          exact ⟨htype ▸ hspelled, ItemReader.ofType_eq_ok.1 hread⟩
    · rintro ⟨htype, hfields⟩
      change (Table.find? "type" members).bind Json.string? = _ at htype
      rw [htype]
      dsimp only
      rw [ItemType.ofName?_name]
      exact ItemReader.ofType_eq_ok.2 hfields
  | null | bool | number | string | array => exact ⟨nofun, fun hspells ↦ nomatch hspells.type⟩

theorem Item.readFrom_eq_ok {id : String} {kind : SourceKind} {place : Nat} {values : List Json}
    {items : List Item} :
    readFrom id kind place values = .ok items ↔ List.Forall₂ Json.Spells values items :=
  pass_eq_ok (read id kind) (readFrom id kind) (fun _ ↦ rfl) (fun _ _ _ ↦ rfl)
    fun _ _ _ ↦ read_eq_ok

namespace Source

theorem pointerType?_eq_some {named : Json} {type : PointerType} :
    named.string?.bind PointerType.ofName? = some type ↔ named = .string type.name := by
  cases named with
  | string spelled =>
    rw [Json.string.injEq, eq_comm (a := spelled)]
    exact PointerType.ofName?_eq_some
  | null | bool | number | array | object => exact ⟨nofun, nofun⟩

theorem readPointerType_eq_ok {id : String} {v : Json} {type : Option PointerType} :
    readPointerType id v = .ok type ↔
      (v.member? "parameters").bind (Json.member? "pointerType") =
        type.map fun type ↦ .string type.name := by
  unfold readPointerType
  rcases (v.member? "parameters").bind (Json.member? "pointerType") with _ | named
  · rw [eq_comm (a := none), Option.map_eq_none_iff]
    exact ⟨fun h ↦ (Except.ok.inj h).symm, fun h ↦ h ▸ rfl⟩
  · dsimp only
    rw [eq_comm (a := some named), Option.map_eq_some_iff]
    cases hnamed : named.string?.bind PointerType.ofName? with
    | none =>
      refine ⟨nofun, ?_⟩
      rintro ⟨found, -, hfound⟩
      rw [pointerType?_eq_some.2 hfound.symm] at hnamed
      cases hnamed
    | some found =>
      constructor
      · rintro ⟨⟩
        exact ⟨found, rfl, (pointerType?_eq_some.1 hnamed).symm⟩
      · rintro ⟨other, rfl, hother⟩
        rw [pointerType?_eq_some.2 hother.symm] at hnamed
        rw [hnamed]

/-- A source is read from a value exactly if the value spells it. -/
theorem read_eq_ok {place : Nat} {v : Json} {s : Source} :
    read place v = .ok s ↔ v.SpellsSource s := by
  unfold read
  constructor
  · intro hread
    split at hread
    · cases hread
    · next id hid =>
      split at hread
      · cases hread
      · next spelled hspelled =>
        split at hread
        · cases hread
        · next kind hkind =>
          obtain ⟨type, htype, hread⟩ := bind_eq_ok.1 hread
          split at hread
          · cases hread
          · next values hvalues =>
            obtain ⟨items, hitems, hread⟩ := bind_eq_ok.1 hread
            cases hread
            rw [SourceKind.ofName?_eq_some] at hkind
            exact ⟨hid, hkind ▸ hspelled, readPointerType_eq_ok.1 htype, values, hvalues,
              Item.readFrom_eq_ok.1 hitems⟩
  · rintro ⟨hid, hkind, htype, values, hvalues, hitems⟩
    change (v.member? "id").bind Json.string? = _ at hid
    change (v.member? "type").bind Json.string? = _ at hkind
    rw [hid, hkind]
    dsimp only
    rw [SourceKind.ofName?_name]
    refine bind_eq_ok.2 ⟨_, readPointerType_eq_ok.2 htype, ?_⟩
    rw [hvalues]
    exact bind_eq_ok.2 ⟨_, Item.readFrom_eq_ok.2 hitems, rfl⟩

theorem readFrom_eq_ok {place : Nat} {values : List Json} {sources : List Source} :
    readFrom place values = .ok sources ↔ List.Forall₂ Json.SpellsSource values sources :=
  pass_eq_ok read readFrom (fun _ ↦ rfl) (fun _ _ _ ↦ rfl) fun _ _ _ ↦ read_eq_ok

theorem readAll_eq_ok {v : Json} {sources : List Source} :
    readAll v = .ok sources ↔
      ∃ values, v = .array values ∧ List.Forall₂ Json.SpellsSource values sources := by
  cases v with
  | array values =>
    unfold readAll
    rw [readFrom_eq_ok]
    exact ⟨fun h ↦ ⟨values, rfl, h⟩, fun ⟨_, hsame, h⟩ ↦ Json.array.inj hsame ▸ h⟩
  | null | bool | number | string | object => exact ⟨nofun, nofun⟩

end Source

end ActionReplay
