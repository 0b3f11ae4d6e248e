import ActionReplay.Proofs.Source.Grammar

/-!
# What readers of payloads ignore

Two payloads that differ in ignored members only are read alike: into the same sources, or with the
same fault. A payload is trimmed (`Json.Trims`) by leaving members out, of any of its sources and of any
of their items at once. Of a source those may go whose keys are not read (`Source.keys`), whatever
stands there; of an item those that are null, and those whose keys are not read of its type
(`Json.ReadsOfItem`). With a key all that stands under it goes, and what is not named stays as it is
(`Json.Omits`, `Json.Elementwise`, `Json.Below`).

What is left out of an item is nothing to its reader: the type is named as before
(`Json.TrimsItem.typeName?_eq`) and so is every field of that type (`Json.TrimsItem.value?_eq`), so that
each reader of a field answers as before, and with them `Item.read`, `Source.read` and
`Source.readAll_of_trims`.
-/

set_option autoImplicit false
set_option relaxedAutoImplicit false

namespace ActionReplay

/-! ### Leaving members out -/

/-- The keys that are read of a source. -/
def Source.keys : List String := ["id", "type", "parameters", "actions"]

namespace Json

/-- The keys that are read of an item: the one of its type, and those of the fields of that type. -/
def ReadsOfItem (v : Json) (key : String) : Prop :=
  key = "type" ∨
    ∃ type : ItemType, v.typeName? = some type.name ∧ ∃ field ∈ type.fields, field.name = key

/-- Members are left out of an object, under any keys but those where what stands may not be left
out. What is no object stays. -/
inductive Omits (MayOmit : String → Json → Prop) : Json → Json → Prop
  | object {members : List (String × Json)} (keep : String → Bool)
      (hdrop : ∀ key v, Table.find? key members = some v → keep key = false → MayOmit key v) :
      Omits MayOmit (.object members) (.object (members.filter fun member ↦ keep member.1))
  | other {v : Json} (hv : v.members? = none) : Omits MayOmit v v

/-- An array is changed element by element. What is no array stays. -/
inductive Elementwise (Changes : Json → Json → Prop) : Json → Json → Prop
  | array {values others : List Json} (hall : List.Forall₂ Changes values others) :
      Elementwise Changes (.array values) (.array others)
  | other {v : Json} (hv : v.items? = none) : Elementwise Changes v v

/-- A member is changed if it stands under one key, and stays under any other. -/
inductive MemberBelow (key : String) (Changes : Json → Json → Prop) :
    String × Json → String × Json → Prop
  | below {v w : Json} (hchanges : Changes v w) : MemberBelow key Changes (key, v) (key, w)
  | other {member : String × Json} (hkey : member.1 ≠ key) : MemberBelow key Changes member member

/-- What stands under one key of an object is changed, and nothing else. What is no object stays. -/
inductive Below (key : String) (Changes : Json → Json → Prop) : Json → Json → Prop
  | object {members others : List (String × Json)}
      (hall : List.Forall₂ (MemberBelow key Changes) members others) :
      Below key Changes (.object members) (.object others)
  | other {v : Json} (hv : v.members? = none) : Below key Changes v v

/-- An item is trimmed by leaving out members that are null or are not read. -/
def TrimsItem (v w : Json) : Prop :=
  Omits (fun key member ↦ member = .null ∨ ¬v.ReadsOfItem key) v w

/-- A source is trimmed by trimming its items, and by leaving out members that are not read. -/
def TrimsSource (v w : Json) : Prop :=
  ∃ u, Below "actions" (Elementwise TrimsItem) v u ∧ Omits (fun key _ ↦ key ∉ Source.keys) u w

/-- A payload is trimmed by trimming its sources. -/
def Trims : Json → Json → Prop :=
  Elementwise TrimsSource

/-! ### What stands under a key afterwards -/

variable {v w : Json}

theorem Omits.of_forall_mem {MayOmit : String → Json → Prop} {members : List (String × Json)}
    (keep : String → Bool)
    (hdrop : ∀ member ∈ members, keep member.1 = false → MayOmit member.1 member.2) :
    Omits MayOmit (.object members) (.object (members.filter fun member ↦ keep member.1)) :=
  .object keep fun key v hfind ↦ hdrop (key, v) (Table.mem_of_find? hfind)

/-- Whatever stands under a key goes together, so nothing else comes to light there. -/
theorem Omits.member? {MayOmit : String → Json → Prop} (homits : Omits MayOmit v w) (key : String) :
    w.member? key = v.member? key ∨
      w.member? key = none ∧ ∃ u, v.member? key = some u ∧ MayOmit key u := by
  cases homits with
  | other hv => exact .inl rfl
  | @object members keep hdrop =>
    change Table.find? key (members.filter fun member ↦ keep member.1) = Table.find? key members ∨
      Table.find? key (members.filter fun member ↦ keep member.1) = none ∧
        ∃ u, Table.find? key members = some u ∧ MayOmit key u
    rw [Table.find?_filter]
    cases hkeep : keep key with
    | true => exact .inl rfl
    | false =>
      cases hfind : Table.find? key members with
      | none => exact .inl rfl
      | some u => exact .inr ⟨rfl, u, rfl, hdrop key u hfind hkeep⟩

/-- What may never be left out stays. -/
theorem Omits.member?_eq {MayOmit : String → Json → Prop} (homits : Omits MayOmit v w) {key : String}
    (hkeep : ∀ u, ¬MayOmit key u) : w.member? key = v.member? key := by
  rcases homits.member? key with hsame | ⟨-, u, -, homit⟩
  · exact hsame
  · exact absurd homit (hkeep u)

theorem Elementwise.items? {Changes : Json → Json → Prop} (hchanges : Elementwise Changes v w) :
    Option.Rel (List.Forall₂ Changes) v.items? w.items? := by
  cases hchanges with
  | array hall => exact .some hall
  | other hv =>
    rw [hv]
    exact .none

theorem Below.member?_self {key : String} {Changes : Json → Json → Prop}
    (hbelow : Below key Changes v w) : Option.Rel Changes (v.member? key) (w.member? key) := by
  cases hbelow with
  | other hv =>
    rw [Json.member?, hv]
    exact .none
  | @object members others hall =>
    change Option.Rel Changes (Table.find? key members) (Table.find? key others)
    induction hall with
    | nil => exact .none
    | cons hfirst _ ih =>
      rw [Table.find?_cons, Table.find?_cons]
      cases hfirst with
      | below hchanges =>
        rw [if_pos rfl, if_pos rfl]
        exact .some hchanges
      | other hkey =>
        rw [if_neg hkey, if_neg hkey]
        exact ih

theorem Below.member?_of_ne {key other : String} {Changes : Json → Json → Prop}
    (hbelow : Below key Changes v w) (hother : other ≠ key) : w.member? other = v.member? other := by
  cases hbelow with
  | other hv => rfl
  | @object members others hall =>
    change Table.find? other others = Table.find? other members
    induction hall with
    | nil => rfl
    | cons hfirst _ ih =>
      rw [Table.find?_cons, Table.find?_cons, ih]
      cases hfirst with
      | below hchanges => rw [if_neg hother.symm, if_neg hother.symm]
      | other hkey => rfl

/-! ### What is read of a trimmed item -/

/-- Assumes: an item names its type. The keys that are read of it can be listed. -/
theorem readsOfItem_iff {type : ItemType} (htype : v.typeName? = some type.name) {key : String} :
    v.ReadsOfItem key ↔ key ∈ "type" :: type.fields.map ItemField.name := by
  rw [List.mem_cons, List.mem_map]
  refine or_congr_right ⟨?_, fun hfield ↦ ⟨type, htype, hfield⟩⟩
  rintro ⟨other, hother, hfield⟩
  have hname : other.name = type.name := Option.some.inj (hother.symm.trans htype)
  have hsame : type = other := Option.some.inj
    ((ItemType.ofName?_name type).symm.trans (ItemType.ofName?_eq_some.2 hname))
  exact hsame ▸ hfield

theorem TrimsItem.typeName?_eq (htrims : v.TrimsItem w) : w.typeName? = v.typeName? := by
  unfold typeName?
  rcases htrims.member? "type" with hsame | ⟨hnone, u, hu, rfl | hunread⟩
  · rw [hsame]
  · rw [hnone, hu]
    rfl
  · exact absurd (.inl rfl) hunread

/-- A field that is read is left out only where it is null, which counts as absent. -/
theorem TrimsItem.value?_eq (htrims : v.TrimsItem w) {type : ItemType}
    (htype : v.typeName? = some type.name) {field : ItemField} (hfield : field ∈ type.fields) :
    w.value? field.name = v.value? field.name := by
  unfold value?
  rcases htrims.member? field.name with hsame | ⟨hnone, u, hu, rfl | hunread⟩
  · rw [hsame]
  · rw [hnone, hu]
    rfl
  · exact absurd (.inr ⟨type, htype, field, hfield, rfl⟩) hunread

/-! ### What is read of a trimmed source -/

theorem TrimsSource.member?_eq (htrims : v.TrimsSource w) {key : String} (hkey : key ∈ Source.keys)
    (hitems : key ≠ "actions") : w.member? key = v.member? key := by
  obtain ⟨u, hbelow, homits⟩ := htrims
  rw [homits.member?_eq fun _ hunread ↦ hunread hkey, hbelow.member?_of_ne hitems]

theorem TrimsSource.items? (htrims : v.TrimsSource w) :
    Option.Rel (List.Forall₂ TrimsItem) ((v.member? "actions").bind Json.items?)
      ((w.member? "actions").bind Json.items?) := by
  obtain ⟨u, hbelow, homits⟩ := htrims
  rw [homits.member?_eq fun _ hunread ↦ hunread (by decide)]
  have hrel := hbelow.member?_self
  generalize v.member? "actions" = a, u.member? "actions" = b at hrel
  cases hrel with
  | none => exact .none
  | some htrims => exact Elementwise.items? htrims

end Json

/-! ### Readers of one item -/

namespace ItemReader

variable {r : ItemReader} {others : List (String × Json)} {field : ItemField}

/-- Whatever a reader of values takes, it takes the same from a field that is the same. -/
theorem taken_congr {α : Type} {take : Json → Option α} {defect : FieldDefect}
    (hsame : { r with members := others }.field? field = r.field? field) :
    { r with members := others }.taken take defect field = r.taken take defect field := by
  unfold taken
  rw [hsame]
  rfl

/-- The object that refers to an element is handed on whole, so it may be told in a fault. -/
theorem origin_congr (hsame : { r with members := others }.field? .origin = r.field? .origin) :
    { r with members := others }.origin = r.origin := by
  unfold origin
  rw [hsame]
  rfl

/-- Assumes: the members of an item are replaced by others that have the same under each field of a
type. As an item of that type it is read as before. -/
theorem ofType_congr {type : ItemType}
    (hsame : ∀ field ∈ type.fields, { r with members := others }.field? field = r.field? field) :
    { r with members := others }.ofType type = r.ofType type := by
  have htaken : ∀ {α : Type} {take : Json → Option α} {defect : FieldDefect}, ∀ field ∈ type.fields,
      { r with members := others }.taken take defect field = r.taken take defect field :=
    fun field hfield ↦ taken_congr (hsame field hfield)
  cases type with
  | pause => rw [ofType, ofType, integer, integer, htaken .duration (by decide)]
  | pointerDown | pointerUp => rw [ofType, ofType, integer, integer, htaken .button (by decide)]
  | pointerMove =>
    rw [ofType, ofType, move, move, origin_congr (hsame .origin (by decide))]
    simp only [integer, float, htaken .duration (by decide), htaken .x (by decide),
      htaken .y (by decide), htaken .pressure (by decide), htaken .size (by decide)]
  | pointerCancel => rfl
  | keyDown | keyUp => rw [ofType, ofType, string, string, htaken .value (by decide)]

end ItemReader

/-! ### Readers of trimmed payloads -/

variable {v w : Json}

/-- A name that is no type is told by the fault, and the item is read no further. -/
theorem Item.read_of_trims {id : String} {kind : SourceKind} {item : Nat} (htrims : v.TrimsItem w) :
    read id kind item w = read id kind item v := by
  have htype := htrims.typeName?_eq
  have hvalue := @htrims.value?_eq
  cases htrims with
  | other hv => rfl
  | @object members keep hdrop =>
    change (Table.find? "type" (members.filter fun member ↦ keep member.1)).bind Json.string? =
      (Table.find? "type" members).bind Json.string? at htype
    rw [read, read, htype]
    cases hname : (Table.find? "type" members).bind Json.string? with
    | none => rfl
    | some name =>
      cases hnamed : ItemType.ofName? name with
      | none => simp only [hnamed]
      | some type =>
        simp only [hnamed]
        refine ItemReader.ofType_congr (r := ⟨id, item, members⟩) fun field hfield ↦ ?_
        exact hvalue (hname.trans (congrArg some (ItemType.ofName?_eq_some.1 hnamed).symm)) hfield

theorem Item.readFrom_of_trims {id : String} {kind : SourceKind} {place : Nat}
    {values others : List Json} (htrims : List.Forall₂ Json.TrimsItem values others) :
    readFrom id kind place others = readFrom id kind place values :=
  pass_congr (read id kind) (readFrom id kind) (fun _ _ _ ↦ rfl) (fun _ _ _ ↦ read_of_trims) htrims

namespace Source

theorem readPointerType_of_trims {id : String} (htrims : v.TrimsSource w) :
    readPointerType id w = readPointerType id v := by
  unfold readPointerType
  rw [htrims.member?_eq (by decide) (by decide)]

/-- The pointer type is read before the items, and its fault comes before theirs. -/
theorem read_of_trims {place : Nat} (htrims : v.TrimsSource w) : read place w = read place v := by
  have hid := htrims.member?_eq (by decide : "id" ∈ keys) (by decide)
  have htype := htrims.member?_eq (by decide : "type" ∈ keys) (by decide)
  have hitems := htrims.items?
  unfold read
  rw [hid, htype]
  cases (v.member? "id").bind Json.string? with
  | none => rfl
  | some id =>
    cases (v.member? "type").bind Json.string? with
    | none => rfl
    | some name =>
      cases hkind : SourceKind.ofName? name with
      | none => simp only [hkind]
      | some kind =>
        simp only [hkind]
        rw [readPointerType_of_trims htrims]
        refine bind_eq_bind_of_ok fun pointerType _ ↦ ?_
        generalize (v.member? "actions").bind Json.items? = values,
          (w.member? "actions").bind Json.items? = others at hitems
        cases hitems with
        | none => rfl
        | some hall =>
          dsimp only
          rw [Item.readFrom_of_trims hall]

/-- Assumes: a payload is trimmed. The same sources are read of it, or the same fault is met. -/
theorem readAll_of_trims (htrims : v.Trims w) : readAll w = readAll v := by
  cases htrims with
  | other hv => rfl
  | array hall =>
    exact pass_congr read readFrom (fun _ _ _ ↦ rfl) (fun _ _ _ ↦ read_of_trims) hall

/-- A pause whose duration is null, with a value that nobody reads. -/
def notedPause : Json :=
  .object [("duration", .null), ("type", .string "pause"), ("value", .string "b")]

/-- A key with a button that nobody reads, and that would not even be an integer. -/
def notedKey : Json :=
  .object [("button", .bool true), ("type", .string "keyDown"), ("value", .string "a")]

/-- A source of the two, with a comment. -/
def annotated : Json :=
  .array [.object [
    ("actions", .array [notedPause, notedKey]),
    ("comment", .string "waits, then types"),
    ("id", .string "k"),
    ("type", .string "key")]]

/-- The same source with nothing but what is read. -/
def bare : Json :=
  .array [.object [
    ("actions", .array [
      .object [("type", .string "pause")],
      .object [("type", .string "keyDown"), ("value", .string "a")]]),
    ("id", .string "k"),
    ("type", .string "key")]]

theorem readAll_bare :
    annotated.Trims bare ∧
      readAll annotated = .ok [⟨"k", .key, none, [.pause none, .keyDown (some "a")]⟩] := by
  have hvalue : ¬notedPause.ReadsOfItem "value" := by
    rw [@Json.readsOfItem_iff notedPause .pause rfl]
    decide
  have hbutton : ¬notedKey.ReadsOfItem "button" := by
    rw [@Json.readsOfItem_iff notedKey .keyDown rfl]
    decide
  have hpause : notedPause.TrimsItem (.object [("type", .string "pause")]) :=
    .of_forall_mem (· = "type") (by simpa using hvalue)
  have hkey : notedKey.TrimsItem (.object [("type", .string "keyDown"), ("value", .string "a")]) :=
    .of_forall_mem (· ≠ "button") (by simpa using hbutton)
  have hitems : Json.Elementwise Json.TrimsItem _ _ :=
    .array (.cons hpause (.cons hkey .nil))
  have htrims : annotated.Trims bare :=
    .array (.cons ⟨_, .object (.cons (.below hitems) (.cons (.other (by decide))
        (.cons (.other (by decide)) (.cons (.other (by decide)) .nil)))),
      .object (· ∈ keys) fun _ _ _ hdrop ↦ of_decide_eq_false hdrop⟩ .nil)
  have hread : readAll bare = .ok [⟨"k", .key, none, [.pause none, .keyDown (some "a")]⟩] := by
    rfl
  exact ⟨htrims, (readAll_of_trims htrims).symm.trans hread⟩

end Source

end ActionReplay
