import ActionReplay.Proofs.Source.Spelled

/-!
# The grammar of payloads

The values that are read are those of a grammar that speaks of kinds of JSON values only. The fields
that are read of an item depend on its type (`ItemType.fields`), and each of them takes values of one
kind, an origin of two (`ItemField.Admits`). An item is an object whose fields fit (`Json.IsItem`), a
source an object with an array of items (`Json.IsSource`).

A value is of the grammar exactly if it spells an item or a source (`Json.exists_spells_iff`,
`Json.exists_spellsSource_iff`), so that exactly the arrays of sources are read, and what is read of
them corresponds to their values one to one, in order (`Source.exists_readAll_iff`).
-/

set_option autoImplicit false
set_option relaxedAutoImplicit false

namespace ActionReplay

/-! ### The grammar -/

/-- The fields that are read of an item of each type. -/
def ItemType.fields : ItemType → List ItemField
  | .pause => [.duration]
  | .pointerDown | .pointerUp => [.button]
  | .pointerMove => [.duration, .origin, .x, .y, .pressure, .size]
  | .pointerCancel => []
  | .keyDown | .keyUp => [.value]

/-- A key that starts with the word for an element, whatever the case of its letters. -/
def IsElementKey (key : String) : Prop :=
  ∃ head, head <+: key.toList ∧ head.map Char.toLower = "element".toList

/-- The kinds of values that a field takes. -/
def ItemField.Admits (v : Json) : ItemField → Prop
  | .duration | .button | .x | .y | .pressure | .size => ∃ n, v = .number n
  | .value => ∃ s, v = .string s
  | .origin => (∃ s, v = .string s) ∨
    ∃ members, v = .object members ∧
      ∃ member ∈ members, IsElementKey member.1 ∧ member.2 ≠ .null

namespace Json

/-- What a value has under the key of a field is null or of a kind that the field takes. -/
def Fits (v : Json) (field : ItemField) : Prop :=
  ∀ w, v.member? field.name = some w → w = .null ∨ field.Admits w

/-- An item is an object with a type, whose fields are of the right kinds. -/
def IsItem (v : Json) : Prop :=
  ∃ type : ItemType, v.member? "type" = some (.string type.name) ∧
    ∀ field ∈ type.fields, v.Fits field

/-- A source is an object with an id, a kind, an array of items and no pointer type but one of the
three. -/
structure IsSource (v : Json) : Prop where
  id : ∃ id, v.member? "id" = some (.string id)
  kind : ∃ kind : SourceKind, v.member? "type" = some (.string kind.name)
  pointerType : ∀ parameters, v.member? "parameters" = some parameters →
    ∀ named, parameters.member? "pointerType" = some named →
      ∃ type : PointerType, named = .string type.name
  items : ∃ values, v.member? "actions" = some (.array values) ∧ ∀ w ∈ values, w.IsItem

end Json

/-! ### Whatever is of the grammar is spelled -/

theorem Reference.isReferenceKey_iff {key : String} : isReferenceKey key ↔ IsElementKey key := by
  unfold isReferenceKey IsElementKey
  rw [decide_eq_true_iff]
  constructor
  · intro hstem
    exact ⟨_, List.take_prefix _ _, hstem⟩
  · rintro ⟨head, hhead, hstem⟩
    have hlength : head.length = stem.length := by
      rw [← List.length_map Char.toLower, hstem]
      rfl
    rw [← hlength, ← List.prefix_iff_eq_take.1 hhead, hstem]
    rfl

theorem Reference.exists_handle?_eq_some {members : List (String × Json)} :
    (∃ handle, handle? members = some handle) ↔
      ∃ member ∈ members, IsElementKey member.1 ∧ member.2 ≠ .null := by
  unfold handle?
  rw [← Option.isSome_iff_exists, List.findSome?_isSome_iff]
  refine exists_congr fun ⟨key, v⟩ ↦ and_congr_right fun _ ↦ ?_
  rw [← isReferenceKey_iff]
  dsimp only [handleOfMember?]
  split_ifs with hkey
  · cases v with
    | null => simp
    | bool | number | string | array | object => simp [hkey]
  · simp [hkey]

namespace Json

variable {v : Json} {α : Type}

/-- Assumes: the kinds of values that a field takes are those that spell something. What a value has
under its key spells something, or is nothing, exactly if it fits the field. -/
theorem exists_rel_value?_iff {Spelled : Json → α → Prop} {field : ItemField}
    (hadmits : ∀ w, (∃ a, Spelled w a) ↔ field.Admits w) :
    (∃ answer, Option.Rel Spelled (v.value? field.name) answer) ↔ v.Fits field := by
  unfold value? Fits
  rcases v.member? field.name with _ | w
  · exact ⟨fun _ ↦ nofun, fun _ ↦ ⟨none, .none⟩⟩
  · simp only [Option.some.injEq, forall_eq']
    rw [← hadmits]
    cases w with
    | null => exact ⟨fun _ ↦ .inl rfl, fun _ ↦ ⟨none, .none⟩⟩
    | bool | number | string | array | object =>
      change (∃ answer, Option.Rel Spelled (some _) answer) ↔ _
      rw [or_iff_right nofun]
      exact ⟨fun ⟨_, .some hspells⟩ ↦ ⟨_, hspells⟩, fun ⟨_, hspells⟩ ↦ ⟨_, .some hspells⟩⟩

/-- Assumes: what a value spells is found in values of one kind. Something is spelled exactly by the
values of that kind. -/
theorem exists_spelled_iff {β : Type} {Spelled : Json → α → Prop} {of : β → Json} {found : β → α}
    (hspelled : ∀ w a, Spelled w a ↔ ∃ b, w = of b ∧ a = found b) (w : Json) :
    (∃ a, Spelled w a) ↔ ∃ b, w = of b := by
  simp only [hspelled]
  constructor
  · rintro ⟨_, b, hkind, -⟩
    exact ⟨b, hkind⟩
  · rintro ⟨b, hkind⟩
    exact ⟨_, b, hkind, rfl⟩

theorem exists_spellsInteger_iff (v : Json) : (∃ n, v.SpellsInteger n) ↔ ∃ n, v = .number n :=
  exists_spelled_iff spellsInteger_iff v

theorem exists_spellsFloat_iff (v : Json) : (∃ x, v.SpellsFloat x) ↔ ∃ n, v = .number n :=
  exists_spelled_iff spellsFloat_iff v

theorem exists_spellsText_iff (v : Json) : (∃ s, v.SpellsText s) ↔ ∃ s, v = .string s :=
  exists_congr fun s ↦ spellsText_iff v s

theorem exists_spellsOrigin_iff (v : Json) :
    (∃ origin, v.SpellsOrigin origin) ↔ ItemField.origin.Admits v := by
  constructor
  · rintro ⟨origin, hspells⟩
    cases hspells with
    | viewport | pointer | handle => exact .inl ⟨_, rfl⟩
    | reference hrefers => exact .inr ⟨_, rfl, Reference.exists_handle?_eq_some.1 ⟨_, hrefers⟩⟩
  · rintro (⟨s, rfl⟩ | ⟨members, rfl, hmember⟩)
    · exact ⟨_, ItemReader.spellsOrigin_originNamed s⟩
    · obtain ⟨handle, hrefers⟩ := Reference.exists_handle?_eq_some.2 hmember
      exact ⟨_, .reference hrefers⟩

/-- The fields of a value that spell an item fit its type. -/
theorem SpellsFields.fits {item : Item} (hspells : v.SpellsFields item) :
    ∀ field ∈ item.type.fields, v.Fits field := by
  cases item with
  | pause | pointerDown | pointerUp =>
    exact List.forall_mem_singleton.2
      ((exists_rel_value?_iff exists_spellsInteger_iff).1 ⟨_, hspells⟩)
  | keyDown | keyUp =>
    exact List.forall_mem_singleton.2
      ((exists_rel_value?_iff exists_spellsText_iff).1 ⟨_, hspells⟩)
  | pointerCancel => exact List.forall_mem_nil _
  | pointerMove move =>
    obtain ⟨hduration, ⟨named, hnamed, -⟩, hx, hy, hpressure, hsize⟩ := hspells
    simp only [ItemType.fields, Item.type, List.forall_mem_cons]
    exact ⟨(exists_rel_value?_iff exists_spellsInteger_iff).1 ⟨_, hduration⟩,
      (exists_rel_value?_iff exists_spellsOrigin_iff).1 ⟨_, hnamed⟩,
      (exists_rel_value?_iff exists_spellsFloat_iff).1 ⟨_, hx⟩,
      (exists_rel_value?_iff exists_spellsFloat_iff).1 ⟨_, hy⟩,
      (exists_rel_value?_iff exists_spellsFloat_iff).1 ⟨_, hpressure⟩,
      (exists_rel_value?_iff exists_spellsFloat_iff).1 ⟨_, hsize⟩, List.forall_mem_nil _⟩

/-- Fields that fit a type spell an item of it. -/
theorem exists_spellsFields_of_fits {type : ItemType}
    (hfits : ∀ field ∈ type.fields, v.Fits field) :
    ∃ item : Item, item.type = type ∧ v.SpellsFields item := by
  cases type with
  | pause =>
    obtain ⟨duration, hduration⟩ :=
      (exists_rel_value?_iff exists_spellsInteger_iff).2 (List.forall_mem_singleton.1 hfits)
    exact ⟨.pause duration, rfl, hduration⟩
  | pointerDown =>
    obtain ⟨button, hbutton⟩ :=
      (exists_rel_value?_iff exists_spellsInteger_iff).2 (List.forall_mem_singleton.1 hfits)
    exact ⟨.pointerDown button, rfl, hbutton⟩
  | pointerUp =>
    obtain ⟨button, hbutton⟩ :=
      (exists_rel_value?_iff exists_spellsInteger_iff).2 (List.forall_mem_singleton.1 hfits)
    exact ⟨.pointerUp button, rfl, hbutton⟩
  | pointerMove =>
    simp only [ItemType.fields, List.forall_mem_cons] at hfits
    obtain ⟨hduration, horigin, hx, hy, hpressure, hsize, -⟩ := hfits
    obtain ⟨duration, hduration⟩ := (exists_rel_value?_iff exists_spellsInteger_iff).2 hduration
    obtain ⟨origin, horigin⟩ := (exists_rel_value?_iff exists_spellsOrigin_iff).2 horigin
    obtain ⟨x, hx⟩ := (exists_rel_value?_iff exists_spellsFloat_iff).2 hx
    obtain ⟨y, hy⟩ := (exists_rel_value?_iff exists_spellsFloat_iff).2 hy
    obtain ⟨pressure, hpressure⟩ := (exists_rel_value?_iff exists_spellsFloat_iff).2 hpressure
    obtain ⟨size, hsize⟩ := (exists_rel_value?_iff exists_spellsFloat_iff).2 hsize
    exact ⟨.pointerMove ⟨duration, origin.getD .viewport, x, y, pressure, size⟩, rfl,
      hduration, ⟨origin, horigin, rfl⟩, hx, hy, hpressure, hsize⟩
  | pointerCancel => exact ⟨.pointerCancel, rfl, trivial⟩
  | keyDown =>
    obtain ⟨value, hvalue⟩ :=
      (exists_rel_value?_iff exists_spellsText_iff).2 (List.forall_mem_singleton.1 hfits)
    exact ⟨.keyDown value, rfl, hvalue⟩
  | keyUp =>
    obtain ⟨value, hvalue⟩ :=
      (exists_rel_value?_iff exists_spellsText_iff).2 (List.forall_mem_singleton.1 hfits)
    exact ⟨.keyUp value, rfl, hvalue⟩

theorem exists_spells_iff : (∃ item, v.Spells item) ↔ v.IsItem := by
  unfold IsItem
  constructor
  · rintro ⟨item, htype, hspells⟩
    exact ⟨item.type, bind_string?_eq_some.1 htype, hspells.fits⟩
  · rintro ⟨type, htype, hfits⟩
    obtain ⟨item, rfl, hspells⟩ := exists_spellsFields_of_fits hfits
    exact ⟨item, bind_string?_eq_some.2 htype, hspells⟩

theorem exists_spellsSource_iff : (∃ s, v.SpellsSource s) ↔ v.IsSource := by
  constructor
  · rintro ⟨s, hid, hkind, htype, values, hvalues, hitems⟩
    refine ⟨⟨s.id, bind_string?_eq_some.1 hid⟩, ⟨s.kind, bind_string?_eq_some.1 hkind⟩, ?_,
      values, bind_items?_eq_some.1 hvalues, fun w hw ↦ ?_⟩
    · intro parameters hparameters named hnamed
      rw [hparameters, Option.bind_some, hnamed, eq_comm, Option.map_eq_some_iff] at htype
      obtain ⟨type, -, htype⟩ := htype
      exact ⟨type, htype.symm⟩
    · exact exists_spells_iff.1 (exists_forall₂_iff.1 ⟨s.items, hitems⟩ w hw)
  · rintro ⟨⟨id, hid⟩, ⟨kind, hkind⟩, htype, values, hvalues, hitems⟩
    obtain ⟨items, hitems⟩ := exists_forall₂_iff.2 fun w hw ↦ exists_spells_iff.2 (hitems w hw)
    have htype : ∃ type : Option PointerType,
        (v.member? "parameters").bind (member? "pointerType") =
          type.map fun type ↦ .string type.name := by
      cases hnamed : (v.member? "parameters").bind (member? "pointerType") with
      | none => exact ⟨none, rfl⟩
      | some named =>
        obtain ⟨parameters, hparameters, hnamed⟩ := Option.bind_eq_some_iff.1 hnamed
        obtain ⟨type, rfl⟩ := htype parameters hparameters named hnamed
        exact ⟨some type, rfl⟩
    obtain ⟨type, htype⟩ := htype
    exact ⟨⟨id, kind, type, items⟩, bind_string?_eq_some.2 hid, bind_string?_eq_some.2 hkind, htype,
      values, bind_items?_eq_some.2 hvalues, hitems⟩

end Json

namespace Source

/-- Exactly the arrays of sources are read, and the sources that are read are spelled by the values of
the array and their items by the values of their arrays, one to one and in order. -/
theorem exists_readAll_iff (v : Json) :
    ((∃ sources, readAll v = .ok sources) ↔
      ∃ values, v = .array values ∧ ∀ w ∈ values, w.IsSource) ∧
    ∀ sources, readAll v = .ok sources ↔
      ∃ values, v = .array values ∧ List.Forall₂ Json.SpellsSource values sources := by
  refine ⟨?_, fun sources ↦ readAll_eq_ok⟩
  simp only [readAll_eq_ok]
  constructor
  · rintro ⟨sources, values, rfl, hspells⟩
    exact ⟨values, rfl, fun w hw ↦
      Json.exists_spellsSource_iff.1 (exists_forall₂_iff.1 ⟨sources, hspells⟩ w hw)⟩
  · rintro ⟨values, rfl, hsources⟩
    obtain ⟨sources, hspells⟩ :=
      exists_forall₂_iff.2 fun w hw ↦ Json.exists_spellsSource_iff.2 (hsources w hw)
    exact ⟨sources, values, rfl, hspells⟩

end Source

end ActionReplay
