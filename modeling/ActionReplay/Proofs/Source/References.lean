import ActionReplay.Proofs.Source.Grammar
import ActionReplay.Proofs.Table
import ActionReplay.Proofs.Text.Compared

/-!
# Which member gives the handle

A reference key can be told by its octets alone: the first seven of them spell the word for an element, up to
the case of ASCII letters (`isReferenceKey_iff_begins`). The word ends between two characters, so a key is
told by its text before the eighth octet, and a key that has none there refers to nothing (`cuts`).

A member refers to an element if it has a reference key and is not null. One of the referring members comes
before all others in the order of octets (`Leads`), which is the order in which an object holds its keys, and
this one gives the handle (`handle?_eq_some_iff`). Nothing else in the object has a part in it: two objects
with the same referring members give the same handle (`handle?_congr`), so members that do not refer may come
and go (`answers_ofList`).
-/

set_option autoImplicit false
set_option relaxedAutoImplicit false

namespace ActionReplay.Reference

/-! ### Reference keys -/

/-- Octets that spell the word for an element, up to the case of ASCII letters. -/
def SpellsElement (head : List UInt8) : Prop :=
  head.map UInt8.toAsciiLower = Text.encode "element"

instance (head : List UInt8) : Decidable (SpellsElement head) :=
  inferInstanceAs (Decidable (_ = _))

/-- A key whose first seven octets spell the word. -/
def BeginsElement (key : String) : Prop :=
  SpellsElement ((Text.encode key).take 7)

variable {key : String}

theorem SpellsElement.length_eq {head : List UInt8} (hspells : SpellsElement head) : head.length = 7 := by
  rw [← List.length_map UInt8.toAsciiLower, hspells]
  rfl

theorem isElementKey_iff_begins : IsElementKey key ↔ BeginsElement key := by
  have hstarts : BeginsElement key ↔ Text.encode "element" <+: Text.encode (key.map Char.toLower) := by
    rw [BeginsElement, SpellsElement, List.map_take, Text.map_toAsciiLower_encode,
      List.prefix_iff_eq_take, eq_comm]
    rfl
  rw [hstarts, Text.encode_prefix_iff, String.toList_map, List.prefix_map_iff]
  exact exists_congr fun head ↦ and_congr_right fun _ ↦ eq_comm

theorem isReferenceKey_iff_begins : isReferenceKey key ↔ BeginsElement key :=
  isReferenceKey_iff.trans isElementKey_iff_begins

theorem begins_iff_exists : BeginsElement key ↔
    ∃ head, Text.before? 7 key = some head ∧ SpellsElement (Text.encode head) := by
  constructor
  · intro hbegins
    obtain ⟨head, ⟨rest, hrest⟩, hletters⟩ := isElementKey_iff_begins.2 hbegins
    have hword : (String.ofList head).map Char.toLower = "element" := by
      rw [← String.toList_inj, String.toList_map, String.toList_ofList, hletters]
    have hspells : SpellsElement (Text.encode (String.ofList head)) := by
      rw [SpellsElement, Text.map_toAsciiLower_encode, hword]
    refine ⟨String.ofList head, Text.before?_eq_some.2 ⟨?_, String.ofList rest, ?_⟩, hspells⟩
    · rw [← Text.length_encode, hspells.length_eq]
    · rw [← String.ofList_append, hrest, String.ofList_toList]
  · rintro ⟨head, hhead, hspells⟩
    obtain ⟨-, rest, rfl⟩ := Text.before?_eq_some.1 hhead
    rw [BeginsElement, Text.encode_append, List.take_left' hspells.length_eq]
    exact hspells

theorem not_begins_of_before?_eq_none (hnone : Text.before? 7 key = none) : ¬BeginsElement key := by
  rw [begins_iff_exists, hnone]
  rintro ⟨head, hhead, -⟩
  cases hhead

/-- A key is told by its text before the eighth octet. A short key has no such text, and neither has a key
with a character that stands across the end of the seventh. -/
structure Cuts (key : String) : Prop where
  isReferenceKey_eq : isReferenceKey key =
    (Text.before? 7 key).any fun head ↦ decide (SpellsElement (Text.encode head))
  short : key.utf8ByteSize < 7 → Text.before? 7 key = none ∧ ¬BeginsElement key
  across : ∀ before c after, key = before ++ String.singleton c ++ after →
    before.utf8ByteSize < 7 → 7 < before.utf8ByteSize + c.utf8Size →
      Text.before? 7 key = none ∧ ¬BeginsElement key

theorem cuts (key : String) : Cuts key where
  isReferenceKey_eq := by
    rw [Bool.eq_iff_iff, isReferenceKey_iff_begins, begins_iff_exists, Option.any_eq_true]
    exact exists_congr fun head ↦ and_congr_right fun _ ↦ decide_eq_true_iff.symm
  short := by
    intro hshort
    have hnone := Text.before?_past hshort
    exact ⟨hnone, not_begins_of_before?_eq_none hnone⟩
  across := by
    rintro before c after rfl hstart hend
    have hnone : Text.before? 7 (before ++ String.singleton c ++ after) = none :=
      Text.before?_within hstart hend
    exact ⟨hnone, not_begins_of_before?_eq_none hnone⟩

/-! ### Referring members -/

/-- A member that refers to an element. -/
def Refers (member : String × Json) : Prop :=
  BeginsElement member.1 ∧ member.2 ≠ .null

/-- The handle that a value spells: a string as it is, any other value by its compact text. -/
def handleOf (v : Json) : String :=
  v.string?.getD v.compact

/-- A referring member with no other before it in the order of octets. -/
structure Leads (member : String × Json) (members : List (String × Json)) : Prop where
  mem : member ∈ members
  refers : Refers member
  least : ∀ other ∈ members, Refers other → Text.encode member.1 ≤ Text.encode other.1

variable {members others : Table String Json} {member other : String × Json} {handle : String}

theorem handleOfMember?_eq_some {v : Json} :
    handleOfMember? key v = some handle ↔ Refers (key, v) ∧ handle = handleOf v := by
  dsimp only [handleOfMember?, Refers]
  rw [← isReferenceKey_iff_begins, eq_comm (a := handle)]
  split_ifs with hkey
  · cases v with
    | null => simp
    | bool | number | string | array | object => simp [hkey, handleOf, Json.string?]
  · simp [hkey]

theorem exists_handle?_iff :
    (∃ handle, handle? members = some handle) ↔ ∃ member ∈ members, Refers member := by
  rw [exists_handle?_eq_some]
  simp only [isElementKey_iff_begins]
  rfl

theorem Leads.of_same (hleads : Leads member members)
    (hsame : ∀ other, Refers other → (other ∈ members ↔ other ∈ others)) : Leads member others where
  mem := (hsame member hleads.refers).1 hleads.mem
  refers := hleads.refers
  least := fun other hother hrefers ↦ hleads.least other ((hsame other hrefers).2 hother) hrefers

/-- Assumes: members in the order of their keys. -/
theorem Leads.unique (hleads : Leads member members) (hascending : members.Ascending)
    (hother : Leads other members) : member = other := by
  have hle := Text.encode_le_encode_iff.1 (hleads.least other hother.mem hother.refers)
  have hge := Text.encode_le_encode_iff.1 (hother.least member hleads.mem hleads.refers)
  exact Table.eq_of_mem hascending hleads.mem hother.mem (String.le_antisymm hle hge)

/-- Assumes: members in the order of their keys. The first member that gives a handle leads, because keys in
order are octets in order. -/
theorem exists_leads_of_handle? (hascending : members.Ascending)
    (hhandle : handle? members = some handle) :
    ∃ member, Leads member members ∧ handle = handleOf member.2 := by
  obtain ⟨before, member, after, rfl, hmember, hbefore⟩ := List.findSome?_eq_some_iff.1 hhandle
  obtain ⟨hrefers, hvalue⟩ := handleOfMember?_eq_some.1 hmember
  have hbehind := (List.pairwise_cons.1 (List.pairwise_append.1 hascending).2.1).1
  refine ⟨member, ⟨List.mem_append_right _ List.mem_cons_self, hrefers, fun other hother hothers ↦ ?_⟩,
    hvalue⟩
  rw [Text.encode_le_encode_iff]
  rcases List.mem_append.1 hother with hearlier | hlater
  · have hnone : handleOfMember? other.1 other.2 = none := hbefore other hearlier
    rw [handleOfMember?_eq_some.2 ⟨hothers, rfl⟩] at hnone
    cases hnone
  · rcases List.mem_cons.1 hlater with rfl | hlater
    · exact String.le_refl _
    · exact String.lt_asymm (hbehind other hlater)

/-- Assumes: members in the order of their keys. -/
theorem handle?_eq_some_iff (hascending : members.Ascending) :
    handle? members = some handle ↔ ∃ member, Leads member members ∧ handle = handleOf member.2 := by
  refine ⟨exists_leads_of_handle? hascending, ?_⟩
  rintro ⟨member, hleads, rfl⟩
  obtain ⟨found, hfound⟩ := exists_handle?_iff.2 ⟨member, hleads.mem, hleads.refers⟩
  obtain ⟨other, hother, rfl⟩ := exists_leads_of_handle? hascending hfound
  rw [hfound, hother.unique hascending hleads]

/-- Assumes: two objects with members in the order of their keys. Members that do not refer have no part in
the handle. -/
theorem handle?_congr (hascending : members.Ascending) (hothers : others.Ascending)
    (hsame : ∀ member, Refers member → (member ∈ others ↔ member ∈ members)) :
    handle? others = handle? members := by
  refine Option.ext fun handle ↦ ?_
  rw [handle?_eq_some_iff hascending, handle?_eq_some_iff hothers]
  refine exists_congr fun member ↦ and_congr_left fun _ ↦ ⟨fun hleads ↦ ?_, fun hleads ↦ ?_⟩
  · exact hleads.of_same hsame
  · exact hleads.of_same fun other hrefers ↦ (hsame other hrefers).symm

/-! ### Objects -/

/-- What the handle of an object is, and what has no part in it. -/
structure Answers (members : List (String × Json)) : Prop where
  exists_iff : (∃ handle, handle? members = some handle) ↔ ∃ member ∈ members, Refers member
  eq_some_iff : ∀ handle, handle? members = some handle ↔
    ∃ member, Leads member members ∧ handle = handleOf member.2
  insert : ∀ key v, key ∉ Table.keys members → ¬Refers (key, v) →
    handle? (Table.insert key v members) = handle? members
  erase : ∀ member ∈ members, ¬Refers member → handle? (Table.erase member.1 members) = handle? members
  congr : ∀ others, Table.Ascending others →
    (∀ member, Refers member → (member ∈ others ↔ member ∈ members)) → handle? others = handle? members

/-- Assumes: members in the order of their keys. -/
theorem answers_of_ascending (hascending : members.Ascending) : Answers members where
  exists_iff := exists_handle?_iff
  eq_some_iff := fun _ ↦ handle?_eq_some_iff hascending
  insert := by
    intro key v hnew hnot
    refine handle?_congr hascending (Table.ascending_insert hascending key v) fun member hrefers ↦ ?_
    have hne : member ≠ (key, v) := by
      rintro rfl
      exact hnot hrefers
    rw [Table.mem_insert_iff hnew, or_iff_right hne]
  erase := by
    intro member hmem hnot
    refine handle?_congr hascending (hascending.erase member.1) fun other hrefers ↦ ?_
    have hne : other ≠ member := by
      rintro rfl
      exact hnot hrefers
    rw [Table.mem_erase_iff hascending hmem, and_iff_left hne]
  congr := fun _ hothers ↦ handle?_congr hascending hothers

/-- The members of an object arrive in any order, and of two with one key the later counts. Every object
answers with its referring member of the least key, and every key is told by a cut that may find nothing. -/
theorem answers_ofList (entries : List (String × Json)) :
    Answers (Table.ofList entries) ∧ ∀ key, Cuts key :=
  ⟨answers_of_ascending (Table.ascending_ofList entries), cuts⟩

/-- A null is passed over, and capital letters come before small ones. -/
example : handle? (Table.ofList [("element", .string "last"), ("Element-Id", .bool true), ("ELEMENT", .null),
    ("elément", .string "other"), ("ele", .string "short")]) = some "true" := by
  decide

end ActionReplay.Reference
