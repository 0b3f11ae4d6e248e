import ActionReplay.Config.Reading
import ActionReplay.Config.Writing
import ActionReplay.Proofs.Json.Documents
import ActionReplay.Proofs.Success
import ActionReplay.Proofs.Table

/-!
# A configuration comes back from what it is written as

A configuration is written with every field, and read with every field optional, so reading has more to
take than writing has to give. What is written is read back field by field: the extents of an element
(`Bounds.ofDocument?_toJson`), the feeds with their tags (`FeedConfig.ofDocument?_toJson`), and the
elements in the order of their handles, which is the order in which a table keeps them
(`Registry.ofDocument?_toJson`). The value of a configuration holds integers alone, so the text that it is
written as spells this document (`Document.read_compact`), and what was checked once passes the check again.
Every configuration that a loader gives has its elements in order (`Config.ascending_of_ofOctets`), so it
is loaded again from what it is written as (`Config.reloads`).
-/

set_option autoImplicit false
set_option relaxedAutoImplicit false

namespace ActionReplay

/-! ### Documents -/

/-- Assumes: what is written from a single value is read back. So is what is written from a list. -/
theorem mapM_map_eq_some {α β : Type} {write : α → β} {read : β → Option α}
    (hback : ∀ a, read (write a) = some a) (as : List α) : (as.map write).mapM read = some as := by
  have hpure : read ∘ write = fun a ↦ pure (id a) := funext hback
  rw [List.mapM_map, hpure, List.mapM_pure, List.map_id]
  rfl

namespace Document

theorem ofItems_eq_map (items : List Json) : ofItems items = items.map ofJson := by
  induction items with
  | nil => rfl
  | cons v rest ih => rw [ofItems, ih, List.map_cons]

theorem ofMembers_eq_map (members : List (String × Json)) :
    ofMembers members = members.map fun (key, v) ↦ (some key, ofJson v) := by
  induction members with
  | nil => rfl
  | cons member rest ih => rw [ofMembers, ih, List.map_cons]

theorem namedMembers?_ofJson (members : List (String × Json)) :
    (ofJson (.object members)).namedMembers? = some (members.map fun (key, v) ↦ (key, ofJson v)) := by
  rw [ofJson, namedMembers?, ofMembers_eq_map, List.mapM_map]
  exact List.mapM_pure

/-- A signed word is written in one that is twice as wide, which holds the same integer. -/
theorem int32?_ofInt32 (n : Int32) : (ofJson (Json.ofInt32 n)).int32? = some n := by
  have hleast : Int32.minValue.toInt ≤ n.toInt := n.minValue_le_toInt
  have hmost : n.toInt ≤ Int32.maxValue.toInt := n.toInt_le
  rw [Json.ofInt32]
  split_ifs with hnatural
  · have hfits := n.toInt_lt
    have hword : (n.toInt.toNat.toUInt64.toNat : Int) = n.toInt := by
      rw [Nat.toUInt64_eq, UInt64.toNat_ofNat_of_lt' (by change _ < 2 ^ 64; omega),
        Int.toNat_of_nonneg hnatural]
    rw [ofJson, int32?, hword, if_pos hmost, n.ofInt_toInt]
  · rw [ofJson, int32?, n.toInt_toInt64, if_pos ⟨hleast, hmost⟩, n.ofInt_toInt]

end Document

/-! ### Reading back -/

theorem Bounds.ofDocument?_toJson (b : Bounds) : ofDocument? (.ofJson b.toJson) = some b := by
  have hrecord : (Document.ofJson b.toJson).record? ["x", "y", "width", "height"] =
      some ([b.x, b.y, b.width, b.height].map fun n ↦ some (.ofJson (.ofInt32 n))) := rfl
  rw [ofDocument?, hrecord]
  simp [Document.int32?_ofInt32]

/-- Assumes: elements in the order of their handles. -/
theorem Registry.ofDocument?_toJson {r : Registry} (hascending : r.Ascending) :
    ofDocument? (.ofJson (.object (r.map fun (handle, bounds) ↦ (handle, bounds.toJson)))) = some r := by
  rw [ofDocument?, Document.namedMembers?_ofJson, List.map_map, Option.bind_eq_bind, Option.bind_some]
  refine Option.bind_eq_some_iff.2 ⟨r, ?_, ?_⟩
  · refine mapM_map_eq_some (fun entry ↦ ?_) r
    exact congrArg (Option.map fun bounds ↦ (entry.1, bounds)) (Bounds.ofDocument?_toJson entry.2)
  · exact congrArg some (Table.ofList_eq_self hascending)

theorem Registry.ascending_of_ofDocument? {d : Document} {r : Registry} (hread : ofDocument? d = some r) :
    r.Ascending := by
  obtain ⟨members, -, hread⟩ := Option.bind_eq_some_iff.1 hread
  obtain ⟨entries, -, hread⟩ := Option.bind_eq_some_iff.1 hread
  cases hread
  exact Table.ascending_ofList entries

theorem FeedConfig.ofDocument?_toJson (f : FeedConfig) : ofDocument? (.ofJson f.toJson) = some f := by
  cases f with
  | stdin => rfl
  | file path pollMs deleteOnSuccess =>
    cases pollMs with
    | none =>
      cases deleteOnSuccess with
      | none => rfl
      | some b => rfl
    | some ms =>
      cases deleteOnSuccess with
      | none => rfl
      | some b => rfl

namespace Config

theorem feedsOfDocument?_toJson (feeds : List FeedConfig) :
    feedsOfDocument? (.ofJson (.array (feeds.map FeedConfig.toJson))) = some feeds := by
  rw [feedsOfDocument?, Document.ofJson, Document.ofItems_eq_map, List.map_map]
  exact mapM_map_eq_some FeedConfig.ofDocument?_toJson feeds

/-- Assumes: elements in the order of their handles. -/
theorem ofDocument?_toJson {c : Config} (hascending : c.elements.Ascending) :
    ofDocument? (.ofJson c.toJson) = some c := by
  have hrecord : (Document.ofJson c.toJson).record? ["sources", "elements", "dispatch"] =
      some [some (.ofJson (.array (c.feeds.map FeedConfig.toJson))),
        some (.ofJson (.object (c.elements.map fun (handle, bounds) ↦ (handle, bounds.toJson)))),
        some (.ofJson (.object [("pacing", .bool c.pacing)]))] := rfl
  have hpacing : pacingOfDocument? (.ofJson (.object [("pacing", .bool c.pacing)])) = some c.pacing := rfl
  rw [ofDocument?, hrecord]
  simp [Document.withDefault?, feedsOfDocument?_toJson, Registry.ofDocument?_toJson hascending, hpacing]

end Config

/-! ### Spelling -/

theorem Json.isIntegral_ofInt32 (n : Int32) : (ofInt32 n).IsIntegral := by
  rw [ofInt32]
  split_ifs with hnatural
  · trivial
  · change n.toInt64 < 0
    rw [Int64.lt_iff_toInt_lt, n.toInt_toInt64]
    exact Int.not_le.1 hnatural

theorem Bounds.isIntegral_toJson (b : Bounds) : b.toJson.IsIntegral :=
  ⟨Json.isIntegral_ofInt32 b.x, Json.isIntegral_ofInt32 b.y, Json.isIntegral_ofInt32 b.width,
    Json.isIntegral_ofInt32 b.height, trivial⟩

theorem FeedConfig.isIntegral_toJson (f : FeedConfig) : f.toJson.IsIntegral := by
  cases f with
  | stdin => exact ⟨trivial, trivial⟩
  | file path pollMs deleteOnSuccess =>
    refine ⟨trivial, trivial, ?_, ?_, trivial⟩
    · cases pollMs with
      | none => trivial
      | some ms => trivial
    · cases deleteOnSuccess with
      | none => trivial
      | some b => trivial

namespace Config

theorem isIntegral_toJson (c : Config) : c.toJson.IsIntegral := by
  refine ⟨Json.itemsIntegral_iff.2 ?_, Json.membersIntegral_iff.2 ?_, ⟨trivial, trivial⟩, trivial⟩
  · intro v hv
    obtain ⟨f, -, rfl⟩ := List.mem_map.1 hv
    exact f.isIntegral_toJson
  · intro member hmember
    obtain ⟨entry, -, rfl⟩ := List.mem_map.1 hmember
    exact entry.2.isIntegral_toJson

/-! ### Loading -/

theorem eq_of_check {c checked : Config} (hchecked : c.check = .ok checked) : checked = c := by
  obtain ⟨-, -, hrest⟩ := bind_eq_ok.1 hchecked
  obtain ⟨-, -, hsame⟩ := bind_eq_ok.1 hrest
  cases hsame
  rfl

theorem ascending_of_ofDocument? {d : Document} {c : Config} (hread : ofDocument? d = some c) :
    c.elements.Ascending := by
  obtain ⟨fields, -, hread⟩ := Option.bind_eq_some_iff.1 hread
  split at hread
  · rename_i feeds elements dispatch
    obtain ⟨_, -, hread⟩ := Option.bind_eq_some_iff.1 hread
    obtain ⟨r, hr, hread⟩ := Option.bind_eq_some_iff.1 hread
    obtain ⟨_, -, hread⟩ := Option.bind_eq_some_iff.1 hread
    cases hread
    cases elements with
    | none =>
      cases hr
      exact List.Pairwise.nil
    | some d => exact Registry.ascending_of_ofDocument? hr
  · cases hread

theorem ofOctets_eq_ok {malformed : ConfigFault} {octets : List UInt8} {c : Config} :
    ofOctets malformed octets = .ok c ↔
      (Document.read octets).bind ofDocument? = some c ∧ c.check = .ok c := by
  rw [ofOctets]
  cases hread : (Document.read octets).bind ofDocument? with
  | none =>
    constructor
    · intro hloaded
      cases hloaded
    · rintro ⟨hsome, -⟩
      cases hsome
  | some loaded =>
    constructor
    · intro hchecked
      cases eq_of_check hchecked
      exact ⟨rfl, hchecked⟩
    · rintro ⟨hsame, hchecked⟩
      cases hsame
      exact hchecked

theorem ascending_of_ofOctets {malformed : ConfigFault} {octets : List UInt8} {c : Config}
    (hloaded : ofOctets malformed octets = .ok c) : c.elements.Ascending := by
  obtain ⟨d, -, hd⟩ := Option.bind_eq_some_iff.1 (ofOctets_eq_ok.1 hloaded).1
  exact ascending_of_ofDocument? hd

/-- A configuration is loaded again from what it is written as: as a value, as a text, and as the octets
of the text in a stream or a file. -/
structure Reloads (c : Config) : Prop where
  value : (ofDocument? (.ofJson c.toJson)).map check = some (.ok c)
  text : ofText c.toJson.compact = .ok c
  stream : ofStream (Text.encode c.toJson.compact) = .ok c
  openedFile : ∀ path, ofOpenedFile path (some (Text.encode c.toJson.compact)) = .ok c
  readFile : ∀ path, ofReadFile path (some (Text.encode c.toJson.compact)) = .ok c

/-- Assumes: elements in the order of their handles, and a configuration that satisfies every rule. -/
theorem reloads_of_check {c : Config} (hascending : c.elements.Ascending) (hchecked : c.check = .ok c) :
    c.Reloads := by
  have hdocument := ofDocument?_toJson hascending
  have hoctets : ∀ malformed, ofOctets malformed (Text.encode c.toJson.compact) = .ok c := by
    intro malformed
    rw [ofOctets_eq_ok, Document.read_compact c.isIntegral_toJson, Option.bind_some]
    exact ⟨hdocument, hchecked⟩
  exact {
    value := by rw [hdocument, Option.map_some, hchecked]
    text := hoctets .malformedText
    stream := hoctets .malformedStream
    openedFile := fun _ ↦ hoctets .malformedStream
    readFile := fun path ↦ hoctets (.malformedFile path) }

/-- A configuration that satisfies every rule is loaded again from what it is written as, and so is every
configuration that was loaded from some octets. -/
theorem reloads : (∀ c : Config, c.elements.Ascending → c.check = .ok c → c.Reloads) ∧
    ∀ malformed octets c, ofOctets malformed octets = .ok c → c.Reloads :=
  ⟨fun _ ↦ reloads_of_check, fun _ _ _ hloaded ↦
    reloads_of_check (ascending_of_ofOctets hloaded) (ofOctets_eq_ok.1 hloaded).2⟩

/-- Fields that are present and fields that are absent, and an element on both sides of the origin. -/
def partlyFilled : Config where
  feeds := [.file "in" (some 50) none, .stdin, .file "out" none (some true)]
  elements := [("a", { x := -7, y := 0, width := 30, height := 4 }),
    ("b", { x := 0, y := 0, width := 0, height := 0 })]
  pacing := false

/-- What satisfies every rule is loaded again, and so is what was loaded from records without keys. -/
theorem reloads_partlyFilled :
    (partlyFilled.elements.Ascending ∧ partlyFilled.check = .ok partlyFilled ∧ partlyFilled.Reloads) ∧
      ofText "[[[\"file\",\"in\"]]]" = .ok { feeds := [.file "in" none none] } ∧
        Reloads { feeds := [.file "in" none none] } := by
  have hascending : partlyFilled.elements.Ascending := List.pairwise_pair.2 (by decide)
  have hread : Document.read (Text.encode "[[[\"file\",\"in\"]]]") =
      some (.ofJson (.array [.array [.array [.string "file", .string "in"]]])) :=
    Document.read_compact (v := .array [.array [.array [.string "file", .string "in"]]])
      ⟨⟨⟨trivial, trivial, trivial⟩, trivial⟩, trivial⟩
  have hloaded : ofText "[[[\"file\",\"in\"]]]" = .ok { feeds := [.file "in" none none] } := by
    rw [ofText, ofOctets_eq_ok, hread]
    exact ⟨rfl, rfl⟩
  exact ⟨⟨hascending, rfl, reloads.1 _ hascending rfl⟩, hloaded, reloads.2 _ _ _ hloaded⟩

end Config

end ActionReplay
