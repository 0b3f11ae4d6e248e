import ActionReplay.Proofs.Timeline.Pointers
import ActionReplay.Proofs.Timeline.Recorded

/-!
# The chains of keys

The key cues of a timeline are those of the items of its key sources (`Timeline.keysAt_of_ofSources`): at
every tick, source by source and item by item, a press that enters a chain, or a release that belongs to
the chain before it (`Source.keyCue?`). That chain was entered by the last key item before the release,
whichever its key (`Source.exists_entered`). So a release belongs to the chain of the press that its own key
has been held since (`Source.HoldsKey`) exactly if no other key of the source has gone down or up at a later
tick in between (`Source.entryAt_eq_iff`, `Timeline.entry_iff_of_compile`). Of two keys
that go down together and up together, the second release does not (`Timeline.not_entry_chord`).
-/

set_option autoImplicit false
set_option relaxedAutoImplicit false

namespace ActionReplay

variable {locate : Locator} {s : Source} {sources : List Source} {place : Nat} {item : Item}

/-! ### Key items -/

namespace Item

/-- The code point of a key value: that of its first character. -/
def valueCode? (value : Option String) : Option UInt32 :=
  value.bind fun text ↦ text.toList.head?.map Char.val

/-- The code point of the key that an item presses or releases. -/
def keyCode? : Item → Option UInt32
  | .keyDown value | .keyUp value => valueCode? value
  | _ => none

theorem valueCode?_eq {value : String} {first : Char} {rest : List Char}
    (hvalue : value.toList = first :: rest) : valueCode? (some value) = some first.val := by
  rw [valueCode?, Option.bind_some, hvalue]
  rfl

end Item

namespace Source

/-- The key cue that the item at a place makes, if it makes one. -/
def keyCue? (s : Source) (place : Nat) : Item → Option KeyCue
  | .keyDown value => (Item.valueCode? value).map fun codePoint ↦
      { entry := s.tickAt place, action := .down, codePoint }
  | .keyUp value => (Item.valueCode? value).map fun codePoint ↦
      { entry := s.entryAt place, action := .up, codePoint }
  | _ => none

/-- The key cues of the items that are carried out at a tick, in order. -/
def keyCuesAt (s : Source) (tick : Tick) : List KeyCue :=
  s.items.zipIdx.filterMap fun (item, place) ↦
    if s.tickAt place = tick then s.keyCue? place item else none

end Source

/-! ### Cues -/

namespace Booking

/-- The key cue that a booking puts at a tick. -/
def keyAt? (tick : Tick) (booking : Booking) : Option KeyCue :=
  (booking.cueAt? tick).bind Cue.key?

theorem key?_cuesAt (bookings : List Booking) (tick : Tick) :
    (cuesAt bookings tick).filterMap Cue.key? = bookings.filterMap (keyAt? tick) :=
  List.filterMap_filterMap

theorem keyAt?_key (reached tick : Tick) (cue : KeyCue) :
    (Booking.key reached cue).keyAt? tick = if reached = tick then some cue else none := by
  unfold keyAt? cueAt? Booking.key
  split_ifs with htick
  · rfl
  · rfl

theorem keyAt?_motion (reached tick : Tick) (cue : MotionCue) :
    (Booking.motion reached cue).keyAt? tick = none := by
  unfold keyAt? cueAt? Booking.motion
  split_ifs with htick
  · rfl
  · rfl

end Booking

namespace Source

/-- What is recorded for an item is its key cue, if it has one, and otherwise motions. -/
theorem Records.keyAt? {records : List Booking} (hrecords : s.Records locate place item records)
    (tick : Tick) :
    records.filterMap (Booking.keyAt? tick) =
      (if s.tickAt place = tick then s.keyCue? place item else none).toList := by
  have hnone : (if s.tickAt place = tick then (none : Option KeyCue) else none) = none := ite_self none
  cases hrecords with
  | pause | still | brief => exact congrArg Option.toList hnone.symm
  | keyDown hvalue =>
    rw [keyCue?, Item.valueCode?_eq hvalue, List.filterMap_eq_flatMap_toList, List.flatMap_singleton,
      Booking.keyAt?_key]
    rfl
  | keyUp hvalue =>
    rw [keyCue?, Item.valueCode?_eq hvalue, List.filterMap_eq_flatMap_toList, List.flatMap_singleton,
      Booking.keyAt?_key]
    rfl
  | down | up =>
    rw [List.filterMap_eq_flatMap_toList, List.flatMap_singleton, Booking.keyAt?_motion]
    exact congrArg Option.toList hnone.symm
  | drag =>
    refine Eq.trans ?_ (congrArg Option.toList hnone.symm)
    split_ifs with hshows
    · simp [List.filterMap_map, Booking.keyAt?_motion]
    · simp [List.filterMap_map, Booking.keyAt?_motion]
  | hover =>
    refine Eq.trans ?_ (congrArg Option.toList hnone.symm)
    simp [List.filterMap_map, Booking.keyAt?_motion]

theorem Tells.key?_cuesAt {items : List Item} {bookings : List Booking}
    (htells : s.Tells locate place items bookings) (tick : Tick) :
    (Booking.cuesAt bookings tick).filterMap Cue.key? =
      (items.zipIdx place).filterMap fun (item, place) ↦
        if s.tickAt place = tick then s.keyCue? place item else none := by
  obtain ⟨told, hrecords, htold⟩ := htells
  rw [htold, Booking.key?_cuesAt, List.filterMap_eq_flatMap_toList _ (items.zipIdx place)]
  clear htold
  generalize items.zipIdx place = placed at hrecords
  induction hrecords with
  | nil => rfl
  | cons hfirst hrest ih =>
    rw [List.flatten_cons, List.filterMap_append, hfirst.keyAt?, ih, List.flatMap_cons]

end Source

namespace Timeline

/-- The key cues at a tick. -/
def keysAt (t : Timeline) (tick : Tick) : List KeyCue :=
  (t.cuesAt tick).filterMap Cue.key?

/-- The key cues of a timeline are those of the items of its key sources, source by source. -/
theorem keysAt_of_ofSources {t : Timeline} (ht : ofSources locate sources = .ok t) (tick : Tick) :
    t.keysAt tick = (Source.ofKind sources .key).flatMap fun s ↦ s.keyCuesAt tick := by
  obtain ⟨track, hsolo, rfl⟩ := exists_track_of_ofSources ht
  obtain ⟨together, htogether, hjoins⟩ := cuesAt_orderedTracks hsolo tick
  have hrests : ∀ s ∈ Source.ofKind sources .none,
      (Booking.cuesAt (track s) tick).filterMap Cue.key? = [] := by
    intro s hs
    obtain ⟨hmem, hkind⟩ := Source.mem_ofKind.1 hs
    have htrack : s.restTrack = .ok (track s) := by
      simpa only [Source.soloTrack, hkind] using hsolo s hmem
    rw [Booking.key?_cuesAt, List.filterMap_eq_nil_iff]
    intro booking hbooking
    rw [Booking.keyAt?, Booking.cueAt?, Source.cue_restTrack htrack booking hbooking, ite_self]
    rfl
  have hkeys : ∀ s ∈ Source.ofKind sources .key,
      (Booking.cuesAt (track s) tick).filterMap Cue.key? = s.keyCuesAt tick := fun s hs ↦
    (Source.tells_soloTrack (hsolo s (Source.mem_ofKind.1 hs).1)).key?_cuesAt tick
  have hpointers : together.flatten.filterMap Cue.key? = [] := by
    rw [List.filterMap_eq_nil_iff]
    intro cue hcue
    obtain ⟨cues, hcues, hmem⟩ := List.mem_flatten.1 hcue
    obtain ⟨x, -, hjoined⟩ := exists_mem_left_of_forall₂ hjoins hcues
    obtain ⟨booked, -, hcue⟩ := exists_mem_left_of_forall₂ hjoined hmem
    cases booked with
    | key => exact hcue.elim
    | motion =>
      cases cue with
      | key => exact hcue.elim
      | motion => rfl
  rw [keysAt, htogether, List.filterMap_append, hpointers, List.append_nil, List.filterMap_flatMap,
    List.flatMap_append, List.flatMap_congr hrests, List.flatMap_congr hkeys,
    List.flatMap_eq_nil_iff.2 fun _ _ ↦ rfl, List.nil_append]

end Timeline

/-! ### Chains -/

namespace Source

theorem tickAt_mono (s : Source) : Monotone s.tickAt := by
  refine monotone_nat_of_le_succ fun place ↦ ?_
  rw [tickAt, tickAt, List.take_add_one, Item.spans_append]
  exact Nat.le_add_right _ _

/-- Another chain is entered with the item at a place. -/
def EntersAt (s : Source) (place : Nat) : Prop :=
  s.items[place]?.any Item.enters = true

theorem entryAt_succ_of_entersAt (henters : s.EntersAt place) :
    s.entryAt (place + 1) = s.tickAt place :=
  if_pos henters

theorem entryAt_succ_of_not_entersAt (hstays : ¬s.EntersAt place) :
    s.entryAt (place + 1) = s.entryAt place :=
  if_neg hstays

/-- Assumes: a chain is entered before a place. What is recorded there belongs to the chain that was
entered last. -/
theorem exists_entered {pressed : Nat} (henters : s.EntersAt pressed) (hlt : pressed < place) :
    ∃ last, pressed ≤ last ∧ last < place ∧ s.EntersAt last ∧
      (∀ between, last < between → between < place → ¬s.EntersAt between) ∧
      s.entryAt place = s.tickAt last := by
  induction place with
  | zero => exact absurd hlt (Nat.not_lt_zero pressed)
  | succ place ih =>
    by_cases hlast : s.EntersAt place
    · exact ⟨place, Nat.le_of_lt_succ hlt, Nat.lt_succ_self place, hlast,
        fun _ hafter hbefore ↦ absurd (Nat.le_of_lt_succ hbefore) (Nat.not_le_of_lt hafter),
        entryAt_succ_of_entersAt hlast⟩
    · have hne : pressed ≠ place := fun hsame ↦ hlast (hsame ▸ henters)
      obtain ⟨last, hle, hbefore, hentered, hnone, hentry⟩ :=
        ih (lt_of_le_of_ne (Nat.le_of_lt_succ hlt) hne)
      refine ⟨last, hle, Nat.lt_succ_of_lt hbefore, hentered, fun between hafter hbetween ↦ ?_,
        (entryAt_succ_of_not_entersAt hlast).trans hentry⟩
      obtain hbetween | rfl := Nat.lt_succ_iff_lt_or_eq.1 hbetween
      · exact hnone between hafter hbetween
      · exact hlast

/-- Assumes: a chain is entered before a place. What is recorded there carries its tick exactly if every
chain entered in between was entered at that tick. -/
theorem entryAt_eq_iff {pressed : Nat} (henters : s.EntersAt pressed) (hlt : pressed < place) :
    s.entryAt place = s.tickAt pressed ↔ ∀ between, pressed < between → between < place →
      s.EntersAt between → s.tickAt between = s.tickAt pressed := by
  obtain ⟨last, hle, hbefore, hentered, hnone, hentry⟩ := exists_entered henters hlt
  rw [hentry]
  constructor
  · intro hsame between hafter hbetween henters
    have hearlier : between ≤ last := by
      by_contra hlater
      exact hnone between (not_le.1 hlater) hbetween henters
    exact le_antisymm (hsame ▸ s.tickAt_mono hearlier) (s.tickAt_mono hafter.le)
  · intro hall
    obtain rfl | hafter := hle.eq_or_lt
    · rfl
    · exact hall last hafter hbefore hentered

/-- A key goes down with the item at a place, and it neither goes down nor up again before another
place. -/
structure HoldsKey (s : Source) (code : UInt32) (pressed place : Nat) : Prop where
  order : pressed < place
  press : ∃ value, s.items[pressed]? = some (.keyDown value) ∧ Item.valueCode? value = some code
  since : ∀ between item, pressed < between → between < place →
    s.items[between]? = some item → item.keyCode? ≠ some code

theorem HoldsKey.entersAt {code : UInt32} {pressed : Nat} (hholds : s.HoldsKey code pressed place) :
    s.EntersAt pressed := by
  obtain ⟨value, hitem, -⟩ := hholds.press
  rw [EntersAt, hitem]
  rfl

end Source

namespace Timeline

/-- Assumes: a payload that compiles. Its key cues are those of the items of its key sources. The release of
a key that has been held since a press carries the tick of that press if and only if no key of the source
has gone down or up in between at a later tick. -/
theorem entry_iff_of_compile {actions : Json} {t : Timeline}
    (ht : compile locate actions = .ok t)
    (hread : (Source.readAll actions >>= Source.accept) = .ok sources) :
    (∀ tick, t.keysAt tick = (Source.ofKind sources .key).flatMap fun s ↦ s.keyCuesAt tick) ∧
      ∀ s ∈ Source.ofKind sources .key, ∀ code pressed place value,
        s.HoldsKey code pressed place → s.items[place]? = some (.keyUp value) →
          Item.valueCode? value = some code →
            ∃ cue, s.keyCue? place (.keyUp value) = some cue ∧
              cue ∈ t.keysAt (s.tickAt place) ∧ cue.action = .up ∧ cue.codePoint = code ∧
                (cue.entry = s.tickAt pressed ↔
                  ∀ between, pressed < between → between < place → s.EntersAt between →
                    s.tickAt between = s.tickAt pressed) := by
  rw [compile_eq_of_read hread] at ht
  have hkeys := keysAt_of_ofSources ht
  refine ⟨hkeys, ?_⟩
  intro s hs code pressed place value hholds hitem hvalue
  have hcue : s.keyCue? place (.keyUp value) =
      some { entry := s.entryAt place, action := .up, codePoint := code } := by
    rw [Source.keyCue?, hvalue]
    rfl
  refine ⟨_, hcue, ?_, rfl, rfl, Source.entryAt_eq_iff hholds.entersAt hholds.order⟩
  rw [hkeys]
  refine List.mem_flatMap.2 ⟨s, hs, List.mem_filterMap.2 ⟨(.keyUp value, place), ?_, ?_⟩⟩
  · exact List.mk_mem_zipIdx_iff_getElem?.2 hitem
  · exact (if_pos rfl).trans hcue

/-- A key with a value that is pressed or released. -/
def keyItem (type : ItemType) (value : String) : Json :=
  .object [("type", .string type.name), ("value", .string value)]

/-- Two letters that go down together, and up together after two quanta. -/
def chord : Json :=
  .array [.object [("id", .string "k"), ("type", .string SourceKind.key.name), ("actions", .array [
    keyItem .keyDown "a", keyItem .keyDown "b", Json.item .pause [(.duration, 10)],
    keyItem .keyUp "a", keyItem .keyUp "b"])]]

/-- The chord as it is read. -/
def chordSource : Source :=
  { id := "k"
    kind := .key
    pointerType := none
    items := [.keyDown (some "a"), .keyDown (some "b"), .pause (some 10), .keyUp (some "a"),
      .keyUp (some "b")] }

theorem read_chord : (Source.readAll chord >>= Source.accept) = .ok [chordSource] := rfl

theorem holdsKey_chord : chordSource.HoldsKey 0x61 0 3 ∧ chordSource.HoldsKey 0x62 1 4 := by
  refine ⟨⟨by decide, ⟨_, rfl, rfl⟩, ?_⟩, ⟨by decide, ⟨_, rfl, rfl⟩, ?_⟩⟩
  · intro between item hafter hbefore hitem
    obtain rfl | rfl : between = 1 ∨ between = 2 := by omega
    · cases hitem
      decide
    · cases hitem
      decide
  · intro between item hafter hbefore hitem
    obtain rfl | rfl : between = 2 ∨ between = 3 := by omega
    · cases hitem
      decide
    · cases hitem
      decide

theorem keysAt_chord {t : Timeline} (ht : compile (fun _ ↦ none) chord = .ok t) :
    t.keysAt 10 = [⟨0, .up, 0x61⟩, ⟨10, .up, 0x62⟩] := by
  have hkeys : (compile (fun _ ↦ none) chord).toOption.map (fun t ↦ t.keysAt 10) =
      some [⟨0, .up, 0x61⟩, ⟨10, .up, 0x62⟩] := by
    decide +kernel
  rw [ht] at hkeys
  exact Option.some.inj hkeys

/-- Since the second letter of the chord goes down at the tick of the first, the first is released in its
own chain. -/
theorem entry_chord :
    ∃ t, compile (fun _ ↦ none) chord = .ok t ∧
      (Source.readAll chord >>= Source.accept) = .ok [chordSource] ∧
      chordSource.HoldsKey 0x61 0 3 ∧
      ∃ cue ∈ t.keysAt (chordSource.tickAt 3), cue.action = .up ∧ cue.codePoint = 0x61 ∧
        cue.entry = chordSource.tickAt 0 := by
  have hcompile : ∃ t, compile (fun _ ↦ none) chord = .ok t := ⟨_, rfl⟩
  obtain ⟨t, ht⟩ := hcompile
  obtain ⟨cue, -, hcue, hup, hcode, hentry⟩ := (entry_iff_of_compile ht read_chord).2 chordSource
    List.mem_cons_self 0x61 0 3 (some "a") holdsKey_chord.1 rfl rfl
  refine ⟨t, ht, read_chord, holdsKey_chord.1, cue, hcue, hup, hcode, hentry.2 ?_⟩
  intro between hafter hbefore henters
  obtain rfl | rfl : between = 1 ∨ between = 2 := by omega
  · decide
  · cases henters

/-- The second letter of the chord is released in the chain that the release of the first one entered. -/
theorem not_entry_chord :
    ∃ t, compile (fun _ ↦ none) chord = .ok t ∧
      (Source.readAll chord >>= Source.accept) = .ok [chordSource] ∧
      chordSource.HoldsKey 0x62 1 4 ∧ chordSource.items[4]? = some (.keyUp (some "b")) ∧
      t.keysAt (chordSource.tickAt 4) = [⟨0, .up, 0x61⟩, ⟨10, .up, 0x62⟩] ∧
      chordSource.tickAt 1 = 0 := by
  have hcompile : ∃ t, compile (fun _ ↦ none) chord = .ok t := ⟨_, rfl⟩
  obtain ⟨t, ht⟩ := hcompile
  exact ⟨t, ht, read_chord, holdsKey_chord.2, rfl, keysAt_chord ht, by decide⟩

end Timeline

end ActionReplay
