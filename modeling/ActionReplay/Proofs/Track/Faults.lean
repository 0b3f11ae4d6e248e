import ActionReplay.Proofs.Track.KeyAct
import ActionReplay.Proofs.Track.Playable

/-!
# The faults of tracks

A track ends in one of a few faults, and what a fault tells of an item is true of an item of the source
(`Source.Raises`). This holds for every kind of source (`raises_pointerTrack`, `raises_keyTrackFrom`,
`raises_restTrackFrom`), also for the faults of positions, which may be about an item long before the
one that asks for a position (`raises_positionAfter`). That an item is of no use to the track is only
told of an item that the kind of source may not hold, or of a cancel.

Three faults report an item by the id of its source, its place and its type, and one of them by a
key that it lacks (`Fault.report?`). Such a report is true: the item at that place is of that type, and
lacks that key (`Source.Explains`, `Source.Raises.explains`).
-/

set_option autoImplicit false
set_option relaxedAutoImplicit false

namespace ActionReplay

variable {locate : Locator} {s : Source} {p : Pointer} {fault : Fault}

/-! ### Reports -/

/-- An item of a source, by the id of the source, its place and its type, with the key that it lacks
if that is what is wrong with it. -/
structure Report where
  id : String
  place : Nat
  type : ItemType
  missing : Option ItemField
deriving DecidableEq

/-- The item that a fault reports by its type. -/
def Fault.report? : Fault → Option Report
  | .missingItemField id item type field => some ⟨id, item, type, some field⟩
  | .negativeDuration id item type => some ⟨id, item, type, none⟩
  | .timelineTooLong id item type => some ⟨id, item, type, none⟩
  | _ => none

/-- An item that has no value under a key of its type. -/
def Item.Lacks (field : ItemField) : Item → Prop
  | .pause duration => field = .duration ∧ duration = none
  | .pointerMove move => (field = .duration ∧ move.duration = none) ∨
      (field = .x ∧ move.x = none) ∨ (field = .y ∧ move.y = none)
  | .keyDown value | .keyUp value => field = .value ∧ value = none
  | _ => False

namespace Source

/-- What a fault reports is true of the source. -/
def Explains (s : Source) (fault : Fault) : Prop :=
  ∀ r, fault.report? = some r → r.id = s.id ∧ ∃ item, s.items[r.place]? = some item ∧
    item.type = r.type ∧ ∀ field, r.missing = some field → item.Lacks field

theorem explains_of_report?_eq_none (hnone : fault.report? = none) : s.Explains fault := by
  intro r hreport
  rw [hnone] at hreport
  cases hreport

variable {place : Nat} {item : Item}

theorem explains_of_report?_eq_some {missing : Option ItemField}
    (hitem : s.items[place]? = some item)
    (hreport : fault.report? = some ⟨s.id, place, item.type, missing⟩)
    (hlacks : ∀ field, missing = some field → item.Lacks field) : s.Explains fault := by
  intro r hr
  obtain rfl := Option.some.inj (hreport.symm.trans hr)
  exact ⟨rfl, item, hitem, rfl, hlacks⟩

/-! ### Faults -/

/-- The faults that the track of a source can end in, if the source is taken for one of a kind. -/
inductive Raises (s : Source) (kind : SourceKind) : Fault → Prop
  | lacking {place : Nat} {item : Item} {field : ItemField}
      (hitem : s.items[place]? = some item) (hlacks : item.Lacks field) :
      Raises s kind (.missingItemField s.id place item.type field)
  | negative {place : Nat} {item : Item} (hitem : s.items[place]? = some item) :
      Raises s kind (.negativeDuration s.id place item.type)
  | tooLong {place : Nat} {item : Item} (hitem : s.items[place]? = some item) :
      Raises s kind (.timelineTooLong s.id place item.type)
  | emptyValue (place : Nat) : Raises s kind (.invalidItemField s.id place .value .empty)
  | unknownElement (place : Nat) (handle : String) :
      Raises s kind (.unknownElement s.id place handle)
  | zeroSizeElement (place : Nat) (handle : String) :
      Raises s kind (.zeroSizeElement s.id place handle)
  | unplaced (place : Nat) : Raises s kind (.missingStartPosition s.id place)
  | simultaneous (type : ItemType) (tick : Tick) :
      Raises s kind (.simultaneousActions s.id type tick)
  | upWithoutDown (tick : Tick) : Raises s kind (.upWithoutDown s.id tick)
  | tooMany (type : PointerType) : Raises s kind (.tooManyPointers type)
  | unexpected {item : Item} (hitem : item ∈ s.items)
      (hforeign : kind.allows item = true → item = .pointerCancel) :
      Raises s kind (s.unexpected item)

variable {kind : SourceKind}

theorem Raises.explains (hraises : s.Raises kind fault) : s.Explains fault := by
  cases hraises with
  | lacking hitem hlacks =>
    exact explains_of_report?_eq_some hitem rfl fun other hother ↦ Option.some.inj hother ▸ hlacks
  | negative hitem | tooLong hitem => exact explains_of_report?_eq_some hitem rfl nofun
  | emptyValue | unknownElement | zeroSizeElement | unplaced | simultaneous | upWithoutDown
  | tooMany | unexpected => exact explains_of_report?_eq_none rfl

/-! ### Time -/

theorem raises_requiredDuration {duration : Option Int64} (hitem : s.items[place]? = some item)
    (hlacks : duration = none → item.Lacks .duration)
    (hfault : s.requiredDuration place item.type duration = .error fault) :
    s.Raises kind fault := by
  unfold requiredDuration at hfault
  cases duration with
  | none =>
    cases hfault
    exact Raises.lacking hitem (hlacks rfl)
  | some span =>
    dsimp only at hfault
    split_ifs at hfault
    cases hfault
    exact .negative hitem

theorem raises_advance {tick : Tick} {duration : Nat} (hitem : s.items[place]? = some item)
    (hfault : s.advance place item.type tick duration = .error fault) : s.Raises kind fault := by
  unfold advance at hfault
  split_ifs at hfault
  cases hfault
  exact .tooLong hitem

theorem raises_pauseEnd {tick : Tick} {duration : Option Int64}
    (hitem : s.items[place]? = some (.pause duration))
    (hfault : s.pauseEnd place tick duration = .error fault) : s.Raises kind fault := by
  rcases bind_eq_error.1 hfault with hduration | ⟨span, -, hadvance⟩
  · exact raises_requiredDuration hitem (fun hnone ↦ ⟨rfl, hnone⟩) hduration
  · exact raises_advance hitem hadvance

/-! ### Positions -/

theorem raises_target {move : PointerMove} {before : Option Position}
    (hitem : s.items[place]? = some (.pointerMove move))
    (hfault : move.target locate s.id place before = .error fault) : s.Raises kind fault := by
  unfold PointerMove.target at hfault
  cases horigin : move.origin with
  | viewport =>
    rw [horigin] at hfault
    cases hx : move.x with
    | none =>
      rw [hx] at hfault
      cases hfault
      exact Raises.lacking hitem (.inr (.inl ⟨rfl, hx⟩))
    | some x =>
      cases hy : move.y with
      | none =>
        rw [hx, hy] at hfault
        cases hfault
        exact Raises.lacking hitem (.inr (.inr ⟨rfl, hy⟩))
      | some y =>
        rw [hx, hy] at hfault
        cases hfault
  | pointer =>
    rw [horigin] at hfault
    cases before with
    | none =>
      cases hfault
      exact .unplaced place
    | some p => cases hfault
  | element handle =>
    rw [horigin] at hfault
    cases hlocate : locate handle with
    | none =>
      simp only [hlocate] at hfault
      cases hfault
      exact .unknownElement place handle
    | some bounds =>
      simp only [hlocate] at hfault
      split_ifs at hfault
      cases hfault
      exact .zeroSizeElement place handle

theorem raises_itemPosition {before : Option Position} (hitem : s.items[place]? = some item)
    (hfault : item.positionAfter locate s.id place before = .error fault) :
    s.Raises kind fault := by
  cases item with
  | pointerMove move => exact raises_target hitem hfault
  | pause | pointerDown | pointerUp | pointerCancel | keyDown | keyUp =>
    cases before with
    | none =>
      cases hfault
      exact .unplaced place
    | some p => cases hfault

/-- A position that does not exist is explained by an item at or before its place. -/
theorem raises_positionAfter (hfault : s.positionAfter locate place = .error fault) :
    s.Raises kind fault := by
  induction place with
  | zero =>
    unfold positionAfter at hfault
    cases hitem : s.items[0]? with
    | none =>
      rw [hitem] at hfault
      cases hfault
      exact .unplaced 0
    | some item =>
      rw [hitem] at hfault
      exact raises_itemPosition hitem hfault
  | succ place ih =>
    unfold positionAfter at hfault
    cases hitem : s.items[place + 1]? with
    | none =>
      rw [hitem] at hfault
      cases hfault
      exact .unplaced (place + 1)
    | some item =>
      simp only [hitem] at hfault
      split_ifs at hfault with hanchor
      · exact raises_itemPosition hitem hfault
      · rcases bind_eq_error.1 hfault with hbefore | ⟨before, -, hhere⟩
        · exact ih hbefore
        · exact raises_itemPosition hitem hhere

/-- Assumes: a faithful memo. -/
theorem raises_resolve {memo : PositionMemo} (hmemo : memo.Faithful locate s)
    (hplace : place < s.items.length)
    (hfault : (memo.resolve locate s place).1 = .error fault) : s.Raises kind fault := by
  obtain ⟨later, -, hresolve⟩ := hmemo.resolve_eq hplace
  rw [hresolve] at hfault
  exact raises_positionAfter hfault

/-! ### Tracks of pointer sources -/

variable {state : PointerState} {next : Option Item}

theorem raises_pressStep {button : Option Int64} (hmemo : state.memo.Faithful locate s)
    (hplace : place < s.items.length)
    (hfault : s.pressStep locate p place state button = .error fault) : s.Raises kind fault := by
  unfold pressStep at hfault
  split_ifs at hfault
  · cases hfault
    exact .simultaneous .pointerDown state.tick
  · rcases bind_eq_error.1 hfault with hposition | ⟨position, -, hrest⟩
    · exact raises_resolve hmemo hplace hposition
    · cases hrest

theorem raises_liftStep {button : Option Int64} (hmemo : state.memo.Faithful locate s)
    (hplace : place < s.items.length)
    (hfault : s.liftStep locate p place state button = .error fault) : s.Raises kind fault := by
  unfold liftStep at hfault
  split_ifs at hfault
  · cases hfault
    exact .upWithoutDown state.tick
  · cases hfault
    exact .simultaneous .pointerUp state.tick
  · rcases bind_eq_error.1 hfault with hposition | ⟨position, -, hrest⟩
    · exact raises_resolve hmemo hplace hposition
    · cases hrest

theorem raises_moveStep {move : PointerMove} (hmemo : state.memo.Faithful locate s)
    (hitem : s.items[place]? = some (.pointerMove move))
    (hfault : s.moveStep locate p place next state move = .error fault) : s.Raises kind fault := by
  have hplace := (List.getElem?_eq_some_iff.1 hitem).1
  unfold moveStep at hfault
  rcases bind_eq_error.1 hfault with hduration | ⟨span, -, hfault⟩
  · exact raises_requiredDuration hitem (fun hnone ↦ .inl ⟨rfl, hnone⟩) hduration
  dsimp only at hfault
  by_cases hshort : align span < quantum
  · rw [if_pos hshort] at hfault
    cases hfault
  rw [if_neg hshort] at hfault
  rcases bind_eq_error.1 hfault with hadvance | ⟨tick, -, hfault⟩
  · exact raises_advance hitem hadvance
  cases place with
  | zero => cases hfault
  | succ before =>
    obtain ⟨memo, hmid, hresolve⟩ := hmemo.resolve_eq (Nat.lt_of_succ_lt hplace)
    simp only [hresolve] at hfault
    rcases bind_eq_error.1 hfault with hstart | ⟨start, -, hfault⟩
    · exact raises_positionAfter hstart
    rcases bind_eq_error.1 hfault with hstop | ⟨stop, -, hfault⟩
    · exact raises_resolve hmid hplace hstop
    · cases hfault

theorem raises_pointerStep (hmemo : state.memo.Faithful locate s)
    (hitem : s.items[place]? = some item)
    (hfault : s.pointerStep locate p place next state item = .error fault) :
    s.Raises .pointer fault := by
  have hplace := (List.getElem?_eq_some_iff.1 hitem).1
  cases item with
  | pause duration =>
    rcases bind_eq_error.1 hfault with hend | ⟨tick, -, hrest⟩
    · exact raises_pauseEnd hitem hend
    · cases hrest
  | pointerDown button => exact raises_pressStep hmemo hplace hfault
  | pointerUp button => exact raises_liftStep hmemo hplace hfault
  | pointerMove move => exact raises_moveStep hmemo hitem hfault
  | pointerCancel =>
    cases hfault
    exact .unexpected (List.mem_of_getElem? hitem) fun _ ↦ rfl
  | keyDown | keyUp =>
    cases hfault
    exact .unexpected (List.mem_of_getElem? hitem) fun hallowed ↦ absurd hallowed Bool.false_ne_true

theorem raises_pointerTrackFrom {items : List Item} (hitems : s.items.drop place = items)
    (hmemo : state.memo.Faithful locate s)
    (hfault : s.pointerTrackFrom locate p place state items = .error fault) :
    s.Raises .pointer fault := by
  induction items generalizing place state with
  | nil => cases hfault
  | cons item rest ih =>
    obtain ⟨hitem, hrest⟩ := items_of_drop_eq_cons hitems
    rcases bind_eq_error.1 hfault with hstep | ⟨⟨bookings, after⟩, hstep, hfault⟩
    · exact raises_pointerStep hmemo hitem hstep
    · have hafter := (pointerStep_eq_ok.1 hstep).faithful hmemo
        (List.getElem?_eq_some_iff.1 hitem).1
      rcases bind_eq_error.1 hfault with hlater | ⟨later, -, hfault⟩
      · exact ih hrest hafter hlater
      · cases hfault

theorem raises_pointerTrack {ordinal : Nat}
    (hfault : s.pointerTrack locate ordinal = .error fault) : s.Raises .pointer fault := by
  unfold pointerTrack at hfault
  dsimp only at hfault
  split_ifs at hfault
  · cases hfault
    exact .tooMany s.effectivePointerType
  · exact raises_pointerTrackFrom rfl (PositionMemo.faithful_empty locate s) hfault

/-! ### Tracks of other sources -/

theorem raises_keyCodePoint {value : Option String} (hitem : s.items[place]? = some item)
    (hlacks : value = none → item.Lacks .value)
    (hfault : s.keyCodePoint place item.type value = .error fault) : s.Raises kind fault := by
  unfold keyCodePoint at hfault
  cases value with
  | none =>
    cases hfault
    exact Raises.lacking hitem (hlacks rfl)
  | some value =>
    dsimp only at hfault
    split at hfault
    · cases hfault
      exact .emptyValue place
    · cases hfault

theorem raises_keyStep {state : KeyboardState} (hitem : s.items[place]? = some item)
    (hfault : s.keyStep place state item = .error fault) : s.Raises .key fault := by
  cases item with
  | pause duration =>
    rcases bind_eq_error.1 hfault with hend | ⟨tick, -, hrest⟩
    · exact raises_pauseEnd hitem hend
    · cases hrest
  | keyDown value | keyUp value =>
    rcases bind_eq_error.1 hfault with hvalue | ⟨codePoint, -, hrest⟩
    · exact raises_keyCodePoint hitem (fun hnone ↦ ⟨rfl, hnone⟩) hvalue
    · cases hrest
  | pointerDown | pointerUp | pointerMove | pointerCancel =>
    cases hfault
    exact .unexpected (List.mem_of_getElem? hitem) fun hallowed ↦ absurd hallowed Bool.false_ne_true

theorem raises_keyTrackFrom {items : List Item} {state : KeyboardState}
    (hitems : s.items.drop place = items)
    (hfault : s.keyTrackFrom place state items = .error fault) : s.Raises .key fault := by
  induction items generalizing place state with
  | nil => cases hfault
  | cons item rest ih =>
    obtain ⟨hitem, hrest⟩ := items_of_drop_eq_cons hitems
    rcases bind_eq_error.1 hfault with hstep | ⟨⟨booking, after⟩, -, hfault⟩
    · exact raises_keyStep hitem hstep
    · rcases bind_eq_error.1 hfault with hlater | ⟨later, -, hfault⟩
      · exact ih hrest hlater
      · cases hfault

theorem raises_restTrackFrom {items : List Item} {tick : Tick}
    (hitems : s.items.drop place = items)
    (hfault : s.restTrackFrom place tick items = .error fault) : s.Raises .none fault := by
  induction items generalizing place tick with
  | nil => cases hfault
  | cons item rest ih =>
    obtain ⟨hitem, hrest⟩ := items_of_drop_eq_cons hitems
    cases item with
    | pause duration =>
      rcases bind_eq_error.1 hfault with hend | ⟨reached, -, hfault⟩
      · exact raises_pauseEnd hitem hend
      · rcases bind_eq_error.1 hfault with hlater | ⟨later, -, hfault⟩
        · exact ih hrest hlater
        · cases hfault
    | pointerDown | pointerUp | pointerMove | pointerCancel | keyDown | keyUp =>
      cases hfault
      exact .unexpected (List.mem_of_getElem? hitem)
        fun hallowed ↦ absurd hallowed Bool.false_ne_true

end Source

end ActionReplay
