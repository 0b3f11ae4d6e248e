import ActionReplay.Proofs.Source.Consistent
import ActionReplay.Proofs.Source.Spelled
import ActionReplay.Proofs.Timeline.Pointers

/-!
# The elements that matter to a payload

An element is asked for only where a move takes it for its origin. Two locators that agree on the
elements that the items of a source name lead to the same position after every item
(`Item.positionAfter_congr`), so to the same memo (`PositionMemo.resolve_congr`), the same step
(`Source.pointerStep_congr`) and the same track (`Source.pointerTrack_congr`), whether it succeeds or
fails. The items of accepted sources name no element that the payload does not
(`Json.namesElement_of_accept`), and payloads compile alike where the locators agree on those
(`Timeline.compile_congr`).
-/

set_option autoImplicit false
set_option relaxedAutoImplicit false

namespace ActionReplay

/-- An item whose position is relative to an element. -/
def Item.NamesElement (handle : String) : Item → Prop
  | .pointerMove move => move.origin = .element handle
  | _ => False

/-- A payload with a move relative to an element, by the name of the move and the member that spells
its origin. -/
def Json.NamesElement (actions : Json) (handle : String) : Prop :=
  ∃ sources, actions = .array sources ∧ ∃ v ∈ sources,
    ∃ items, v.member? "actions" = some (.array items) ∧ ∃ w ∈ items,
      w.member? "type" = some (.string "pointerMove") ∧
        ∃ origin, w.member? "origin" = some origin ∧ origin.SpellsOrigin (.element handle)

/-- Locators that give the same bounds to every element that some items name. -/
def AgreeOn (items : List Item) (locate other : Locator) : Prop :=
  ∀ item ∈ items, ∀ handle, item.NamesElement handle → locate handle = other handle

variable {locate other : Locator}

/-! ### Positions -/

theorem Item.positionAfter_congr {item : Item}
    (hagree : ∀ handle, item.NamesElement handle → locate handle = other handle) (id : String)
    (place : Nat) (before : Option Position) :
    item.positionAfter locate id place before = item.positionAfter other id place before := by
  cases item with
  | pointerMove move =>
    change move.target locate id place before = move.target other id place before
    unfold PointerMove.target
    cases horigin : move.origin with
    | viewport | pointer => rfl
    | element handle =>
      dsimp only
      rw [hagree handle horigin]
  | pause | pointerDown | pointerUp | pointerCancel | keyDown | keyUp => rfl

namespace PositionMemo

theorem fill_congr {items : List Item} (hagree : AgreeOn items locate other) (id : String)
    (place : Nat) (before : Option Position) (memo : PositionMemo) :
    fill locate id place before memo items = fill other id place before memo items := by
  induction items generalizing place before memo with
  | nil => rfl
  | cons item rest ih =>
    obtain ⟨hfirst, hrest⟩ := List.forall_mem_cons.1 hagree
    unfold fill
    rw [Item.positionAfter_congr hfirst]
    cases item.positionAfter other id place before with
    | error fault => rfl
    | ok p => exact ih hrest _ _ _

/-- Whatever was found so far, the same position is found next and the same memo is left. -/
theorem resolve_congr {s : Source} (hagree : AgreeOn s.items locate other) :
    resolve locate s = resolve other s := by
  funext memo place
  unfold resolve
  cases memo.get? place with
  | some p => rfl
  | none =>
    have hasked : AgreeOn ((s.items.drop (startBefore s memo place)).take
        (place + 1 - startBefore s memo place)) locate other :=
      fun item hitem ↦ hagree item (List.mem_of_mem_drop (List.mem_of_mem_take hitem))
    dsimp only
    rw [fill_congr hasked]

end PositionMemo

/-! ### Tracks -/

namespace Source

variable {s : Source}

theorem pointerStep_congr (hagree : AgreeOn s.items locate other) :
    s.pointerStep locate = s.pointerStep other := by
  have hresolve := PositionMemo.resolve_congr hagree
  funext p place next state item
  cases item with
  | pointerDown button =>
    change s.pressStep locate p place state button = s.pressStep other p place state button
    unfold pressStep
    rw [hresolve]
  | pointerUp button =>
    change s.liftStep locate p place state button = s.liftStep other p place state button
    unfold liftStep
    rw [hresolve]
  | pointerMove move =>
    change s.moveStep locate p place next state move = s.moveStep other p place next state move
    unfold moveStep
    rw [hresolve]
  | pause | pointerCancel | keyDown | keyUp => rfl

theorem pointerTrackFrom_congr (hagree : AgreeOn s.items locate other) (p : Pointer) (place : Nat)
    (state : PointerState) (items : List Item) :
    s.pointerTrackFrom locate p place state items =
      s.pointerTrackFrom other p place state items := by
  induction items generalizing place state with
  | nil => rfl
  | cons item rest ih =>
    unfold pointerTrackFrom
    simp only [pointerStep_congr hagree, ih]

theorem pointerTrack_congr (hagree : AgreeOn s.items locate other) (ordinal : Nat) :
    s.pointerTrack locate ordinal = s.pointerTrack other ordinal := by
  unfold pointerTrack
  simp only [pointerTrackFrom_congr hagree]

variable {sources : List Source}

theorem pointerTracksFrom_congr (hagree : ∀ s ∈ sources, AgreeOn s.items locate other)
    (ordinal : Nat) : pointerTracksFrom locate ordinal sources =
      pointerTracksFrom other ordinal sources := by
  induction sources generalizing ordinal with
  | nil => rfl
  | cons s rest ih =>
    obtain ⟨hfirst, hrest⟩ := List.forall_mem_cons.1 hagree
    unfold pointerTracksFrom
    rw [pointerTrack_congr hfirst, ih hrest]

theorem tracks_congr (hagree : ∀ s ∈ sources, AgreeOn s.items locate other) :
    tracks locate sources = tracks other sources := by
  have hpointers : ∀ s ∈ ofKind sources .pointer, AgreeOn s.items locate other :=
    fun s hs ↦ hagree s (List.mem_of_mem_filter hs)
  unfold tracks
  rw [pointerTracksFrom_congr hpointers]

end Source

/-! ### Payloads -/

/-- A move that a value spells names its element in the value. -/
theorem Json.Spells.namesElement {w : Json} {item : Item} {handle : String}
    (hspells : w.Spells item) (hnames : item.NamesElement handle) :
    w.member? "type" = some (.string "pointerMove") ∧
      ∃ origin, w.member? "origin" = some origin ∧ origin.SpellsOrigin (.element handle) := by
  cases item with
  | pointerMove move =>
    refine ⟨bind_string?_eq_some.1 hspells.type, ?_⟩
    obtain ⟨named, hnamed, horigin⟩ := SpellsMove.origin hspells.fields
    change move.origin = .element handle at hnames
    rw [hnames] at horigin
    cases named with
    | none => cases horigin
    | some origin =>
      obtain rfl : .element handle = origin := horigin
      exact exists_member?_of_rel hnamed
  | pause | pointerDown | pointerUp | pointerCancel | keyDown | keyUp => exact hnames.elim

/-- Assumes: sources that were read from a payload and accepted. Their items name no element that the
payload does not. -/
theorem Json.namesElement_of_accept {actions : Json} {accepted : List Source}
    (hread : (Source.readAll actions >>= Source.accept) = .ok accepted) {s : Source}
    (hs : s ∈ accepted) {item : Item} (hitem : item ∈ s.items) {handle : String}
    (hnames : item.NamesElement handle) : actions.NamesElement handle := by
  obtain ⟨sources, hread, haccept⟩ := bind_eq_ok.1 hread
  rw [Source.eq_map_of_accept haccept] at hs
  obtain ⟨whole, hwhole, rfl⟩ := List.mem_map.1 hs
  obtain ⟨values, rfl, hsources⟩ := Source.readAll_eq_ok.1 hread
  obtain ⟨v, hv, hspells⟩ := exists_mem_left_of_forall₂ hsources hwhole
  obtain ⟨items, hitems, hall⟩ := hspells.items
  obtain ⟨w, hw, hspelled⟩ :=
    exists_mem_left_of_forall₂ hall (Item.mem_of_mem_dropCancelled hitem).1
  exact ⟨values, rfl, v, hv, items, bind_items?_eq_some.1 hitems, w, hw,
    hspelled.namesElement hnames⟩

namespace Timeline

theorem ofSources_congr {sources : List Source}
    (hagree : ∀ s ∈ sources, AgreeOn s.items locate other) :
    ofSources locate sources = ofSources other sources := by
  unfold ofSources
  rw [Source.tracks_congr hagree]

/-- Assumes: two locators that agree on the elements that a payload names. It compiles to the same
timeline with both, or ends in the same fault. -/
theorem compile_congr {actions : Json}
    (hagree : ∀ handle, actions.NamesElement handle → locate handle = other handle) :
    compile locate actions = compile other actions := by
  rw [compile_eq_bind, compile_eq_bind]
  refine bind_eq_bind_of_ok fun accepted hread ↦ ofSources_congr ?_
  intro s hs item hitem handle hnames
  exact hagree handle (Json.namesElement_of_accept hread hs hitem hnames)

end Timeline

end ActionReplay
