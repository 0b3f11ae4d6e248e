import ActionReplay.Proofs.Position.Memo

/-!
# Asking one memo again and again

The positions of a source are given by rules that go from item to item (`Source.PositionRules`). A move
relative to the viewport is where it says, one relative to an element is beside its middle, one relative
to the pointer is beside the position before it, and any other item is at the position before it; before
the first item there is no position. The rules leave no choice (`PositionRules.eq_of_lt`), and
`Source.positionAfter` follows them (`positionRules_positionAfter`).

Whoever asks for positions shares one memo, which starts empty. In whatever order and however often they
ask, each answer is the one that the rules give, faults included, and the memo holds nothing else
(`resolveAll_eq_map`): an answer keeps the memo faithful (`Faithful.resolveAll_eq`), also when it is a
fault.
-/

set_option autoImplicit false
set_option relaxedAutoImplicit false

namespace ActionReplay

variable {locate : Locator} {s : Source}

/-! ### The rules -/

namespace Source

/-- The position before an item, if `position` is the one after each. -/
def before (s : Source) (position : Nat → Except Fault Position) : Nat → Except Fault Position
  | 0 => .error (.missingStartPosition s.id 0)
  | place + 1 => position place

/-- How the positions after the items of a source follow from one another. -/
structure PositionRules (locate : Locator) (s : Source) (position : Nat → Except Fault Position) :
    Prop where
  viewport : ∀ place move, s.items[place]? = some (.pointerMove move) → move.origin = .viewport →
    position place = do
      let x ← move.x.elim (.error (.missingItemField s.id place .pointerMove .x)) .ok
      let y ← move.y.elim (.error (.missingItemField s.id place .pointerMove .y)) .ok
      return move.landing x y
  element : ∀ place move handle, s.items[place]? = some (.pointerMove move) →
    move.origin = .element handle → position place = do
      let bounds ← (locate handle).elim (.error (.unknownElement s.id place handle)) .ok
      if bounds.isEmpty then .error (.zeroSizeElement s.id place handle)
      else return move.landing (bounds.centerX + move.x.getD 0.0) (bounds.centerY + move.y.getD 0.0)
  pointer : ∀ place move, s.items[place]? = some (.pointerMove move) → move.origin = .pointer →
    position place = do
      let p ← s.before position place
      return move.landing (p.x + move.x.getD 0.0) (p.y + move.y.getD 0.0)
  other : ∀ place item, s.items[place]? = some item → (∀ move, item ≠ .pointerMove move) →
    position place = s.before position place

/-- Assumes: an item that is no anchor. The position after it depends on the one before it. -/
theorem positionAfter_eq_bind_before {place : Nat} {item : Item}
    (hitem : s.items[place]? = some item) (hanchor : item.isAnchor = false) :
    s.positionAfter locate place =
      s.before (s.positionAfter locate) place >>= fun p ↦
        item.positionAfter locate s.id place (some p) := by
  cases place with
  | zero =>
    rw [positionAfter_zero hitem]
    cases item with
    | pointerMove move =>
      have horigin : move.origin = .pointer := by simpa [Item.isAnchor] using hanchor
      change move.target locate s.id 0 none = _
      rw [PointerMove.target, horigin]
      rfl
    | pause | pointerDown | pointerUp | pointerCancel | keyDown | keyUp => rfl
  | succ place =>
    change _ = (s.positionAfter locate place >>= _)
    cases hbefore : s.positionAfter locate place with
    | error fault => exact positionAfter_succ_of_error hitem hanchor hbefore
    | ok p => exact positionAfter_succ_of_ok hitem hbefore

/-- An anchor has its position by itself. -/
theorem positionAfter_of_isAnchor {place : Nat} {item : Item}
    (hitem : s.items[place]? = some item) (hanchor : item.isAnchor = true) :
    s.positionAfter locate place = item.positionAfter locate s.id place none := by
  cases place with
  | zero => exact positionAfter_zero hitem
  | succ place => exact positionAfter_succ_of_isAnchor hitem hanchor

theorem positionRules_positionAfter (locate : Locator) (s : Source) :
    s.PositionRules locate (s.positionAfter locate) where
  viewport place move hitem horigin := by
    rw [positionAfter_of_isAnchor hitem (by simp [Item.isAnchor, horigin])]
    change move.target locate s.id place none = _
    rw [PointerMove.target, horigin]
    cases move.x with
    | none => rfl
    | some x => cases move.y <;> rfl
  element place move handle hitem horigin := by
    rw [positionAfter_of_isAnchor hitem (by simp [Item.isAnchor, horigin])]
    change move.target locate s.id place none = _
    rw [PointerMove.target, horigin]
    dsimp only
    cases locate handle with
    | none => rfl
    | some bounds => rfl
  pointer place move hitem horigin := by
    rw [positionAfter_eq_bind_before hitem (by simp [Item.isAnchor, horigin])]
    refine congrArg _ (funext fun p ↦ ?_)
    change move.target locate s.id place (some p) = _
    rw [PointerMove.target, horigin]
    rfl
  other place item hitem hother := by
    cases item with
    | pointerMove move => exact absurd rfl (hother move)
    | pause | pointerDown | pointerUp | pointerCancel | keyDown | keyUp =>
      exact (positionAfter_eq_bind_before hitem rfl).trans (bind_pure _)

namespace PositionRules

variable {position other : Nat → Except Fault Position}

/-- Assumes: positions that follow the rules, and the same position before an item. Then there is the
same position after it. -/
theorem eq_of_before_eq (hposition : s.PositionRules locate position)
    (hother : s.PositionRules locate other) {place : Nat} (hplace : place < s.items.length)
    (hbefore : s.before position place = s.before other place) : position place = other place := by
  have hitem : s.items[place]? = some s.items[place] := List.getElem?_eq_getElem hplace
  generalize s.items[place] = item at hitem
  by_cases hmove : ∃ move, item = .pointerMove move
  · obtain ⟨move, rfl⟩ := hmove
    cases horigin : move.origin with
    | viewport =>
      rw [hposition.viewport place move hitem horigin, hother.viewport place move hitem horigin]
    | element handle =>
      rw [hposition.element place move handle hitem horigin,
        hother.element place move handle hitem horigin]
    | pointer =>
      rw [hposition.pointer place move hitem horigin, hother.pointer place move hitem horigin, hbefore]
  · have hplain : ∀ move, item ≠ .pointerMove move := fun move heq ↦ hmove ⟨move, heq⟩
    rw [hposition.other place item hitem hplain, hother.other place item hitem hplain, hbefore]

/-- There is only one way to follow the rules. -/
theorem eq_of_lt (hposition : s.PositionRules locate position)
    (hother : s.PositionRules locate other) {place : Nat} (hplace : place < s.items.length) :
    position place = other place := by
  induction place with
  | zero => exact eq_of_before_eq hposition hother hplace rfl
  | succ place ih => exact eq_of_before_eq hposition hother hplace (ih (Nat.lt_of_succ_lt hplace))

end PositionRules

end Source

/-! ### One memo for all questions -/

namespace PositionMemo

/-- Asks a memo for the positions after some items, one after the other. -/
def resolveAll (locate : Locator) (s : Source) :
    PositionMemo → List Nat → List (Except Fault Position) × PositionMemo
  | memo, [] => ([], memo)
  | memo, place :: rest =>
    let (answer, memo) := memo.resolve locate s place
    let (answers, memo) := memo.resolveAll locate s rest
    (answer :: answers, memo)

/-- Assumes: a faithful memo, asked for items that there are. It answers with the positions after them
or their faults, and is faithful afterwards. -/
theorem Faithful.resolveAll_eq {memo : PositionMemo} {places : List Nat}
    (hmemo : memo.Faithful locate s) (hplaces : ∀ place ∈ places, place < s.items.length) :
    ∃ later, later.Faithful locate s ∧
      memo.resolveAll locate s places = (places.map (s.positionAfter locate), later) := by
  induction places generalizing memo with
  | nil => exact ⟨memo, hmemo, rfl⟩
  | cons place rest ih =>
    obtain ⟨next, hnext, hanswer⟩ := hmemo.resolve_eq (hplaces place List.mem_cons_self)
    obtain ⟨later, hlater, hanswers⟩ := ih hnext fun other hother ↦
      hplaces other (List.mem_cons_of_mem place hother)
    refine ⟨later, hlater, ?_⟩
    rw [resolveAll, hanswer]
    dsimp only
    rw [hanswers, List.map_cons]

/-- The positions after the items of a source are the only ones that follow its rules. A memo that
starts empty and is asked for items of the source, in any order and any number of times, answers each
time with the position after the item, or its fault; and every position that it has remembered is the
position after its item. -/
theorem resolveAll_eq_map (locate : Locator) (s : Source) :
    s.PositionRules locate (s.positionAfter locate) ∧
      (∀ position, s.PositionRules locate position → ∀ place < s.items.length,
        position place = s.positionAfter locate place) ∧
      ∀ asked : List (Fin s.items.length),
        let (answers, memo) := (empty s).resolveAll locate s (asked.map Fin.val)
        answers = asked.map (fun place ↦ s.positionAfter locate place.val) ∧
          ∀ place p, memo.get? place = some p → s.positionAfter locate place = .ok p := by
  have hrules := s.positionRules_positionAfter locate
  refine ⟨hrules, fun position hposition place hplace ↦ hposition.eq_of_lt hrules hplace,
    fun asked ↦ ?_⟩
  have hasked : ∀ place ∈ asked.map Fin.val, place < s.items.length := by
    intro place hplace
    obtain ⟨index, -, rfl⟩ := List.mem_map.1 hplace
    exact index.isLt
  obtain ⟨memo, hmemo, hanswers⟩ := (faithful_empty locate s).resolveAll_eq hasked
  rw [hanswers]
  exact ⟨List.map_map, hmemo.sound⟩

end PositionMemo

end ActionReplay
