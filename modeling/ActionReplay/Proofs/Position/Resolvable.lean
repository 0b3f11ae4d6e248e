import ActionReplay.Proofs.Position.Memo

/-!
# Which items have a position

An anchor has a position if its own fields give one: a viewport move if it has both coordinates, an
element move if the element is known and not empty. Any other item has one exactly if there is a
position before it (`Item.Resolvable`, `Source.hasPosition_iff`). The position of an item depends on
the items from the last anchor up to it, and on no others (`Source.LeadsTo`): it exists exactly if
every one of these is resolvable (`Source.hasPosition_iff_forall`).
-/

set_option autoImplicit false
set_option relaxedAutoImplicit false

namespace ActionReplay

variable {locate : Locator} {s : Source}

/-- A move that has a position, where `before` says that there is one before it: a move relative to
the viewport needs both coordinates, one relative to the pointer needs a position before it, and one
relative to an element needs the element to be known and not to be empty. -/
def PointerMove.Resolvable (locate : Locator) (before : Prop) (move : PointerMove) : Prop :=
  match move.origin with
  | .viewport => (∃ x, move.x = some x) ∧ ∃ y, move.y = some y
  | .pointer => before
  | .element handle => ∃ bounds, locate handle = some bounds ∧ bounds.isEmpty = false

/-- An item that has a position: a move that has one, or anything else with a position before it. -/
def Item.Resolvable (locate : Locator) (before : Prop) : Item → Prop
  | .pointerMove move => move.Resolvable locate before
  | _ => before

namespace Source

/-- The pointer of a source is somewhere after the item at a place. -/
def HasPosition (locate : Locator) (s : Source) (place : Nat) : Prop :=
  ∃ p, s.positionAfter locate place = .ok p

/-- There is an item before a place, and the pointer of the source is somewhere after it. -/
def HasPositionBefore (locate : Locator) (s : Source) (place : Nat) : Prop :=
  ∃ before, place = before + 1 ∧ s.HasPosition locate before

/-- The position at a later place depends on the item at an earlier one: no anchor comes after the
earlier one, up to the later one. -/
def LeadsTo (s : Source) (place later : Nat) : Prop :=
  place ≤ later ∧ ∀ k item, place < k → k ≤ later → s.items[k]? = some item → item.isAnchor = false

end Source

/-! ### One item -/

theorem PointerMove.exists_target_iff {move : PointerMove} {id : String} {place : Nat}
    {before : Option Position} :
    (∃ p, move.target locate id place before = .ok p) ↔
      move.Resolvable locate (before.isSome = true) := by
  unfold PointerMove.target PointerMove.Resolvable
  cases move.origin with
  | viewport =>
    cases move.x with
    | none => simp
    | some x =>
      cases move.y with
      | none => simp
      | some y => simp
  | pointer =>
    cases before with
    | none => simp
    | some p => simp
  | element handle =>
    cases hlocate : locate handle with
    | none => simp [hlocate]
    | some bounds =>
      cases hempty : bounds.isEmpty with
      | false => simp [hlocate, hempty]
      | true => simp [hlocate, hempty]

namespace Item

theorem exists_positionAfter_iff {item : Item} {id : String} {place : Nat}
    {before : Option Position} :
    (∃ p, item.positionAfter locate id place before = .ok p) ↔
      item.Resolvable locate (before.isSome = true) := by
  cases item with
  | pointerMove move => exact PointerMove.exists_target_iff
  | pause | pointerDown | pointerUp | pointerCancel | keyDown | keyUp =>
    cases before with
    | none => simp [positionAfter, Resolvable]
    | some p => simp [positionAfter, Resolvable]

theorem resolvable_iff_of_isAnchor {item : Item} (hanchor : item.isAnchor = true)
    (before other : Prop) : item.Resolvable locate before ↔ item.Resolvable locate other := by
  cases item with
  | pointerMove move =>
    simp only [Resolvable, PointerMove.Resolvable]
    cases horigin : move.origin with
    | viewport => rfl
    | element handle => rfl
    | pointer => simp [isAnchor, horigin] at hanchor
  | pause | pointerDown | pointerUp | pointerCancel | keyDown | keyUp => cases hanchor

theorem resolvable_iff_of_not_isAnchor {item : Item} (hanchor : item.isAnchor = false)
    (before : Prop) : item.Resolvable locate before ↔ before := by
  cases item with
  | pointerMove move =>
    simp only [Resolvable, PointerMove.Resolvable]
    cases horigin : move.origin with
    | viewport => simp [isAnchor, horigin] at hanchor
    | element handle => simp [isAnchor, horigin] at hanchor
    | pointer => rfl
  | pause | pointerDown | pointerUp | pointerCancel | keyDown | keyUp => rfl

end Item

namespace Source

/-! ### The items of a source -/

theorem not_hasPositionBefore_zero : ¬s.HasPositionBefore locate 0 := by
  rintro ⟨before, hbefore, -⟩
  exact Nat.noConfusion hbefore

theorem hasPositionBefore_succ {place : Nat} :
    s.HasPositionBefore locate (place + 1) ↔ s.HasPosition locate place := by
  constructor
  · rintro ⟨before, hbefore, hposition⟩
    obtain rfl : place = before := Nat.succ.inj hbefore
    exact hposition
  · exact fun hposition ↦ ⟨place, rfl, hposition⟩

/-- An item has a position exactly if it is resolvable. -/
theorem hasPosition_iff {place : Nat} {item : Item} (hitem : s.items[place]? = some item) :
    s.HasPosition locate place ↔ item.Resolvable locate (s.HasPositionBefore locate place) := by
  unfold HasPosition
  cases place with
  | zero =>
    rw [positionAfter_zero hitem, Item.exists_positionAfter_iff]
    simp only [Option.isSome_none, Bool.false_eq_true, not_hasPositionBefore_zero]
  | succ place =>
    cases hanchor : item.isAnchor with
    | true =>
      rw [positionAfter_succ_of_isAnchor hitem hanchor, Item.exists_positionAfter_iff]
      exact Item.resolvable_iff_of_isAnchor hanchor _ _
    | false =>
      rw [Item.resolvable_iff_of_not_isAnchor hanchor, hasPositionBefore_succ]
      cases hbefore : s.positionAfter locate place with
      | error fault =>
        rw [positionAfter_succ_of_error hitem hanchor hbefore]
        simp [HasPosition, hbefore]
      | ok p =>
        rw [positionAfter_succ_of_ok hitem hbefore, Item.exists_positionAfter_iff,
          Item.resolvable_iff_of_not_isAnchor hanchor]
        simp [HasPosition, hbefore]

theorem leadsTo_self (s : Source) (place : Nat) : s.LeadsTo place place :=
  ⟨le_rfl, fun _ _ hlt hle _ ↦ absurd hle (Nat.not_le.2 hlt)⟩

/-- What an item depends on has a position if the item has one. -/
theorem LeadsTo.hasPosition {place later : Nat} (hleads : s.LeadsTo place later)
    (hlater : later < s.items.length) (hposition : s.HasPosition locate later) :
    s.HasPosition locate place := by
  obtain ⟨hle, hplain⟩ := hleads
  induction later with
  | zero => exact Nat.le_zero.1 hle ▸ hposition
  | succ later ih =>
    rcases Nat.lt_or_eq_of_le hle with hlt | rfl
    · have hitem := List.getElem?_eq_getElem hlater
      have hanchor := hplain (later + 1) _ hlt le_rfl hitem
      have hbefore := (Item.resolvable_iff_of_not_isAnchor hanchor _).1
        ((hasPosition_iff hitem).1 hposition)
      refine ih (Nat.lt_of_succ_lt hlater) (hasPositionBefore_succ.1 hbefore)
        (Nat.le_of_lt_succ hlt) ?_
      exact fun k item hk hkle ↦ hplain k item hk (hkle.trans (Nat.le_succ later))
    · exact hposition

/-- An item has a position exactly if every item that it depends on is resolvable. -/
theorem hasPosition_iff_forall {place : Nat} (hplace : place < s.items.length) :
    s.HasPosition locate place ↔ ∀ k item, s.LeadsTo k place → s.items[k]? = some item →
      item.Resolvable locate (s.HasPositionBefore locate k) := by
  constructor
  · intro hposition k item hleads hitem
    exact (hasPosition_iff hitem).1 (hleads.hasPosition hplace hposition)
  · intro hall
    have hitem := List.getElem?_eq_getElem hplace
    exact (hasPosition_iff hitem).2 (hall place _ (s.leadsTo_self place) hitem)

end Source

end ActionReplay
