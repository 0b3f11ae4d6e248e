import ActionReplay.Position.Resolution

/-!
# Remembered positions

Positions are asked for one at a time, and a chain of relative moves may be long. A `PositionMemo` keeps
the positions already found, one slot for each item. `PositionMemo.resolve` goes back from the item asked
for to the nearest one that is an anchor or follows a filled slot, and from there forward, filling every
slot on the way, so that no item is resolved twice. `Sound` says what the slots hold.
-/

set_option autoImplicit false
set_option relaxedAutoImplicit false

namespace ActionReplay

structure PositionMemo where
  slots : Array (Option Position)
deriving Inhabited

namespace PositionMemo

/-- No position found yet. -/
def empty (s : Source) : PositionMemo :=
  ⟨Array.replicate s.items.length none⟩

/-- The position remembered for the item at a place. -/
def get? (memo : PositionMemo) (place : Nat) : Option Position :=
  memo.slots[place]?.join

def put (memo : PositionMemo) (place : Nat) (p : Position) : PositionMemo :=
  ⟨memo.slots.setIfInBounds place (some p)⟩

@[simp]
theorem get?_empty (s : Source) (place : Nat) : (empty s).get? place = none := by
  simp only [get?, empty, Array.getElem?_replicate]
  split <;> rfl

@[simp]
theorem size_put (memo : PositionMemo) (place : Nat) (p : Position) :
    (memo.put place p).slots.size = memo.slots.size := by
  simp [put]

theorem get?_put (memo : PositionMemo) (place other : Nat) (p : Position)
    (h : place < memo.slots.size) :
    (memo.put place p).get? other = if other = place then some p else memo.get? other := by
  by_cases same : place = other
  · subst same
    simp [get?, put, h]
  · simp [get?, put, same, Ne.symm same]

/-- Where to start from: the nearest place, going back, that is the first, holds an anchor or follows a
filled slot. -/
def startBefore (s : Source) (memo : PositionMemo) : Nat → Nat
  | 0 => 0
  | place + 1 =>
    if (memo.get? place).isSome || s.items[place + 1]?.any Item.isAnchor then place + 1
    else startBefore s memo place

/-- Resolves the items from a place on, each from the position before it, and remembers every position
found, up to the first fault. -/
def fill (locate : Locator) (id : String) :
    Nat → Option Position → PositionMemo → List Item → Except Fault (Option Position) × PositionMemo
  | _, before, memo, [] => (.ok before, memo)
  | place, before, memo, item :: rest =>
    match item.positionAfter locate id place before with
    | .error fault => (.error fault, memo)
    | .ok p => fill locate id (place + 1) (some p) (memo.put place p) rest

/-- The position after the item at a place, and the memo that remembers it. -/
def resolve (locate : Locator) (s : Source) (memo : PositionMemo) (place : Nat) :
    Except Fault Position × PositionMemo :=
  match memo.get? place with
  | some p => (.ok p, memo)
  | none =>
    let start := startBefore s memo place
    let before := if start = 0 then none else memo.get? (start - 1)
    match fill locate s.id start before memo ((s.items.drop start).take (place + 1 - start)) with
    | (.ok (some p), memo) => (.ok p, memo)
    | (.ok none, memo) => (.error (.missingStartPosition s.id place), memo)
    | (.error fault, memo) => (.error fault, memo)

/-- Every position remembered is the position of its item. -/
def Sound (locate : Locator) (s : Source) (memo : PositionMemo) : Prop :=
  ∀ place p, memo.get? place = some p → s.positionAfter locate place = .ok p

end PositionMemo

end ActionReplay
