import ActionReplay.Source.Fault

/-!
# Accepting sources

The rules that bind the sources of a payload together: ids are present and distinct, only pointer
sources name a pointer type and they name the same one, and every item is of a type that its source may
hold. `Source.accept` checks them source by source, and takes back what was cancelled. A cancel takes back
the item before it, and cancels in a row take back one item together: read from the end, the cancels go,
and with each run of them the next item, which is no cancel.
-/

set_option autoImplicit false
set_option relaxedAutoImplicit false

namespace ActionReplay

namespace Item

/-- What is left of the items after the ones already scanned, read backward. `cancelled` says that the
next item that is no cancel is taken back. -/
def dropCancelledBackward (cancelled : Bool) : List Item → List Item
  | [] => []
  | .pointerCancel :: rest => dropCancelledBackward true rest
  | item :: rest =>
    if cancelled then dropCancelledBackward false rest
    else item :: dropCancelledBackward false rest

/-- The items that no cancel takes back. -/
def dropCancelled (items : List Item) : List Item :=
  (dropCancelledBackward false items.reverse).reverse

end Item

namespace Source

/-- Checks one source beside the ids before it, and drops its cancelled items. -/
def acceptOne (place : Nat) (ids : List String) (s : Source) : Except Fault Source :=
  if s.id = "" then .error (.missingSourceField place .id)
  else if s.id ∈ ids then .error (.duplicateId s.id)
  else if s.pointerType.isSome && s.kind ≠ .pointer then .error (.pointerTypeOnNonPointer s.id)
  else
    match s.items.find? fun item ↦ !s.kind.allows item with
    | some item => .error (.unsupportedItem s.id s.kind item.type.name)
    | none => .ok { s with items := Item.dropCancelled s.items }

/-- Checks the sources from a place on beside the ids before them. -/
def acceptFrom : Nat → List String → List Source → Except Fault (List Source)
  | _, _, [] => .ok []
  | place, ids, s :: rest => do
    let accepted ← acceptOne place ids s
    let others ← acceptFrom (place + 1) (s.id :: ids) rest
    return accepted :: others

/-- The pointer types that sources name, each once. -/
def namedPointerTypes (sources : List Source) : List PointerType :=
  PointerType.all.filter fun type ↦ sources.any fun s ↦ s.pointerType = some type

/-- The sources as they are carried out. Accepting what was accepted changes nothing. -/
def accept (sources : List Source) : Except Fault (List Source) := do
  let accepted ← acceptFrom 0 [] sources
  let types := namedPointerTypes sources
  if 1 < types.length then .error (.mixedPointerTypes types)
  else return accepted

end Source

end ActionReplay
