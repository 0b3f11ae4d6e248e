import ActionReplay.Timeline.Contact
import Std.Data.TreeMap

/-!
# The timeline

All cues of a payload by tick, in the order in which they were added at each tick, and every tick that
is waited for. The contacts among the cues are kept beside them in tick order, so that `sharedEntry` does
not have to search the cues; `scannedEntry` is the same answer from the cues alone.

A timeline is seen through its `ticks`, which increase strictly, and through `cuesAt`. Adding a cue makes
its tick one of the ticks and changes the cues of no other tick; adding a rest changes no cues at all.
-/

set_option autoImplicit false
set_option relaxedAutoImplicit false

namespace ActionReplay

structure Timeline where
  cues : Std.TreeMap Tick (Array Cue) := ∅
  contacts : List Contact := []
deriving Inhabited

namespace Timeline

def empty : Timeline := {}

/-- Makes a tick one that is waited for. -/
def addRest (t : Timeline) (tick : Tick) : Timeline :=
  { t with cues := t.cues.alter tick fun cues ↦ some (cues.getD #[]) }

/-- Adds a cue after those already at its tick. -/
def add (t : Timeline) (tick : Tick) (cue : Cue) : Timeline :=
  { cues := t.cues.alter tick fun cues ↦ some ((cues.getD #[]).push cue)
    contacts := match cue.contact? tick with
      | some contact => contact.insert t.contacts
      | none => t.contacts }

/-- The ticks in increasing order. -/
def ticks (t : Timeline) : List Tick :=
  t.cues.keys

/-- The cues at a tick, in the order in which they were added. -/
def cuesAt (t : Timeline) (tick : Tick) : List Cue :=
  (t.cues.getD tick #[]).toList

/-- Every tick with its cues, in increasing order. -/
def toList (t : Timeline) : List (Tick × List Cue) :=
  t.cues.toList.map fun (tick, cues) ↦ (tick, cues.toList)

/-- The number of ticks. -/
def size (t : Timeline) : Nat :=
  t.cues.size

/-- The number of cues at all ticks together. -/
def cueCount (t : Timeline) : Nat :=
  t.toList.foldl (fun count (_, cues) ↦ count + cues.length) 0

def lastTick? (t : Timeline) : Option Tick :=
  t.ticks.getLast?

/-- If more than one pointer is down at a tick, the tick at which the first of them went down. -/
def sharedEntry (t : Timeline) (tick : Tick) : Option Tick :=
  (ContactCount.ofList (t.contacts.takeWhile fun contact ↦ contact.tick ≤ tick)).sharedEntry

/-- The contacts among the cues up to a tick, in tick order. -/
def contactsUpTo (t : Timeline) (tick : Tick) : List Contact :=
  (t.toList.filter fun (reached, _) ↦ reached ≤ tick).flatMap fun (reached, cues) ↦
    cues.filterMap (Cue.contact? reached)

/-- The shared entry, found by searching all cues. -/
def scannedEntry (t : Timeline) (tick : Tick) : Option Tick :=
  (ContactCount.ofList (t.contactsUpTo tick)).sharedEntry

/-! ### Ticks and cues -/

@[simp]
theorem cuesAt_empty (tick : Tick) : empty.cuesAt tick = [] := by
  simp [cuesAt, empty]

@[simp]
theorem cuesAt_addRest (t : Timeline) (tick other : Tick) :
    (t.addRest tick).cuesAt other = t.cuesAt other := by
  by_cases same : tick = other
  · simp [cuesAt, addRest, same, Std.TreeMap.getD_eq_getD_getElem?]
  · simp [cuesAt, addRest, Std.TreeMap.getD_alter, same]

theorem cuesAt_add (t : Timeline) (tick other : Tick) (cue : Cue) :
    (t.add tick cue).cuesAt other =
      if other = tick then t.cuesAt other ++ [cue] else t.cuesAt other := by
  by_cases same : tick = other
  · simp [cuesAt, add, same, Std.TreeMap.getD_eq_getD_getElem?]
  · simp [cuesAt, add, Std.TreeMap.getD_alter, same, Ne.symm same]

theorem mem_ticks_addRest {t : Timeline} {tick other : Tick} :
    other ∈ (t.addRest tick).ticks ↔ other = tick ∨ other ∈ t.ticks := by
  by_cases same : tick = other
  · simp [ticks, addRest, same]
  · simp [ticks, addRest, Std.TreeMap.mem_alter, same, Ne.symm same]

theorem mem_ticks_add {t : Timeline} {tick other : Tick} {cue : Cue} :
    other ∈ (t.add tick cue).ticks ↔ other = tick ∨ other ∈ t.ticks := by
  by_cases same : tick = other
  · simp [ticks, add, same]
  · simp [ticks, add, Std.TreeMap.mem_alter, same, Ne.symm same]

theorem ticks_pairwise (t : Timeline) : t.ticks.Pairwise (· < ·) :=
  t.cues.ordered_keys.imp fun h ↦ Nat.compare_eq_lt.1 h

theorem toList_eq (t : Timeline) : t.toList = t.ticks.map fun tick ↦ (tick, t.cuesAt tick) := by
  simp only [toList, ticks, ← Std.TreeMap.map_fst_toList_eq_keys, List.map_map]
  refine List.map_congr_left fun entry member ↦ ?_
  have found := Std.TreeMap.mem_toList_iff_getElem?_eq_some.1 member
  simp [cuesAt, Std.TreeMap.getD_eq_getD_getElem?, found]

end Timeline

end ActionReplay
