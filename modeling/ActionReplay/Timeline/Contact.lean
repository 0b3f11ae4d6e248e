import ActionReplay.Timeline.Cue

/-!
# Contacts

Pointers going down and up, in order. Counting them tells whether more than one pointer is down, and
since when: `sharedEntry` is the tick of the last down that found no pointer down, if two or more are down
in the end.
-/

set_option autoImplicit false
set_option relaxedAutoImplicit false

namespace ActionReplay

/-- A pointer goes down or up at a tick. -/
structure Contact where
  tick : Tick
  isDown : Bool
deriving DecidableEq, Inhabited

/-- Whether a cue is a contact, and which. -/
def Cue.contact? (tick : Tick) : Cue → Option Contact
  | .motion cue =>
    match cue.action with
    | .down => some ⟨tick, true⟩
    | .up => some ⟨tick, false⟩
    | _ => none
  | .key _ => none

/-- How many pointers are down, and the tick of the last down that found none. Ups without a down may
bring the count below zero. -/
structure ContactCount where
  first : Option Tick := none
  balance : Int := 0
deriving DecidableEq, Inhabited

namespace ContactCount

def step (count : ContactCount) (contact : Contact) : ContactCount :=
  if contact.isDown then
    { first := if count.balance = 0 then some contact.tick else count.first
      balance := count.balance + 1 }
  else { count with balance := count.balance - 1 }

def ofList (contacts : List Contact) : ContactCount :=
  contacts.foldl step {}

def sharedEntry (count : ContactCount) : Option Tick :=
  if 1 < count.balance then count.first else none

end ContactCount

namespace Contact

/-- Puts a contact after all contacts at ticks that are not later. -/
def insert (contact : Contact) : List Contact → List Contact
  | [] => [contact]
  | c :: rest => if contact.tick < c.tick then contact :: c :: rest else c :: insert contact rest

end Contact

end ActionReplay
