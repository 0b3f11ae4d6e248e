import ActionReplay.Replay.Signal

/-!
# Delivering signals

A device takes events one at a time and says of each whether it was delivered; what it says may depend on
everything it was handed before, and on the time that passed. A failure never stops the delivery, it is
only counted. A key value that is no character counts as a failure without reaching the device.
-/

set_option autoImplicit false
set_option relaxedAutoImplicit false

namespace ActionReplay

/-- A device with a memory of type `σ`, which may also change while time passes. -/
structure Device (σ : Type) where
  deliver : σ → InputEvent → Bool × σ
  elapse : Nat → σ → σ := fun _ memory ↦ memory

/-- How many deliveries were attempted, and how many of them failed. -/
structure Outcome where
  injected : Nat := 0
  failed : Nat := 0
deriving DecidableEq, Inhabited

namespace Outcome

def succeeded (o : Outcome) : Bool :=
  o.failed = 0

/-- Some attempts failed, but not all. -/
def isPartialFailure (o : Outcome) : Bool :=
  0 < o.failed && o.failed < o.injected

def record (o : Outcome) (delivered : Bool) : Outcome :=
  { injected := o.injected + 1, failed := if delivered then o.failed else o.failed + 1 }

end Outcome

namespace Device

variable {σ : Type}

def send (device : Device σ) (sent : Outcome × σ) (signal : Signal) : Outcome × σ :=
  let (outcome, memory) := sent
  match signal with
  | .event e =>
    let (delivered, memory) := device.deliver memory e
    (outcome.record delivered, memory)
  | .unknownKey _ => (outcome.record false, memory)

/-- Sends signals in order. -/
def sendAll (device : Device σ) (memory : σ) (signals : List Signal) : Outcome × σ :=
  signals.foldl device.send ({}, memory)

end Device

/-- A device that keeps every event it is handed, the latest first, and answers by a rule on the events
before and the new one. -/
def Device.recorder (answer : List InputEvent → InputEvent → Bool) : Device (List InputEvent) where
  deliver events e := (answer events e, e :: events)

end ActionReplay
