/-!
# The clock

A tick is an offset from the start of a payload in milliseconds. Sources only ever act at multiples of
`quantum`, so `align` rounds every requested duration up to one, and no source may run longer than
`longestTimeline`. An aligned duration is a multiple of the quantum, not below the requested one and less
than a quantum above it (`quantum_dvd_align`, `le_align`, `align_lt`).
-/

set_option autoImplicit false
set_option relaxedAutoImplicit false

namespace ActionReplay

abbrev Tick := Nat

/-- The distance between two neighbouring ticks at which something can happen. -/
def quantum : Nat := 5

/-- The longest timeline a payload may describe: ten minutes. -/
def longestTimeline : Nat := 600000

/-- The smallest multiple of the quantum that is not below a duration; zero where it is negative. -/
def align (duration : Int64) : Nat :=
  (duration.toInt.toNat + (quantum - 1)) / quantum * quantum

theorem quantum_dvd_align (duration : Int64) : quantum ∣ align duration :=
  Nat.dvd_mul_left _ _

theorem le_align (duration : Int64) : duration.toInt.toNat ≤ align duration := by
  simp only [align, quantum]
  omega

theorem align_lt (duration : Int64) : align duration < duration.toInt.toNat + quantum := by
  simp only [align, quantum]
  omega

end ActionReplay
