import ActionReplay.Desktop.Key
import Mathlib.Data.Bool.Basic
import Mathlib.Tactic.SplitIfs

/-!
# Flags in a word

A word is known by the bits it has (`Word32.ext_has`), and words that agree on a mask are those that agree
in each of its bits (`Word32.and_eq_and_iff`). To take the bits of a mask from a wanted word
(`Word32.takeOver`) is to take them mask by mask (`Word32.takeOver_takeOver`), changes nothing exactly if
the words agree already (`Word32.takeOver_eq_self_iff`), and leaves the wanted bits alone in a word that had
no others (`Word32.takeOver_of_and_eq`).

The flag of a modifier is a single bit. So it is wanted and held, or neither, exactly if the two words
agree on it (`DesktopModifier.agree_iff`), and to turn it otherwise is to take it over
(`DesktopModifier.xor_flag`).
-/

set_option autoImplicit false
set_option relaxedAutoImplicit false

namespace ActionReplay

namespace Word32

variable {first second wanted held mask rest : UInt32} {bit : Nat}

/-- Whether a word has a bit. -/
def has (word : UInt32) (bit : Nat) : Bool :=
  word.toBitVec.getLsbD bit

theorem ext_has (hall : ∀ bit, has first bit = has second bit) : first = second :=
  UInt32.toBitVec_inj.1 (BitVec.eq_of_getLsbD_eq fun bit _ ↦ hall bit)

theorem has_zero : has 0 bit = false :=
  BitVec.getLsbD_zero

theorem has_and : has (first &&& second) bit = (has first bit && has second bit) := by
  simp [has]

theorem has_or : has (first ||| second) bit = (has first bit || has second bit) := by
  simp [has]

theorem has_xor : has (first ^^^ second) bit = (has first bit ^^ has second bit) := by
  simp [has]

theorem has_foldr_or {α : Type} (mask : α → UInt32) (masked : List α) (bit : Nat) :
    has (masked.foldr (fun a word ↦ mask a ||| word) 0) bit = masked.any fun a ↦ has (mask a) bit := by
  induction masked with
  | nil => exact has_zero
  | cons a rest ih => rw [List.foldr_cons, has_or, ih, List.any_cons]

/-- Words agree on a mask exactly if they agree in every bit of it. -/
theorem and_eq_and_iff : first &&& mask = second &&& mask ↔
    ∀ bit, has mask bit = true → has first bit = has second bit := by
  constructor
  · intro hsame bit hbit
    have hbits := congrArg (has · bit) hsame
    simpa [has_and, hbit] using hbits
  · intro hall
    refine ext_has fun bit ↦ ?_
    rw [has_and, has_and]
    cases hbit : has mask bit with
    | true => rw [hall bit hbit]
    | false => rw [Bool.and_false, Bool.and_false]

/-- Words agree on two masks together exactly if they agree on each. -/
theorem and_or_eq_and_or_iff : first &&& (mask ||| rest) = second &&& (mask ||| rest) ↔
    first &&& mask = second &&& mask ∧ first &&& rest = second &&& rest := by
  rw [and_eq_and_iff, and_eq_and_iff, and_eq_and_iff, ← forall_and]
  refine forall_congr' fun bit ↦ ?_
  rw [has_or, Bool.or_eq_true, or_imp]

/-- A word with the bits of a mask taken from another one. -/
def takeOver (mask wanted held : UInt32) : UInt32 :=
  held &&& ~~~mask ||| wanted &&& mask

theorem has_takeOver : has (takeOver mask wanted held) bit =
    if has mask bit then has wanted bit else has held bit := by
  have hlow : held.toBitVec.getLsbD bit = true → bit < 32 := BitVec.lt_of_getLsbD
  cases hbit : has mask bit with
  | true => simp_all [has, takeOver]
  | false => simp_all [has, takeOver]

theorem takeOver_zero : takeOver 0 wanted held = held :=
  ext_has fun bit ↦ by rw [has_takeOver, has_zero, if_neg Bool.false_ne_true]

theorem takeOver_takeOver :
    takeOver rest wanted (takeOver mask wanted held) = takeOver (mask ||| rest) wanted held := by
  refine ext_has fun bit ↦ ?_
  rw [has_takeOver, has_takeOver, has_takeOver, has_or]
  cases has mask bit with
  | true => rw [if_pos rfl, ite_self, Bool.true_or, if_pos rfl]
  | false => rw [if_neg Bool.false_ne_true, Bool.false_or]

theorem takeOver_eq_self_iff :
    takeOver mask wanted held = held ↔ wanted &&& mask = held &&& mask := by
  rw [and_eq_and_iff]
  constructor
  · intro hsame bit hbit
    rw [← hsame, has_takeOver, if_pos hbit]
  · intro hall
    refine ext_has fun bit ↦ ?_
    rw [has_takeOver]
    split_ifs with hbit
    · exact hall bit hbit
    · rfl

/-- Assumes: the word has no bits outside of the mask. Then it keeps none of its own. -/
theorem takeOver_of_and_eq (hheld : held &&& mask = held) :
    takeOver mask wanted held = wanted &&& mask := by
  refine ext_has fun bit ↦ ?_
  rw [has_takeOver, has_and]
  cases hbit : has mask bit with
  | true => rw [if_pos rfl, Bool.and_true]
  | false => rw [if_neg Bool.false_ne_true, ← hheld, has_and, hbit, Bool.and_false, Bool.and_false]

end Word32

namespace DesktopModifier

open Word32

variable {wanted held : UInt32}

/-- The bit that is the flag of a modifier. -/
def bit : DesktopModifier → Nat
  | .shift => 0
  | .control => 12
  | .alt => 1
  | .metaKey => 16

theorem has_flag (m : DesktopModifier) (place : Nat) :
    has m.flag place = decide (place = m.bit) := by
  have hpower : m.flag.toBitVec = BitVec.twoPow 32 m.bit := by
    cases m <;> rfl
  have hlow : m.bit < 32 := by
    cases m <;> decide
  rw [has, hpower, BitVec.getLsbD_twoPow, decide_eq_true hlow, Bool.true_and]
  exact decide_eq_decide.2 eq_comm

theorem and_flag_ne_zero_iff (m : DesktopModifier) (word : UInt32) :
    word &&& m.flag ≠ 0 ↔ has word m.bit = true := by
  have hnone : word &&& m.flag = 0 &&& m.flag ↔ has word m.bit = false := by
    rw [and_eq_and_iff]
    constructor
    · intro hall
      rw [hall m.bit (by rw [has_flag, decide_eq_true rfl]), has_zero]
    · intro hbit place hplace
      rw [has_flag, decide_eq_true_iff] at hplace
      rw [hplace, hbit, has_zero]
  rw [UInt32.zero_and] at hnone
  rw [Ne, hnone, Bool.not_eq_false]

/-- A flag is wanted and held, or neither, exactly if the two words agree on it. -/
theorem agree_iff (m : DesktopModifier) :
    ((wanted &&& m.flag ≠ 0) = (held &&& m.flag ≠ 0)) ↔
      wanted &&& m.flag = held &&& m.flag := by
  rw [eq_iff_iff, and_flag_ne_zero_iff, and_flag_ne_zero_iff, and_eq_and_iff, Bool.coe_iff_coe]
  constructor
  · intro hsame place hplace
    rw [has_flag, decide_eq_true_iff] at hplace
    rw [hplace, hsame]
  · intro hall
    exact hall m.bit (by rw [has_flag, decide_eq_true rfl])

/-- Assumes: one of the words has the flag and the other does not. To turn it is to take it over. -/
theorem xor_flag (m : DesktopModifier)
    (hdiffer : ¬ (wanted &&& m.flag ≠ 0) = (held &&& m.flag ≠ 0)) :
    held ^^^ m.flag = takeOver m.flag wanted held := by
  rw [eq_iff_iff, and_flag_ne_zero_iff, and_flag_ne_zero_iff, Bool.coe_iff_coe] at hdiffer
  refine ext_has fun place ↦ ?_
  rw [has_xor, has_takeOver, has_flag]
  by_cases hplace : place = m.bit
  · rw [hplace, decide_eq_true rfl, if_pos rfl, Bool.xor_true, Bool.eq_not_of_ne hdiffer]
  · rw [decide_eq_false hplace, Bool.xor_false, if_neg Bool.false_ne_true]

/-- The flags of some modifiers. -/
def flags (modifiers : List DesktopModifier) : UInt32 :=
  modifiers.foldr (fun m flags ↦ m.flag ||| flags) 0

end DesktopModifier

end ActionReplay
