import ActionReplay.Json.Printer
import ActionReplay.Json.Number
import Mathlib.Data.List.TakeDrop
import Mathlib.Data.List.TakeWhile
import Mathlib.Tactic.IntervalCases

/-!
# Integers are read back

An integer is written as its digits, after a minus if it is negative (`Number.exists_toList_render`). The
digits begin with no zero but that of zero itself (`head?_toDigits_ne`), so they are a token by themselves
(`NumberToken.ofChars?_signed`), and they are gathered into the word that they were written from
(`NumberToken.gather_toDigits`). A number is therefore read back as the integer that it was
(`Number.exists_token`), if it is an unsigned word or a signed one below zero; a signed word that is not
below zero would come back as an unsigned one.
-/

set_option autoImplicit false
set_option relaxedAutoImplicit false

namespace ActionReplay.Json

/-! ### Digits -/

/-- The digits of a number do not begin with a zero, unless it is zero. -/
theorem head?_toDigits_ne {n : Nat} (hn : 0 < n) : (Nat.toDigits 10 n).head? ≠ some '0' := by
  induction n using Nat.strongRecOn with
  | ind n ih =>
    rcases lt_or_ge n 10 with hsmall | hlarge
    · rw [Nat.toDigits_of_lt_base hsmall]
      interval_cases n <;> decide
    · have hfirst := ih (n / 10) (by omega) (by omega)
      rw [Nat.toDigits_of_base_le (by decide) hlarge]
      cases hdigits : Nat.toDigits 10 (n / 10) with
      | nil => exact absurd hdigits Nat.toDigits_ne_nil
      | cons c rest => rwa [hdigits] at hfirst

theorem le_ofDigitChars (digits : List Char) (word : Nat) : word ≤ Nat.ofDigitChars 10 digits word := by
  induction digits generalizing word with
  | nil => exact le_rfl
  | cons c rest ih =>
    have hlonger : word ≤ 10 * word + (c.toNat - '0'.toNat) := by omega
    exact hlonger.trans (ih _)

namespace NumberToken

/-- Digits whose value fits a word are gathered into it, and none are left over. -/
theorem gather_eq {word : Nat} {digits : List Char}
    (hfits : Nat.ofDigitChars 10 digits word < UInt64.size) :
    gather word digits = (Nat.ofDigitChars 10 digits word, []) := by
  induction digits generalizing word with
  | nil => rfl
  | cons c rest ih =>
    have hlonger : 10 * word + (c.toNat - '0'.toNat) < UInt64.size :=
      (le_ofDigitChars rest _).trans_lt hfits
    rw [gather, if_pos hlonger]
    exact ih hfits

theorem gather_toDigits {magnitude : Nat} (hfits : magnitude < UInt64.size) :
    gather 0 (Nat.toDigits 10 magnitude) = (magnitude, []) := by
  have hvalue : Nat.ofDigitChars 10 (Nat.toDigits 10 magnitude) 0 = magnitude :=
    Nat.ofDigitChars_ten_toDigits
  rw [gather_eq (hvalue.trans_lt hfits), hvalue]

/-- Digits, perhaps after a minus, are a token without fraction and exponent. -/
theorem ofChars?_signed (negative : Bool) (n : Nat) :
    ofChars? ((if negative then ['-'] else []) ++ Nat.toDigits 10 n) =
      some { negative, whole := Nat.toDigits 10 n, fraction := none, exponent := none } := by
  have hdigit : ∀ c ∈ Nat.toDigits 10 n, c.isDigit = true := fun _ ↦
    Nat.isDigit_of_mem_toDigits (by decide) le_rfl
  have hsign : ofSign ((if negative then ['-'] else []) ++ Nat.toDigits 10 n) =
      (negative, Nat.toDigits 10 n) := by
    cases negative with
    | true => rfl
    | false =>
      cases hdigits : Nat.toDigits 10 n with
      | nil => rfl
      | cons c rest =>
        have hc : c.isDigit = true := hdigit c (hdigits ▸ List.mem_cons_self)
        rw [if_neg Bool.false_ne_true, List.nil_append, ofSign]
        rintro _ ⟨⟩
        revert hc
        decide
  have hspan : (Nat.toDigits 10 n).span Char.isDigit = (Nat.toDigits 10 n, []) := by
    rw [List.span_eq_takeWhile_dropWhile, Prod.mk.injEq, List.takeWhile_eq_self_iff,
      List.dropWhile_eq_nil_iff]
    exact ⟨hdigit, hdigit⟩
  have hhead : Nat.toDigits 10 n = ['0'] ∨ (Nat.toDigits 10 n).head?.any (· ≠ '0') = true := by
    rcases Nat.eq_zero_or_pos n with rfl | hn
    · exact .inl rfl
    · refine .inr ?_
      have hne := head?_toDigits_ne hn
      cases hdigits : Nat.toDigits 10 n with
      | nil => exact absurd hdigits Nat.toDigits_ne_nil
      | cons c rest =>
        rw [hdigits] at hne
        simpa using hne
  rw [ofChars?, hsign]
  dsimp only
  rw [hspan]
  dsimp only
  rw [guard, if_pos hhead]
  rfl

end NumberToken

/-! ### Integers -/

namespace Number

/-- An integer that comes back as the word that it was. -/
def IsInteger : Number → Prop
  | .unsigned _ => True
  | .signed n => n < 0
  | .double _ => False

theorem toList_render_unsigned (n : UInt64) :
    (Number.unsigned n).render.toList = Nat.toDigits 10 n.toNat := by
  rw [render, Nat.toString_eq_repr, Nat.toList_repr]

theorem toList_render_signed {n : Int64} (hn : n < 0) :
    (Number.signed n).render.toList = '-' :: Nat.toDigits 10 n.toInt.natAbs := by
  have hnegative : n.toInt < 0 := Int64.lt_iff_toInt_lt.1 hn
  rw [render]
  cases hvalue : n.toInt with
  | ofNat magnitude =>
    rw [hvalue] at hnegative
    exact absurd hnegative (by simp)
  | negSucc less =>
    change ("-" ++ Nat.repr (less + 1)).toList = '-' :: Nat.toDigits 10 (less + 1)
    rw [String.toList_append, Nat.toList_repr]
    rfl

/-- An integer is written as digits, perhaps after a minus, and the token that they are stands for
it. -/
theorem exists_toList_render {n : Number} (hinteger : n.IsInteger) :
    ∃ (negative : Bool) (magnitude : Nat),
      n.render.toList = (if negative then ['-'] else []) ++ Nat.toDigits 10 magnitude ∧
        NumberToken.number?
          { negative, whole := Nat.toDigits 10 magnitude, fraction := none, exponent := none } =
            some n := by
  cases n with
  | unsigned n =>
    refine ⟨false, n.toNat, toList_render_unsigned n, ?_⟩
    rw [NumberToken.number?, NumberToken.gather_toDigits n.toNat_lt_size]
    dsimp only
    rw [if_neg (by decide), if_pos (by decide), Nat.toUInt64, UInt64.ofNat_toNat]
  | signed n =>
    have hn : n < 0 := hinteger
    have hnegative : n.toInt < 0 := Int64.lt_iff_toInt_lt.1 hn
    have hleast : -2 ^ 63 ≤ n.toInt := n.le_toInt
    have hmagnitude : -(n.toInt.natAbs : Int) = n.toInt := by omega
    have hfits : n.toInt.natAbs ≤ Nat.pow 2 63 := by
      change n.toInt.natAbs ≤ 2 ^ 63
      omega
    have hspelled : (decide (0 < n.toInt.natAbs) && decide (n.toInt.natAbs ≤ Nat.pow 2 63)) = true := by
      rw [Bool.and_eq_true, decide_eq_true_iff, decide_eq_true_iff]
      exact ⟨by omega, hfits⟩
    refine ⟨true, n.toInt.natAbs, toList_render_signed hn, ?_⟩
    rw [NumberToken.number?, NumberToken.gather_toDigits (hfits.trans_lt (by decide))]
    dsimp only
    rw [if_neg (by decide), if_neg (by decide), if_pos hspelled, hmagnitude, Int64.ofInt_toInt]
  | double x => exact hinteger.elim

/-- What an integer is written as is read as the integer. -/
theorem exists_token {n : Number} (hinteger : n.IsInteger) :
    ∃ token, NumberToken.ofChars? n.render.toList = some token ∧ token.number? = some n := by
  obtain ⟨negative, magnitude, hspelled, hnumber⟩ := exists_toList_render hinteger
  exact ⟨_, hspelled ▸ NumberToken.ofChars?_signed negative magnitude, hnumber⟩

theorem render_ne_nil {n : Number} (hinteger : n.IsInteger) : n.render.toList ≠ [] := by
  obtain ⟨negative, magnitude, hspelled, -⟩ := exists_toList_render hinteger
  rw [hspelled]
  exact List.append_ne_nil_of_right_ne_nil _ Nat.toDigits_ne_nil

theorem isDigit_of_mem_render {n : Number} (hinteger : n.IsInteger) {c : Char}
    (hc : c ∈ n.render.toList) : c.isDigit = true ∨ c = '-' := by
  obtain ⟨negative, magnitude, hspelled, -⟩ := exists_toList_render hinteger
  rw [hspelled, List.mem_append] at hc
  rcases hc with hsign | hdigit
  · split_ifs at hsign
    · exact .inr (List.mem_singleton.1 hsign)
    · cases hsign
  · exact .inl (Nat.isDigit_of_mem_toDigits (by decide) le_rfl hdigit)

end Number

end ActionReplay.Json
