import ActionReplay.Text.Octets
import Mathlib.Data.List.Basic

/-!
# UTF-8 is read back

The decoder is a machine over octets. A leading octet tells how many are to follow and bounds the next one
(`Decoder.step_lead_two`, `Decoder.step_lead_three`, `Decoder.step_lead_four`), and each octet that
follows adds six bits (`Decoder.step_next`), so octets that keep within the bounds are read as what they add
up to (`Decoder.foldlM_step_two`, `Decoder.foldlM_step_three`, `Decoder.foldlM_step_four`). The octets of a
character do, because a character is no surrogate and not past the last one
(`Decoder.foldlM_step_utf8EncodeChar`), so the octets of a text are read as the text (`decode?_encode`).
-/

set_option autoImplicit false
set_option relaxedAutoImplicit false

namespace ActionReplay.Text

theorem toNat_ofNat_octet {n : Nat} (hn : n < 256) : (UInt8.ofNat n).toNat = n :=
  UInt8.toNat_ofNat_of_lt' hn

theorem ofNat_lt_iff {n : Nat} (hn : n < 256) {octet : UInt8} :
    UInt8.ofNat n < octet ↔ n < octet.toNat := by
  rw [UInt8.lt_iff_toNat_lt, toNat_ofNat_octet hn]

theorem lt_ofNat_iff {n : Nat} (hn : n < 256) {octet : UInt8} :
    octet < UInt8.ofNat n ↔ octet.toNat < n := by
  rw [UInt8.lt_iff_toNat_lt, toNat_ofNat_octet hn]

theorem ofNat_eq_iff {n : Nat} (hn : n < 256) {octet : UInt8} :
    UInt8.ofNat n = octet ↔ n = octet.toNat := by
  rw [← UInt8.toNat_inj, toNat_ofNat_octet hn]

/-! ### One octet -/

namespace Decoder

variable (done : List Char) {n : Nat}

theorem step_ascii (hn : n < 128) :
    step { done } (UInt8.ofNat n) = some { done := Char.ofNat n :: done } := by
  have hoctet : n < 256 := by omega
  rw [step]
  simp only [ofNat_lt_iff hoctet, toNat_ofNat_octet hoctet, UInt8.reduceToNat]
  rw [if_pos hn]

theorem step_lead_two (hleast : 2 ≤ n) (hn : n < 32) :
    step { done } (UInt8.ofNat (n + 192)) = some { done, due := 1, bits := n } := by
  have hoctet : n + 192 < 256 := by omega
  rw [step]
  simp only [ofNat_lt_iff hoctet, toNat_ofNat_octet hoctet, UInt8.reduceToNat]
  rw [if_neg (by omega), if_neg (by omega), if_pos (by omega), Nat.add_sub_cancel]

/-- Of three octets the second is bounded from below after the least lead, and from above after the one
under which the surrogates are. -/
theorem step_lead_three (hn : n < 16) :
    step { done } (UInt8.ofNat (n + 224)) =
      some { done, due := 2, bits := n, least := if n = 0 then 0xa0 else 0x80,
             most := if n = 13 then 0x9f else 0xbf } := by
  have hoctet : n + 224 < 256 := by omega
  rw [step]
  simp only [ofNat_lt_iff hoctet, ofNat_eq_iff hoctet, toNat_ofNat_octet hoctet, UInt8.reduceToNat]
  rw [if_neg (by omega), if_neg (by omega), if_neg (by omega), if_pos (by omega),
    Nat.add_sub_cancel]
  simp only [Nat.add_eq_right, Nat.reduceEqDiff]

/-- Of four octets the second is bounded from below after the least lead, and from above after the
greatest. -/
theorem step_lead_four (hn : n < 5) :
    step { done } (UInt8.ofNat (n + 240)) =
      some { done, due := 3, bits := n, least := if n = 0 then 0x90 else 0x80,
             most := if n = 4 then 0x8f else 0xbf } := by
  have hoctet : n + 240 < 256 := by omega
  rw [step]
  simp only [ofNat_lt_iff hoctet, ofNat_eq_iff hoctet, toNat_ofNat_octet hoctet, UInt8.reduceToNat]
  rw [if_neg (by omega), if_neg (by omega), if_neg (by omega), if_neg (by omega),
    if_pos (by omega), Nat.add_sub_cancel]
  simp only [Nat.add_eq_right, Nat.reduceEqDiff]

/-- An octet that follows adds its six bits, and the last one ends the character. -/
theorem step_next (due bits : Nat) (least most : UInt8) (hn : n < 64)
    (hleast : least.toNat ≤ n + 128) (hmost : n + 128 ≤ most.toNat) :
    step { done, due := due + 1, bits, least, most } (UInt8.ofNat (n + 128)) =
      if due = 0 then some { done := Char.ofNat (bits * 64 + n) :: done }
      else some { done, due, bits := bits * 64 + n } := by
  have hoctet : n + 128 < 256 := by omega
  rw [step]
  simp only [ofNat_lt_iff hoctet, lt_ofNat_iff hoctet, toNat_ofNat_octet hoctet]
  have hwithin : ¬(decide (n + 128 < least.toNat) || decide (most.toNat < n + 128)) = true := by
    simp only [Bool.or_eq_true, decide_eq_true_eq]
    omega
  rw [if_neg hwithin, Nat.add_sub_cancel]

/-- Only the second octet of a character is bounded more tightly. -/
theorem step_later (due bits : Nat) (hn : n < 64) :
    step { done, due := due + 1, bits } (UInt8.ofNat (n + 128)) =
      if due = 0 then some { done := Char.ofNat (bits * 64 + n) :: done }
      else some { done, due, bits := bits * 64 + n } := by
  refine step_next done due bits 0x80 0xbf hn (Nat.le_add_left 128 n) ?_
  change n + 128 ≤ 191
  omega

/-! ### One character -/

variable {first second third last : Nat}

theorem foldlM_step_two (hleast : 2 ≤ first) (hmost : first < 32) (hlast : last < 64) :
    [UInt8.ofNat (first + 192), UInt8.ofNat (last + 128)].foldlM step { done } =
      some { done := Char.ofNat (first * 64 + last) :: done } := by
  have hend := step_later done 0 first hlast
  rw [if_pos rfl] at hend
  rw [List.foldlM_cons, step_lead_two done hleast hmost, Option.bind_eq_bind, Option.bind_some,
    List.foldlM_cons, hend]
  rfl

/-- Assumes: three octets that spell neither less than two octets could nor a surrogate. -/
theorem foldlM_step_three (hfirst : first < 16) (hsecond : second < 64) (hlast : last < 64)
    (hshortest : first = 0 → 32 ≤ second) (hsurrogate : first = 13 → second < 32) :
    [UInt8.ofNat (first + 224), UInt8.ofNat (second + 128), UInt8.ofNat (last + 128)].foldlM step
        { done } =
      some { done := Char.ofNat ((first * 64 + second) * 64 + last) :: done } := by
  have hleast : (if first = 0 then (0xa0 : UInt8) else 0x80).toNat ≤ second + 128 := by
    split_ifs with hzero
    · exact Nat.add_le_add_right (hshortest hzero) 128
    · exact Nat.le_add_left 128 second
  have hmost : second + 128 ≤ (if first = 13 then (0x9f : UInt8) else 0xbf).toNat := by
    split_ifs with hlead
    · exact Nat.add_le_add_right (Nat.le_of_lt_succ (hsurrogate hlead)) 128
    · exact Nat.add_le_add_right (Nat.le_of_lt_succ hsecond) 128
  have hnext := step_next done 1 first _ _ hsecond hleast hmost
  have hend := step_later done 0 (first * 64 + second) hlast
  rw [if_neg Nat.one_ne_zero] at hnext
  rw [if_pos rfl] at hend
  rw [List.foldlM_cons, step_lead_three done hfirst, Option.bind_eq_bind, Option.bind_some,
    List.foldlM_cons, hnext, Option.bind_eq_bind, Option.bind_some, List.foldlM_cons, hend]
  rfl

/-- Assumes: four octets that spell neither less than three octets could nor more than the last
character. -/
theorem foldlM_step_four (hfirst : first < 5) (hsecond : second < 64) (hthird : third < 64)
    (hlast : last < 64) (hshortest : first = 0 → 16 ≤ second) (hgreatest : first = 4 → second < 16) :
    [UInt8.ofNat (first + 240), UInt8.ofNat (second + 128), UInt8.ofNat (third + 128),
        UInt8.ofNat (last + 128)].foldlM step { done } =
      some { done := Char.ofNat (((first * 64 + second) * 64 + third) * 64 + last) :: done } := by
  have hleast : (if first = 0 then (0x90 : UInt8) else 0x80).toNat ≤ second + 128 := by
    split_ifs with hzero
    · exact Nat.add_le_add_right (hshortest hzero) 128
    · exact Nat.le_add_left 128 second
  have hmost : second + 128 ≤ (if first = 4 then (0x8f : UInt8) else 0xbf).toNat := by
    split_ifs with hlead
    · exact Nat.add_le_add_right (Nat.le_of_lt_succ (hgreatest hlead)) 128
    · exact Nat.add_le_add_right (Nat.le_of_lt_succ hsecond) 128
  have hnext := step_next done 2 first _ _ hsecond hleast hmost
  have hlater := step_later done 1 (first * 64 + second) hthird
  have hend := step_later done 0 ((first * 64 + second) * 64 + third) hlast
  rw [if_neg (Nat.succ_ne_zero 1)] at hnext
  rw [if_neg Nat.one_ne_zero] at hlater
  rw [if_pos rfl] at hend
  rw [List.foldlM_cons, step_lead_four done hfirst, Option.bind_eq_bind, Option.bind_some,
    List.foldlM_cons, hnext, Option.bind_eq_bind, Option.bind_some, List.foldlM_cons, hlater,
    Option.bind_eq_bind, Option.bind_some, List.foldlM_cons, hend]
  rfl

/-- The octets of a character are read as the character. -/
theorem foldlM_step_utf8EncodeChar (c : Char) :
    (String.utf8EncodeChar c).foldlM step { done } = some { done := c :: done } := by
  have hchar : Char.ofNat c.val.toNat = c := Char.ofNat_toNat c
  have hvalid : c.val.toNat < 0xd800 ∨ 0xdfff < c.val.toNat ∧ c.val.toNat < 0x110000 := c.valid
  rw [String.utf8EncodeChar]
  generalize c.val.toNat = v at hchar hvalid
  have hmod : ∀ k, k % 64 < 64 := fun k ↦ Nat.mod_lt k (by decide)
  split_ifs with hone htwo hthree
  · rw [List.foldlM_cons, step_ascii done (by omega), hchar]
    rfl
  · have hlead : v / 64 % 32 = v / 64 := by omega
    have hvalue : v / 64 * 64 + v % 64 = v := by omega
    rw [hlead, foldlM_step_two done (by omega) (by omega) (hmod v), hvalue, hchar]
  · have hlead : v / 4096 % 16 = v / 4096 := by omega
    have hvalue : (v / 4096 * 64 + v / 64 % 64) * 64 + v % 64 = v := by omega
    have hshortest : v / 4096 = 0 → 32 ≤ v / 64 % 64 := by omega
    have hsurrogate : v / 4096 = 13 → v / 64 % 64 < 32 := by omega
    rw [hlead, foldlM_step_three done (by omega) (hmod _) (hmod _) hshortest hsurrogate, hvalue, hchar]
  · have hlead : v / 262144 % 8 = v / 262144 := by omega
    have hvalue : ((v / 262144 * 64 + v / 4096 % 64) * 64 + v / 64 % 64) * 64 + v % 64 = v := by omega
    have hshortest : v / 262144 = 0 → 16 ≤ v / 4096 % 64 := by omega
    have hgreatest : v / 262144 = 4 → v / 4096 % 64 < 16 := by omega
    rw [hlead, foldlM_step_four done (by omega) (hmod _) (hmod _) (hmod _) hshortest hgreatest, hvalue,
      hchar]

end Decoder

/-! ### Texts -/

theorem foldlM_step_flatMap (cs done : List Char) :
    (cs.flatMap String.utf8EncodeChar).foldlM Decoder.step { done } =
      some { done := cs.reverse ++ done } := by
  induction cs generalizing done with
  | nil => rfl
  | cons c rest ih =>
    rw [List.flatMap_cons, List.foldlM_append, Decoder.foldlM_step_utf8EncodeChar,
      Option.bind_eq_bind, Option.bind_some, ih, List.reverse_cons, List.append_assoc]
    rfl

/-- The octets of a text spell the text. -/
theorem decode?_encode (s : String) : decode? (encode s) = some s := by
  rw [decode?, decodeChars?, encode, foldlM_step_flatMap]
  simp

/-! ### Octets outside ASCII -/

/-- No octet of a character outside ASCII is that of an ASCII character. -/
theorem le_of_mem_utf8EncodeChar {c : Char} (hc : 128 ≤ c.toNat) {octet : UInt8}
    (hoctet : octet ∈ String.utf8EncodeChar c) : 128 ≤ octet.toNat := by
  have hlarge : ∀ {n}, n < 256 → 128 ≤ n → 128 ≤ (UInt8.ofNat n).toNat := by
    intro n hn hle
    rwa [toNat_ofNat_octet hn]
  rw [String.utf8EncodeChar] at hoctet
  change 128 ≤ c.val.toNat at hc
  split_ifs at hoctet with hone htwo hthree
  · omega
  · simp only [List.mem_cons, List.not_mem_nil, or_false] at hoctet
    rcases hoctet with rfl | rfl <;> exact hlarge (by omega) (by omega)
  · simp only [List.mem_cons, List.not_mem_nil, or_false] at hoctet
    rcases hoctet with rfl | rfl | rfl <;> exact hlarge (by omega) (by omega)
  · simp only [List.mem_cons, List.not_mem_nil, or_false] at hoctet
    rcases hoctet with rfl | rfl | rfl | rfl <;> exact hlarge (by omega) (by omega)

theorem utf8EncodeChar_ascii {c : Char} (hc : c.toNat < 128) :
    String.utf8EncodeChar c = [UInt8.ofNat c.toNat] :=
  if_pos (Nat.le_of_lt_succ hc)

end ActionReplay.Text
