import ActionReplay.Proofs.Text.Octets
import Mathlib.Algebra.Group.Nat.Defs
import Mathlib.Tactic.SplitIfs

/-!
# Texts compared octet by octet

UTF-8 can be compared without being decoded. A text begins another exactly if its octets begin those of the
other (`encode_prefix_iff`), so where a text is cut at an octet (`before?`), it is cut between two characters
or not at all (`before?_eq_some`, `before?_within`).

Octets also come in the order of the texts that they spell (`encode_lt_encode_iff`). A character is written
to base 64, its greatest digit first and in an octet that tells how many are to follow
(`utf8EncodeChar_eq`). Of two characters the smaller one has the smaller first octet, or the same one and
smaller digits after it (`lead_lt_or`), which octets compare from the first on (`nextOctets_append_lt`).

Capital letters of ASCII are made small in the octets as in the text (`map_toAsciiLower_encode`), because
no other character has an octet of theirs.
-/

set_option autoImplicit false
set_option relaxedAutoImplicit false

namespace ActionReplay.Text

/-! ### Where a text begins another -/

theorem toByteArray_encode (s : String) : (encode s).toByteArray = s.toByteArray :=
  String.utf8Encode_toList

theorem length_encode (s : String) : (encode s).length = s.utf8ByteSize := by
  rw [← String.size_toByteArray, ← toByteArray_encode, List.size_toByteArray]

theorem encode_append (s t : String) : encode (s ++ t) = encode s ++ encode t := by
  rw [encode, String.toList_append, List.flatMap_append]
  rfl

theorem encode_prefix_iff {s t : String} : encode s <+: encode t ↔ s.toList <+: t.toList := by
  constructor
  · rintro ⟨rest, hrest⟩
    refine List.isPrefix_of_utf8Encode_append_eq_utf8Encode rest.toByteArray ?_
    rw [String.utf8Encode_toList, String.utf8Encode_toList, ← toByteArray_encode,
      ← toByteArray_encode, ← List.toByteArray_append, hrest]
  · rintro ⟨rest, hrest⟩
    rw [encode, encode, ← hrest, List.flatMap_append]
    exact List.prefix_append _ _

/-- The text before an octet, unless the octet is past the end or within a character. -/
def before? (octet : Nat) (s : String) : Option String :=
  (s.pos? ⟨octet⟩).map fun place ↦ (s.sliceTo place).copy

theorem pos?_eq_some {octet : Nat} {s : String} {place : s.Pos} :
    s.pos? ⟨octet⟩ = some place ↔ place.offset = ⟨octet⟩ := by
  rw [String.pos?, String.Slice.pos?]
  constructor
  · intro hplace
    split_ifs at hplace
    · cases hplace
      rfl
    · cases hplace
  · intro hoffset
    have hvalid : String.Pos.Raw.isValidForSlice s.toSlice ⟨octet⟩ = true := by
      simpa [hoffset] using place.isValid
    rw [dif_pos hvalid, Option.map_some]
    exact congrArg some (String.Pos.ext hoffset.symm)

theorem before?_eq_some {octet : Nat} {s head : String} :
    before? octet s = some head ↔ head.utf8ByteSize = octet ∧ ∃ rest, s = head ++ rest := by
  simp only [before?, Option.map_eq_some_iff, pos?_eq_some]
  constructor
  · rintro ⟨place, hoffset, rfl⟩
    refine ⟨?_, (s.sliceFrom place).copy, String.sliceTo_append_sliceFrom.symm⟩
    rw [String.Slice.utf8ByteSize_copy, String.utf8ByteSize_sliceTo, hoffset]
  · rintro ⟨hsize, rest, rfl⟩
    have hend : (⟨octet⟩ : String.Pos.Raw) = head.rawEndPos := congrArg String.Pos.Raw.mk hsize.symm
    have hvalid := String.Pos.Raw.isValid_iff_exists_append.2 ⟨head, rest, rfl, hend⟩
    refine ⟨(head ++ rest).pos _ hvalid, String.offset_pos, ?_⟩
    exact (String.Pos.splits _).eq_left ⟨rfl, String.offset_pos.trans hend⟩

theorem before?_eq_none {octet : Nat} {s : String} :
    before? octet s = none ↔ ¬(⟨octet⟩ : String.Pos.Raw).IsValid s := by
  rw [Option.eq_none_iff_forall_ne_some, String.Pos.Raw.isValid_iff_exists_append, not_exists]
  refine forall_congr' fun head ↦ not_congr (before?_eq_some.trans ?_)
  rw [← exists_and_left]
  refine exists_congr fun rest ↦ and_comm.trans (and_congr_right fun _ ↦ ?_)
  rw [String.Pos.Raw.ext_iff, String.byteIdx_rawEndPos, eq_comm]

theorem before?_past {octet : Nat} {s : String} (hpast : s.utf8ByteSize < octet) :
    before? octet s = none :=
  before?_eq_none.2 fun hvalid ↦ Nat.not_le.2 hpast hvalid.le_rawEndPos

/-- A character that stands across an octet has no text before that octet. -/
theorem before?_within {octet : Nat} {before after : String} {c : Char}
    (hstart : before.utf8ByteSize < octet) (hend : octet < before.utf8ByteSize + c.utf8Size) :
    before? octet (before ++ String.singleton c ++ after) = none := by
  rw [before?_eq_none, String.Pos.Raw.isValid_append, String.Pos.Raw.isValid_append,
    String.Pos.Raw.isValid_singleton]
  rintro ((hvalid | ⟨-, hzero | hsize⟩) | ⟨hbehind, -⟩)
  · exact Nat.not_le.2 hstart hvalid.le_rawEndPos
  · have hgap : octet - before.utf8ByteSize = 0 := congrArg String.Pos.Raw.byteIdx hzero
    omega
  · have hgap : octet - before.utf8ByteSize = c.utf8Size := hsize
    omega
  · have hle : (before ++ String.singleton c).utf8ByteSize ≤ octet := hbehind
    rw [String.utf8ByteSize_append, String.utf8ByteSize_singleton] at hle
    omega

/-! ### The order of octets -/

/-- How many octets follow the first one of a character. -/
def followers (v : Nat) : Nat :=
  if v ≤ 0x7f then 0 else if v ≤ 0x7ff then 1 else if v ≤ 0xffff then 2 else 3

/-- The first octet of a character. -/
def lead (v : Nat) : Nat :=
  if v ≤ 0x7f then v
  else if v ≤ 0x7ff then v / 64 + 192
  else if v ≤ 0xffff then v / 4096 + 224
  else v / 262144 + 240

/-- The octets of the last digits of a character to base 64. -/
def nextOctets : Nat → Nat → List UInt8
  | 0, _ => []
  | count + 1, v => UInt8.ofNat (v / 64 ^ count % 64 + 128) :: nextOctets count v

theorem utf8EncodeChar_eq (c : Char) :
    String.utf8EncodeChar c = UInt8.ofNat (lead c.toNat) :: nextOctets (followers c.toNat) c.toNat := by
  have hvalid : c.val.toNat < 0xd800 ∨ 0xdfff < c.val.toNat ∧ c.val.toNat < 0x110000 := c.valid
  change _ = UInt8.ofNat (lead c.val.toNat) :: nextOctets (followers c.val.toNat) c.val.toNat
  rw [String.utf8EncodeChar, lead, followers]
  generalize c.val.toNat = v at hvalid
  split_ifs
  · rfl
  · have hlead : v / 64 % 32 = v / 64 := by omega
    simp [nextOctets, hlead]
  · have hlead : v / 4096 % 16 = v / 4096 := by omega
    simp [nextOctets, hlead]
  · have hlead : v / 262144 % 8 = v / 262144 := by omega
    simp [nextOctets, hlead]

theorem lead_lt (c : Char) : lead c.toNat < 256 := by
  have hvalid : c.val.toNat < 0xd800 ∨ 0xdfff < c.val.toNat ∧ c.val.toNat < 0x110000 := c.valid
  change lead c.val.toNat < 256
  unfold lead
  split_ifs <;> omega

theorem lead_lt_or {v w : Nat} (hlt : v < w) :
    lead v < lead w ∨
      lead v = lead w ∧ followers v = followers w ∧ v % 64 ^ followers w < w % 64 ^ followers w := by
  unfold lead followers
  split_ifs <;> omega

theorem cons_octet_lt {n m : Nat} (hn : n < 256) (hm : m < 256) {rest others : List UInt8}
    (hlt : n < m ∨ n = m ∧ rest < others) : UInt8.ofNat n :: rest < UInt8.ofNat m :: others := by
  rw [List.cons_lt_cons_iff, ofNat_lt_iff hn, toNat_ofNat_octet hm]
  exact hlt.imp id fun ⟨hsame, hrest⟩ ↦ ⟨congrArg UInt8.ofNat hsame, hrest⟩

/-- The first octet is a digit that counts more than all others together. -/
theorem nextOctets_append_lt {count v w : Nat} (hlt : v % 64 ^ count < w % 64 ^ count)
    (rest others : List UInt8) : nextOctets count v ++ rest < nextOctets count w ++ others := by
  induction count with
  | zero => simp [Nat.mod_one] at hlt
  | succ count ih =>
    rw [Nat.pow_succ, Nat.mod_mul, Nat.mod_mul] at hlt
    have hbound : w % 64 ^ count < 64 ^ count := Nat.mod_lt w (Nat.pow_pos (by decide))
    refine cons_octet_lt (by omega) (by omega) ?_
    rcases Nat.lt_trichotomy (v / 64 ^ count % 64) (w / 64 ^ count % 64) with hless | hsame | hmore
    · exact .inl (by omega)
    · rw [hsame] at hlt
      exact .inr ⟨by omega, ih (by omega)⟩
    · have hdigit := Nat.mul_le_mul_left (64 ^ count) hmore
      rw [Nat.mul_succ] at hdigit
      omega

/-- Characters are in the order of their octets, whatever follows them. -/
theorem utf8EncodeChar_append_lt {c d : Char} (hlt : c < d) (rest others : List UInt8) :
    String.utf8EncodeChar c ++ rest < String.utf8EncodeChar d ++ others := by
  have hvalue : c.toNat < d.toNat := hlt
  rw [utf8EncodeChar_eq, utf8EncodeChar_eq]
  refine cons_octet_lt (lead_lt c) (lead_lt d) ?_
  refine (lead_lt_or hvalue).imp id fun ⟨hlead, hsame, hdigits⟩ ↦ ⟨hlead, ?_⟩
  rw [hsame]
  exact nextOctets_append_lt hdigits rest others

theorem encode_lt_encode {s t : String} (hlt : s < t) : encode s < encode t := by
  change List.Lex (· < ·) s.toList t.toList at hlt
  unfold encode
  generalize s.toList = cs at hlt
  generalize t.toList = ds at hlt
  induction hlt with
  | nil =>
    rw [List.flatMap_nil, List.flatMap_cons, utf8EncodeChar_eq]
    exact List.nil_lt_cons _ _
  | rel hless => exact utf8EncodeChar_append_lt hless _ _
  | cons _ ih => exact List.append_left_lt ih

/-- Texts are in the order of their octets. -/
theorem encode_lt_encode_iff {s t : String} : encode s < encode t ↔ s < t := by
  refine ⟨fun hlt ↦ ?_, encode_lt_encode⟩
  by_contra hnot
  rcases eq_or_ne s t with rfl | hne
  · exact List.lt_irrefl _ hlt
  · have hless : t < s := String.not_le.1 fun hle ↦ hne (String.le_antisymm hle hnot)
    exact List.lt_asymm hlt (encode_lt_encode hless)

theorem encode_le_encode_iff {s t : String} : encode s ≤ encode t ↔ s ≤ t :=
  not_congr encode_lt_encode_iff

/-! ### Capital letters -/

theorem toAsciiLower_eq (octet : UInt8) :
    octet.toAsciiLower = if 65 ≤ octet ∧ octet ≤ 90 then octet + 32 else octet := by
  have hcapital : octet - 65 < 26 ↔ 65 ≤ octet ∧ octet ≤ 90 := by
    simp only [UInt8.lt_iff_toNat_lt, UInt8.le_iff_toNat_le, UInt8.toNat_sub, UInt8.reduceToNat]
    have hbound := octet.toNat_lt
    omega
  rw [UInt8.toAsciiLower, decide_eq_decide.2 hcapital]
  split_ifs with hletter
  · rw [decide_eq_true hletter]
    rfl
  · rw [decide_eq_false hletter]
    exact UInt8.add_zero octet

theorem toNat_toLower (c : Char) :
    c.toLower.toNat = if 65 ≤ c.toNat ∧ c.toNat ≤ 90 then c.toNat + 32 else c.toNat := by
  have hcapital : c.val ≥ 'A'.val ∧ c.val ≤ 'Z'.val ↔ 65 ≤ c.toNat ∧ c.toNat ≤ 90 := Iff.rfl
  split_ifs with hletter
  · have hmost : c.val.toNat ≤ 90 := hletter.2
    have hlower : c.toLower.toNat = (c.val + 32).toNat :=
      congrArg Char.toNat (dif_pos (hcapital.2 hletter))
    rw [hlower]
    simp only [UInt32.toNat_add, UInt32.reduceToNat]
    exact Nat.mod_eq_of_lt (by omega)
  · exact congrArg Char.toNat (dif_neg (mt hcapital.1 hletter))

theorem map_toAsciiLower_utf8EncodeChar (c : Char) :
    (String.utf8EncodeChar c).map UInt8.toAsciiLower = String.utf8EncodeChar c.toLower := by
  have hlower := toNat_toLower c
  rcases Nat.lt_or_ge c.toNat 128 with hascii | hbeyond
  · have hletter : 65 ≤ UInt8.ofNat c.toNat ∧ UInt8.ofNat c.toNat ≤ 90 ↔
        65 ≤ c.toNat ∧ c.toNat ≤ 90 := by
      rw [UInt8.le_iff_toNat_le, UInt8.le_iff_toNat_le, toNat_ofNat_octet (by omega)]
      rfl
    have hstays : c.toLower.toNat < 128 := by
      rw [hlower]
      split_ifs <;> omega
    rw [utf8EncodeChar_ascii hascii, utf8EncodeChar_ascii hstays, List.map_singleton, toAsciiLower_eq,
      hlower, apply_ite UInt8.ofNat, UInt8.ofNat_add]
    simp only [hletter]
    rfl
  · rw [if_neg (by omega), Char.toNat_inj] at hlower
    rw [hlower]
    refine (List.map_congr_left fun octet hoctet ↦ ?_).trans (List.map_id _)
    have hlarge := le_of_mem_utf8EncodeChar hbeyond hoctet
    rw [toAsciiLower_eq, if_neg fun hletter ↦ ?_, id]
    have hmost : octet.toNat ≤ 90 := hletter.2
    omega

theorem map_toAsciiLower_encode (s : String) :
    (encode s).map UInt8.toAsciiLower = encode (s.map Char.toLower) := by
  rw [encode, encode, String.toList_map, List.map_flatMap, List.flatMap_map]
  exact List.flatMap_congr fun c _ ↦ map_toAsciiLower_utf8EncodeChar c

end ActionReplay.Text
