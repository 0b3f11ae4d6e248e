import ActionReplay.Proofs.Contact.Turns
import Mathlib.Data.Finset.Card

/-!
# The chain that several pointers share

A touch is a contact together with the pointer that makes it, so what is down after some touches is a set
of pointers (`Touch.down`), and the downs that find this set empty can be listed
(`Touch.openings`). A timeline knows neither: it counts contacts, whichever pointer makes them, by a number
that may fall below zero. As long as every touch changes whether its pointer is down (`Touch.Proper`), the
count is that of the pointers that are down, and the tick it remembers is that of the last down that found
none (`Touch.foldl_step`). So a chain is shared exactly while two pointers are down, and it is the one that
the last such down entered (`Touch.sharedEntry_eq`).

Touches of several pointers that each take turns are proper in whatever order the pointers come
(`Touch.proper_of_alternate`), in particular tick by tick and, at a tick, pointer by pointer
(`Touch.upTo`, `Touch.proper_upTo`).
-/

set_option autoImplicit false
set_option relaxedAutoImplicit false

namespace ActionReplay

/-- A pointer makes a contact. -/
structure Touch where
  pointer : Nat
  contact : Contact
deriving DecidableEq, Inhabited

namespace Touch

variable {held : Finset Nat} {touches : List Touch} {x : Touch}

/-! ### Pointers that are down -/

/-- The pointers that are down after a touch. -/
def hold (held : Finset Nat) (x : Touch) : Finset Nat :=
  if x.contact.isDown then insert x.pointer held else held.erase x.pointer

/-- The pointers that are down after touches. -/
def down (touches : List Touch) : Finset Nat :=
  touches.foldl hold ∅

/-- The ticks of the downs that find no pointer down, if `held` are those down before the touches. -/
def openingsFrom (held : Finset Nat) : List Touch → List Tick
  | [] => []
  | x :: rest =>
    (if x.contact.isDown ∧ held = ∅ then [x.contact.tick] else []) ++ openingsFrom (hold held x) rest

/-- The ticks of the downs that find no pointer down. -/
def openings (touches : List Touch) : List Tick :=
  openingsFrom ∅ touches

/-- Every touch changes whether its pointer is down. -/
def Proper (held : Finset Nat) : List Touch → Prop
  | [] => True
  | x :: rest => (x.contact.isDown = true ↔ x.pointer ∉ held) ∧ Proper (hold held x) rest

theorem mem_hold {p : Nat} :
    p ∈ hold held x ↔ if p = x.pointer then x.contact.isDown = true else p ∈ held := by
  unfold hold
  by_cases hsame : p = x.pointer
  · cases hdown : x.contact.isDown with
    | true => simp [hsame]
    | false => simp [hsame]
  · cases hdown : x.contact.isDown with
    | true => simp [hsame]
    | false => simp [hsame]

/-- Some pointer is down only after a down that found none. -/
theorem openingsFrom_ne_nil (hempty : held = ∅) (hsome : touches.foldl hold held ≠ ∅) :
    openingsFrom held touches ≠ [] := by
  induction touches generalizing held with
  | nil => exact absurd hempty hsome
  | cons x rest ih =>
    subst hempty
    cases hdown : x.contact.isDown with
    | true =>
      rw [openingsFrom, if_pos ⟨hdown, rfl⟩]
      exact List.cons_ne_nil _ _
    | false =>
      have hnone : hold ∅ x = ∅ := by
        rw [hold, hdown, if_neg Bool.false_ne_true, Finset.erase_empty]
      rw [openingsFrom, hdown, if_neg fun h ↦ Bool.false_ne_true h.1, List.nil_append]
      exact ih hnone hsome

/-! ### Counting touches -/

/-- Assumes: a touch that changes whether its pointer is down, and a count of those that are down before
it. -/
theorem step_contact (hturn : x.contact.isDown = true ↔ x.pointer ∉ held) {count : ContactCount}
    (hbalance : count.balance = held.card) :
    count.step x.contact =
      { first := if x.contact.isDown ∧ held = ∅ then some x.contact.tick else count.first
        balance := (hold held x).card } := by
  have hnone : (held.card : Int) = 0 ↔ held = ∅ := by
    rw [Int.natCast_eq_zero, Finset.card_eq_zero]
  unfold ContactCount.step hold
  cases hdown : x.contact.isDown with
  | true =>
    have hcard := Finset.card_insert_of_notMem (hturn.1 hdown)
    simp only [if_true, true_and, hbalance, hnone, hcard, Int.natCast_succ]
  | false =>
    have hheld : x.pointer ∈ held := by
      by_contra hup
      rw [hturn.2 hup] at hdown
      cases hdown
    have hcard := Finset.card_erase_add_one hheld
    simp only [Bool.false_eq_true, if_false, false_and, hbalance, ← hcard, Int.natCast_succ,
      Int.add_sub_cancel]

/-- Assumes: touches each of which changes whether its pointer is down, and a count of those that are down
before them. After them it counts those that are down, and remembers the last down that found none. -/
theorem foldl_step (hproper : Proper held touches) {count : ContactCount}
    (hbalance : count.balance = held.card) :
    (touches.map contact).foldl ContactCount.step count =
      { first := (openingsFrom held touches).getLast?.or count.first
        balance := (touches.foldl hold held).card } := by
  induction touches generalizing held count with
  | nil =>
    obtain ⟨first, balance⟩ := count
    obtain rfl : balance = held.card := hbalance
    rfl
  | cons x rest ih =>
    obtain ⟨hturn, hrest⟩ := hproper
    rw [List.map_cons, List.foldl_cons, step_contact hturn hbalance, ih hrest rfl, openingsFrom,
      List.getLast?_append, Option.or_assoc]
    split_ifs with hopens
    · rfl
    · rfl

/-- Assumes: touches each of which changes whether its pointer is down. A chain is shared exactly if two
pointers are down after them. -/
theorem sharedEntry_eq (hproper : Proper ∅ touches) :
    (ContactCount.ofList (touches.map contact)).sharedEntry =
      if 2 ≤ (Touch.down touches).card then (openings touches).getLast? else none := by
  rw [ContactCount.ofList, foldl_step hproper rfl, ContactCount.sharedEntry, Option.or_none]
  refine if_congr ?_ rfl rfl
  exact Int.ofNat_lt

/-! ### Several pointers -/

/-- The contacts of a pointer among touches. -/
def contactsOf (p : Nat) (touches : List Touch) : List Contact :=
  (touches.filter fun x ↦ x.pointer = p).map contact

theorem contactsOf_append (p : Nat) (before later : List Touch) :
    contactsOf p (before ++ later) = contactsOf p before ++ contactsOf p later := by
  rw [contactsOf, List.filter_append, List.map_append]
  rfl

theorem contactsOf_cons_self (x : Touch) (rest : List Touch) :
    contactsOf x.pointer (x :: rest) = x.contact :: contactsOf x.pointer rest := by
  rw [contactsOf, List.filter_cons_of_pos (by simp)]
  rfl

theorem contactsOf_cons_of_ne {p : Nat} (hother : x.pointer ≠ p) (rest : List Touch) :
    contactsOf p (x :: rest) = contactsOf p rest := by
  rw [contactsOf, List.filter_cons_of_neg (by simpa using hother)]
  rfl

/-- Assumes: the contacts of every pointer alternate. Every touch changes whether its pointer is down. -/
theorem proper_of_alternate
    (halternate : ∀ p, Contact.Alternate (decide (p ∈ held)) (contactsOf p touches)) :
    Proper held touches := by
  induction touches generalizing held with
  | nil => trivial
  | cons x rest ih =>
    have hself := halternate x.pointer
    rw [contactsOf_cons_self] at hself
    obtain ⟨hturn, hlater⟩ := hself
    refine ⟨by simp [hturn], ih fun p ↦ ?_⟩
    by_cases hsame : p = x.pointer
    · have hdown : decide (p ∈ hold held x) = x.contact.isDown := by simp [mem_hold, hsame]
      rw [hdown, hsame]
      exact hlater
    · have hdown : decide (p ∈ hold held x) = decide (p ∈ held) := by simp [mem_hold, hsame]
      rw [hdown, ← contactsOf_cons_of_ne (Ne.symm hsame)]
      exact halternate p

/-- The touches of pointers, each of which makes a list of contacts. -/
def ofPointers (pointers : List (List Contact)) : List Touch :=
  pointers.zipIdx.flatMap fun x ↦ x.1.map (Touch.mk x.2)

/-- The touches up to a tick, in the order of the ticks, and at a tick as they come. -/
def upTo (touches : List Touch) (tick : Tick) : List Touch :=
  (List.range (tick + 1)).flatMap fun reached ↦ touches.filter fun x ↦ x.contact.tick = reached

theorem contact_ofPointers (pointers : List (List Contact)) :
    (ofPointers pointers).map contact = pointers.flatten := by
  have hmap (x : List Contact × Nat) : (x.1.map (Touch.mk x.2)).map contact = x.1 := by
    rw [List.map_map]
    exact List.map_id x.1
  rw [ofPointers, List.map_flatMap, List.flatMap_congr fun x _ ↦ hmap x, List.flatMap_def,
    List.zipIdx_map_fst]

theorem contactsOf_map_mk (p pointer : Nat) (contacts : List Contact) :
    contactsOf p (contacts.map (Touch.mk pointer)) = if pointer = p then contacts else [] := by
  rw [contactsOf, List.filter_map, List.map_map]
  split_ifs with hsame
  · simp [Function.comp_def, hsame]
  · simp [Function.comp_def, hsame]

/-- Pointers that are counted from a first one: one at a place makes its own contacts. -/
theorem contactsOf_zipIdx (pointers : List (List Contact)) (first place : Nat) :
    contactsOf (first + place) ((pointers.zipIdx first).flatMap fun x ↦ x.1.map (Touch.mk x.2)) =
      pointers[place]?.getD [] := by
  induction pointers generalizing first place with
  | nil => rfl
  | cons contacts rest ih =>
    rw [List.zipIdx_cons, List.flatMap_cons, contactsOf_append, contactsOf_map_mk]
    cases place with
    | zero =>
      have hlater : contactsOf (first + 0)
          ((rest.zipIdx (first + 1)).flatMap fun x ↦ x.1.map (Touch.mk x.2)) = [] := by
        rw [contactsOf, List.map_eq_nil_iff, List.filter_eq_nil_iff]
        intro touch htouch
        obtain ⟨x, hx, hmem⟩ := List.mem_flatMap.1 htouch
        obtain ⟨contact, -, rfl⟩ := List.mem_map.1 hmem
        have hle : first + 1 ≤ x.2 := List.le_snd_of_mem_zipIdx hx
        have hother : x.2 ≠ first + 0 := by omega
        simpa using hother
      rw [hlater, List.append_nil]
      exact if_pos rfl
    | succ place =>
      have hshift : first + (place + 1) = first + 1 + place := by omega
      rw [hshift, ih (first + 1) place, if_neg (by omega)]
      rfl

theorem contactsOf_ofPointers (p : Nat) (pointers : List (List Contact)) :
    contactsOf p (ofPointers pointers) = pointers[p]?.getD [] := by
  have hfrom := contactsOf_zipIdx pointers 0 p
  rwa [Nat.zero_add] at hfrom

theorem contact_upTo (touches : List Touch) (tick : Tick) :
    (upTo touches tick).map contact =
      (List.range (tick + 1)).flatMap (Contact.during (touches.map contact)) := by
  rw [upTo, List.map_flatMap]
  refine List.flatMap_congr fun reached _ ↦ ?_
  rw [Contact.during, List.filter_map]
  rfl

theorem contactsOf_upTo (p : Nat) (touches : List Touch) (tick : Tick) :
    contactsOf p (upTo touches tick) =
      (List.range (tick + 1)).flatMap (Contact.during (contactsOf p touches)) := by
  rw [contactsOf, upTo, List.filter_flatMap, List.map_flatMap]
  refine List.flatMap_congr fun reached _ ↦ ?_
  rw [Contact.during, contactsOf, List.filter_map, List.filter_filter, List.filter_filter]
  simp only [Function.comp_apply, Bool.and_comm]

/-- Assumes: pointers whose contacts alternate, in tick order. Tick by tick, every touch changes whether its
pointer is down. -/
theorem proper_upTo {pointers : List (List Contact)}
    (halternate : ∀ contacts ∈ pointers, Contact.Alternate false contacts)
    (hordered : ∀ contacts ∈ pointers, contacts.Pairwise fun a b ↦ a.tick ≤ b.tick)
    (tick : Tick) : Proper ∅ (upTo (ofPointers pointers) tick) := by
  refine proper_of_alternate fun p ↦ ?_
  rw [contactsOf_upTo, contactsOf_ofPointers]
  have hpointer : Contact.Alternate false (pointers[p]?.getD []) ∧
      (pointers[p]?.getD []).Pairwise fun a b ↦ a.tick ≤ b.tick := by
    cases hp : pointers[p]? with
    | none => exact ⟨trivial, .nil⟩
    | some contacts =>
      have hmem := List.mem_of_getElem? hp
      exact ⟨halternate contacts hmem, hordered contacts hmem⟩
  generalize pointers[p]?.getD [] = contacts at hpointer
  obtain ⟨hwhole, hticks⟩ := hpointer
  rw [← Contact.before_append hticks (tick + 1)] at hwhole
  rw [Contact.flatMap_during hticks]
  exact (Contact.alternate_append.1 hwhole).1

end Touch

end ActionReplay
