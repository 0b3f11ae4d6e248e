import ActionReplay.Position.Memo
import Mathlib.Order.Nat
import Mathlib.Tactic.SplitIfs

/-!
# Remembered positions are the positions

What a source is asked for and in which order decides what its memo holds, but not what the memo
answers: `PositionMemo.resolve` gives the position that `Source.positionAfter` gives, and the same
fault where there is none (`resolve_eq`). A memo only has to be `Faithful`: it has a slot for each
item, and its slots hold positions of their items. The empty memo is, and resolving keeps it so.

The memo starts from a place whose position does not depend on what it does not remember, and no
anchor lies between that place and the one asked for (`not_isAnchor_of_startBefore_lt`). So a fault
on the way is a fault of the place asked for (`Source.positionAfter_add_of_error`).
-/

set_option autoImplicit false
set_option relaxedAutoImplicit false

namespace ActionReplay

variable {locate : Locator} {s : Source} {memo : PositionMemo}

/-! ### From one place to the next -/

/-- An anchor does not ask for the position before it. -/
theorem Item.positionAfter_of_isAnchor {item : Item} (hanchor : item.isAnchor = true) (id : String)
    (place : Nat) (before : Option Position) :
    item.positionAfter locate id place before = item.positionAfter locate id place none := by
  cases item with
  | pointerMove move =>
    change move.target locate id place before = move.target locate id place none
    unfold PointerMove.target
    cases horigin : move.origin with
    | viewport => rfl
    | element handle => rfl
    | pointer => simp [Item.isAnchor, horigin] at hanchor
  | pause | pointerDown | pointerUp | pointerCancel | keyDown | keyUp => cases hanchor

namespace Source

theorem positionAfter_zero {item : Item} (hitem : s.items[0]? = some item) :
    s.positionAfter locate 0 = item.positionAfter locate s.id 0 none := by
  simp only [positionAfter, hitem]

/-- A position that is known leads to the next one, also where the next item is an anchor. -/
theorem positionAfter_succ_of_ok {place : Nat} {item : Item} {before : Position}
    (hitem : s.items[place + 1]? = some item)
    (hbefore : s.positionAfter locate place = .ok before) :
    s.positionAfter locate (place + 1) =
      item.positionAfter locate s.id (place + 1) (some before) := by
  simp only [positionAfter, hitem]
  split_ifs with hanchor
  · exact (Item.positionAfter_of_isAnchor hanchor s.id (place + 1) (some before)).symm
  · rw [hbefore]
    rfl

theorem positionAfter_succ_of_isAnchor {place : Nat} {item : Item}
    (hitem : s.items[place + 1]? = some item) (hanchor : item.isAnchor = true) :
    s.positionAfter locate (place + 1) = item.positionAfter locate s.id (place + 1) none := by
  simp only [positionAfter, hitem, hanchor, if_true]

theorem positionAfter_succ_of_error {place : Nat} {item : Item} {fault : Fault}
    (hitem : s.items[place + 1]? = some item) (hanchor : item.isAnchor = false)
    (hfault : s.positionAfter locate place = .error fault) :
    s.positionAfter locate (place + 1) = .error fault := by
  simp only [positionAfter, hitem, hanchor, Bool.false_eq_true, if_false, hfault]
  rfl

/-- A fault is passed on up to the next anchor. -/
theorem positionAfter_add_of_error {place count : Nat} {fault : Fault}
    (hlast : place + count < s.items.length)
    (hanchor : ∀ k item, place < k → k ≤ place + count → s.items[k]? = some item →
      item.isAnchor = false)
    (hfault : s.positionAfter locate place = .error fault) :
    s.positionAfter locate (place + count) = .error fault := by
  induction count with
  | zero => exact hfault
  | succ count ih =>
    have hearlier := ih (by omega) fun k item hlt hle ↦ hanchor k item hlt (by omega)
    have hitem : s.items[place + count + 1]? = some s.items[place + count + 1] :=
      List.getElem?_eq_getElem hlast
    have hplain := hanchor (place + count + 1) _ (by omega) le_rfl hitem
    exact positionAfter_succ_of_error hitem hplain hearlier

end Source

namespace PositionMemo

/-! ### Faithful memos -/

/-- A memo with a slot for each item, in which every position is the position of its item. -/
structure Faithful (locate : Locator) (s : Source) (memo : PositionMemo) : Prop where
  sound : memo.Sound locate s
  size : memo.slots.size = s.items.length

theorem faithful_empty (locate : Locator) (s : Source) : (empty s).Faithful locate s := by
  refine ⟨?_, ?_⟩
  · intro place p hget
    rw [get?_empty] at hget
    cases hget
  · unfold empty
    exact Array.size_replicate

theorem Faithful.put (hmemo : memo.Faithful locate s) {place : Nat} {p : Position}
    (hplace : place < s.items.length) (hposition : s.positionAfter locate place = .ok p) :
    (memo.put place p).Faithful locate s := by
  refine ⟨?_, (size_put memo place p).trans hmemo.size⟩
  intro other q hget
  rw [get?_put memo place other p (hmemo.size.symm ▸ hplace)] at hget
  split_ifs at hget with hsame
  · cases hget
    rw [hsame]
    exact hposition
  · exact hmemo.sound other q hget

/-! ### Where the memo starts from -/

theorem startBefore_le (s : Source) (memo : PositionMemo) (place : Nat) :
    startBefore s memo place ≤ place := by
  induction place with
  | zero => exact le_rfl
  | succ place ih =>
    unfold startBefore
    split_ifs with hhere
    · exact le_rfl
    · exact ih.trans (Nat.le_succ place)

/-- The memo goes back past no anchor. -/
theorem not_isAnchor_of_startBefore_lt {place k : Nat} {item : Item}
    (hstart : startBefore s memo place < k) (hk : k ≤ place) (hitem : s.items[k]? = some item) :
    item.isAnchor = false := by
  induction place with
  | zero => omega
  | succ place ih =>
    unfold startBefore at hstart
    split_ifs at hstart with hhere
    · omega
    · rcases Nat.lt_or_eq_of_le hk with hlt | rfl
      · exact ih hstart (Nat.le_of_lt_succ hlt)
      · simp only [hitem, Option.any_some, Bool.or_eq_true, not_or, Bool.not_eq_true] at hhere
        exact hhere.2

/-- It stops at the first item, at an anchor, or after a position that it remembers. -/
theorem startBefore_cases (s : Source) (memo : PositionMemo) (place : Nat) :
    startBefore s memo place = 0 ∨ ∃ before, startBefore s memo place = before + 1 ∧
      ((∃ p, memo.get? before = some p) ∨
        ∃ item, s.items[before + 1]? = some item ∧ item.isAnchor = true) := by
  induction place with
  | zero => exact .inl rfl
  | succ place ih =>
    unfold startBefore
    split_ifs with hhere
    · refine .inr ⟨place, rfl, ?_⟩
      rcases (Bool.or_eq_true _ _).mp hhere with hfilled | hanchor
      · exact .inl (Option.isSome_iff_exists.1 hfilled)
      · exact .inr ((Option.any_eq_true _ _).1 hanchor)
    · exact ih

/-- From what a faithful memo remembers before the place where it starts, the item there gets its
position. -/
theorem Faithful.positionAfter_startBefore (hmemo : memo.Faithful locate s) (place : Nat)
    {item : Item} (hitem : s.items[startBefore s memo place]? = some item) :
    item.positionAfter locate s.id (startBefore s memo place)
        (if startBefore s memo place = 0 then none
          else memo.get? (startBefore s memo place - 1)) =
      s.positionAfter locate (startBefore s memo place) := by
  rcases startBefore_cases s memo place with hfirst | ⟨before, hstart, hwhy⟩
  · rw [hfirst] at hitem ⊢
    rw [if_pos rfl, Source.positionAfter_zero hitem]
  · rw [hstart] at hitem ⊢
    rw [if_neg (Nat.succ_ne_zero before), Nat.add_sub_cancel]
    rcases hwhy with ⟨p, hfilled⟩ | ⟨anchor, hget, hanchor⟩
    · rw [hfilled, Source.positionAfter_succ_of_ok hitem (hmemo.sound before p hfilled)]
    · obtain rfl : anchor = item := Option.some.inj (hget.symm.trans hitem)
      rw [Item.positionAfter_of_isAnchor hanchor,
        Source.positionAfter_succ_of_isAnchor hitem hanchor]

/-! ### Filling and resolving -/

/-- Assumes: the position before a place leads to the position at it, and no anchor comes after it
up to a later place. Filling the memo from the one to the other answers with the position at the
latter, or its fault. -/
theorem Faithful.fill_eq {place : Nat} (count : Nat) {before : Option Position}
    (hmemo : memo.Faithful locate s) (hlast : place + count < s.items.length)
    (hbefore : ∀ item, s.items[place]? = some item →
      item.positionAfter locate s.id place before = s.positionAfter locate place)
    (hanchor : ∀ k item, place < k → k ≤ place + count → s.items[k]? = some item →
      item.isAnchor = false) :
    ∃ later, later.Faithful locate s ∧
      fill locate s.id place before memo ((s.items.drop place).take (count + 1)) =
        ((s.positionAfter locate (place + count)).map some, later) := by
  induction count generalizing place before memo with
  | zero =>
    have hplace : place < s.items.length := hlast
    have hposition := hbefore _ (List.getElem?_eq_getElem hplace)
    rw [List.drop_eq_getElem_cons hplace, List.take_succ_cons, List.take_zero, fill, hposition,
      Nat.add_zero]
    cases hanswer : s.positionAfter locate place with
    | error fault =>
      exact ⟨memo, hmemo, rfl⟩
    | ok p =>
      exact ⟨memo.put place p, hmemo.put hplace hanswer, rfl⟩
  | succ count ih =>
    have hplace : place < s.items.length := by omega
    have hposition := hbefore _ (List.getElem?_eq_getElem hplace)
    rw [List.drop_eq_getElem_cons hplace, List.take_succ_cons, fill, hposition]
    cases hanswer : s.positionAfter locate place with
    | error fault =>
      refine ⟨memo, hmemo, ?_⟩
      rw [Source.positionAfter_add_of_error hlast hanchor hanswer]
      rfl
    | ok p =>
      have hshift : place + (count + 1) = place + 1 + count := by omega
      rw [hshift] at hlast hanchor ⊢
      refine ih (hmemo.put hplace hanswer) hlast ?_ ?_
      · intro item hitem
        exact (Source.positionAfter_succ_of_ok hitem hanswer).symm
      · intro k item hlt hle
        exact hanchor k item (Nat.lt_of_succ_lt hlt) hle

/-- A faithful memo answers with the position after an item, or the fault of asking for it, and is
faithful afterwards. -/
theorem Faithful.resolve_eq (hmemo : memo.Faithful locate s) {place : Nat}
    (hplace : place < s.items.length) :
    ∃ later, later.Faithful locate s ∧
      memo.resolve locate s place = (s.positionAfter locate place, later) := by
  unfold resolve
  cases hget : memo.get? place with
  | some p => exact ⟨memo, hmemo, by rw [hmemo.sound place p hget]⟩
  | none =>
    have hle := startBefore_le s memo place
    have hsum : startBefore s memo place + (place - startBefore s memo place) = place := by omega
    obtain ⟨later, hlater, hfill⟩ := hmemo.fill_eq (place - startBefore s memo place)
      (hsum.symm ▸ hplace) (fun item hitem ↦ hmemo.positionAfter_startBefore place hitem)
      fun k item hlt hk ↦ not_isAnchor_of_startBefore_lt hlt (hsum ▸ hk)
    have hcount : place + 1 - startBefore s memo place =
        place - startBefore s memo place + 1 := by omega
    refine ⟨later, hlater, ?_⟩
    rw [hsum] at hfill
    dsimp only
    rw [hcount, hfill]
    cases s.positionAfter locate place with
    | error fault => rfl
    | ok p => rfl

theorem Faithful.of_resolve (hmemo : memo.Faithful locate s) {place : Nat} {p : Position}
    {later : PositionMemo} (hplace : place < s.items.length)
    (hresolve : memo.resolve locate s place = (.ok p, later)) :
    s.positionAfter locate place = .ok p ∧ later.Faithful locate s := by
  obtain ⟨answer, hanswer, heq⟩ := hmemo.resolve_eq hplace
  rw [hresolve] at heq
  obtain ⟨hposition, rfl⟩ := Prod.mk.inj heq
  exact ⟨hposition.symm, hanswer⟩

/-- Assumes: a faithful memo that gives the positions after two items, one after the other. -/
theorem Faithful.of_resolve_succ (hmemo : memo.Faithful locate s) {place : Nat}
    {start stop : Position} {middle later : PositionMemo} (hplace : place + 1 < s.items.length)
    (hstart : memo.resolve locate s place = (.ok start, middle))
    (hstop : middle.resolve locate s (place + 1) = (.ok stop, later)) :
    s.positionAfter locate place = .ok start ∧ s.positionAfter locate (place + 1) = .ok stop ∧
      later.Faithful locate s := by
  obtain ⟨hfirst, hmiddle⟩ := hmemo.of_resolve (Nat.lt_of_succ_lt hplace) hstart
  obtain ⟨hlast, hlater⟩ := hmiddle.of_resolve hplace hstop
  exact ⟨hfirst, hlast, hlater⟩

end PositionMemo

end ActionReplay
