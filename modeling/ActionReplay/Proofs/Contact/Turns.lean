import ActionReplay.Timeline.Contact
import Mathlib.Data.List.Sort
import Mathlib.Tactic.SplitIfs

/-!
# The contacts of a single pointer

A single pointer goes down and up in turn, starting with a down, in tick order, and neither goes
down nor goes up twice at one tick (`TakeTurns`). At a tick it therefore does one of six things
(`Turn`, `TakeTurns.turn`): nothing, a press, a lift, a tap, or a lift followed by a press, the
first of these both while it is up and while it is down.

Whether the pointer is held after some ticks is read off its last contact (`heldBefore`). Counted
alone, the pointer never shares a chain with another one, since no more than one pointer is down
(`sharedEntry_eq_none`).
-/

set_option autoImplicit false
set_option relaxedAutoImplicit false

namespace ActionReplay.Contact

/-! ### Taking turns -/

/-- Whether a pointer is down after contacts, if `isDown` says whether it was before. -/
def downAfter (isDown : Bool) (contacts : List Contact) : Bool :=
  contacts.foldl (fun _ contact ↦ contact.isDown) isDown

/-- Every contact changes whether the pointer is down, which it is before them if `isDown`. -/
def Alternate (isDown : Bool) : List Contact → Prop
  | [] => True
  | contact :: rest => contact.isDown = !isDown ∧ Alternate contact.isDown rest

/-- The contacts of a single pointer that is up at first: downs and ups alternate, they come in tick
order, and no two of one kind share a tick. -/
structure TakeTurns (contacts : List Contact) : Prop where
  alternate : Alternate false contacts
  ordered : contacts.Pairwise fun a b ↦ a.tick ≤ b.tick
  spaced : contacts.Pairwise fun a b ↦ a.isDown = b.isDown → a.tick < b.tick

@[simp]
theorem downAfter_nil (isDown : Bool) : downAfter isDown [] = isDown := rfl

@[simp]
theorem downAfter_cons (isDown : Bool) (contact : Contact) (rest : List Contact) :
    downAfter isDown (contact :: rest) = downAfter contact.isDown rest := rfl

theorem downAfter_append (isDown : Bool) (before later : List Contact) :
    downAfter isDown (before ++ later) = downAfter (downAfter isDown before) later :=
  List.foldl_append

/-- A pointer that is up at first is down in the end exactly when its last contact is a down. -/
theorem downAfter_false (contacts : List Contact) :
    downAfter false contacts = contacts.getLast?.any Contact.isDown := by
  rcases List.eq_nil_or_concat contacts with rfl | ⟨earlier, last, rfl⟩
  · rfl
  · rw [List.concat_eq_append, downAfter_append, List.getLast?_concat]
    rfl

theorem alternate_append {isDown : Bool} {before later : List Contact} :
    Alternate isDown (before ++ later) ↔
      Alternate isDown before ∧ Alternate (downAfter isDown before) later := by
  induction before generalizing isDown with
  | nil => simp [Alternate]
  | cons contact rest ih => simp only [List.cons_append, Alternate, ih, downAfter_cons, and_assoc]

theorem TakeTurns.nil : TakeTurns [] := ⟨trivial, .nil, .nil⟩

/-! ### Counting -/

/-- Counting the contacts of a single pointer adds one if they leave it down and takes one away if
it was down before them. -/
theorem balance_foldl_step {isDown : Bool} {contacts : List Contact}
    (halternate : Alternate isDown contacts) (count : ContactCount) :
    (contacts.foldl ContactCount.step count).balance + (if isDown then 1 else 0) =
      count.balance + if downAfter isDown contacts then 1 else 0 := by
  induction contacts generalizing isDown count with
  | nil => rfl
  | cons contact rest ih =>
    obtain ⟨hturn, hrest⟩ := halternate
    have hcount := ih hrest (count.step contact)
    rw [List.foldl_cons, downAfter_cons]
    cases hdown : contact.isDown with
    | true =>
      have hwas : isDown = false := by simpa [hdown] using hturn
      simp only [hdown, ContactCount.step, hwas, if_true, Bool.false_eq_true, if_false]
        at hcount ⊢
      omega
    | false =>
      have hwas : isDown = true := by simpa [hdown] using hturn
      simp only [hdown, ContactCount.step, hwas, if_true, Bool.false_eq_true, if_false]
        at hcount ⊢
      omega

/-- Contacts that alternate never share an entry tick: one pointer is down at most. -/
theorem sharedEntry_eq_none {contacts : List Contact} (halternate : Alternate false contacts) :
    (ContactCount.ofList contacts).sharedEntry = none := by
  have hcount := balance_foldl_step halternate {}
  have hle : (ContactCount.ofList contacts).balance ≤ 1 := by
    unfold ContactCount.ofList
    cases hdown : downAfter false contacts with
    | true =>
      simp only [hdown, if_true, Bool.false_eq_true, if_false] at hcount
      omega
    | false =>
      simp only [hdown, Bool.false_eq_true, if_false] at hcount
      omega
  exact if_neg (not_lt.2 hle)

/-! ### Tick by tick -/

/-- The contacts before a tick. -/
def before (contacts : List Contact) (tick : Tick) : List Contact :=
  contacts.filter fun contact ↦ contact.tick < tick

/-- The contacts at a tick. -/
def during (contacts : List Contact) (tick : Tick) : List Contact :=
  contacts.filter fun contact ↦ contact.tick = tick

/-- Whether the pointer is down before a tick. -/
def heldBefore (contacts : List Contact) (tick : Tick) : Bool :=
  downAfter false (before contacts tick)

/-- The pointer is down before a tick, and it went down at a tick at which it also went up. -/
def RegrippedBefore (contacts : List Contact) (tick : Tick) : Prop :=
  ∃ pressed : Tick, (before contacts tick).getLast? = some ⟨pressed, true⟩ ∧
    (⟨pressed, false⟩ : Contact) ∈ contacts

/-- The pointer is down before a tick, and the tick at which it went down did not lift it. -/
def GrippedBefore (contacts : List Contact) (tick : Tick) : Prop :=
  heldBefore contacts tick = true ∧ ¬RegrippedBefore contacts tick

/-- What a pointer does at a tick: whether it is down before, its contacts, and whether it is down
after them. -/
inductive Turn (tick : Tick) : Bool → List Contact → Bool → Prop
  | rest (isDown : Bool) : Turn tick isDown [] isDown
  | press : Turn tick false [⟨tick, true⟩] true
  | tap : Turn tick false [⟨tick, true⟩, ⟨tick, false⟩] false
  | lift : Turn tick true [⟨tick, false⟩] false
  | regrip : Turn tick true [⟨tick, false⟩, ⟨tick, true⟩] true

theorem mem_iff_mem_during (contacts : List Contact) (tick : Tick) (isDown : Bool) :
    (⟨tick, isDown⟩ : Contact) ∈ contacts ↔ ⟨tick, isDown⟩ ∈ during contacts tick := by
  simp [during]

/-- Contacts in tick order are those before a tick followed by the others. -/
theorem before_append {contacts : List Contact}
    (hordered : contacts.Pairwise fun a b ↦ a.tick ≤ b.tick) (tick : Tick) :
    before contacts tick ++ (contacts.filter fun contact ↦ tick ≤ contact.tick) = contacts := by
  induction contacts with
  | nil => rfl
  | cons contact rest ih =>
    obtain ⟨hleast, hrest⟩ := List.pairwise_cons.1 hordered
    by_cases hearly : contact.tick < tick
    · have hkept : before (contact :: rest) tick = contact :: before rest tick := by
        simp [before, hearly]
      rw [hkept, List.filter_cons_of_neg (by simpa using hearly), List.cons_append, ih hrest]
    · have hlate : ∀ other ∈ contact :: rest, tick ≤ other.tick := by
        intro other hother
        rcases List.mem_cons.1 hother with rfl | hlater
        · exact Nat.le_of_not_lt hearly
        · exact (Nat.le_of_not_lt hearly).trans (hleast other hlater)
      have hnone : before (contact :: rest) tick = [] :=
        List.filter_eq_nil_iff.2 fun other hother ↦ by simpa using hlate other hother
      rw [hnone, List.nil_append]
      exact List.filter_eq_self.2 fun other hother ↦ by simpa using hlate other hother

theorem before_succ {contacts : List Contact}
    (hordered : contacts.Pairwise fun a b ↦ a.tick ≤ b.tick) (tick : Tick) :
    before contacts (tick + 1) = before contacts tick ++ during contacts tick := by
  have hsplit := before_append (hordered.filter fun contact ↦ contact.tick < tick + 1) tick
  have hbefore : before (before contacts (tick + 1)) tick = before contacts tick := by
    unfold before
    rw [List.filter_filter]
    apply List.filter_congr
    intro contact _
    rw [← Bool.decide_and, decide_eq_decide]
    dsimp only [Tick]
    omega
  have hduring : ((before contacts (tick + 1)).filter fun contact ↦ tick ≤ contact.tick) =
      during contacts tick := by
    unfold before during
    rw [List.filter_filter]
    apply List.filter_congr
    intro contact _
    rw [← Bool.decide_and, decide_eq_decide]
    dsimp only [Tick]
    omega
  change before (before contacts (tick + 1)) tick ++
    ((before contacts (tick + 1)).filter fun contact ↦ tick ≤ contact.tick) =
      before contacts (tick + 1) at hsplit
  rw [← hsplit, hbefore, hduring]

/-- The contacts of the ticks before a tick, one tick after another. -/
theorem flatMap_during {contacts : List Contact}
    (hordered : contacts.Pairwise fun a b ↦ a.tick ≤ b.tick) (tick : Tick) :
    (List.range tick).flatMap (during contacts) = before contacts tick := by
  induction tick with
  | zero => exact (List.filter_eq_nil_iff.2 fun contact _ ↦ by simp).symm
  | succ tick ih =>
    rw [List.range_succ, List.flatMap_append, ih, List.flatMap_singleton]
    exact (before_succ hordered tick).symm

theorem before_eq_nil {contacts : List Contact} : before contacts 0 = [] :=
  List.filter_eq_nil_iff.2 fun contact _ ↦ by simp

namespace TakeTurns

variable {contacts : List Contact}

theorem heldBefore_succ (hturns : TakeTurns contacts) (tick : Tick) :
    heldBefore contacts (tick + 1) =
      downAfter (heldBefore contacts tick) (during contacts tick) := by
  unfold heldBefore
  rw [before_succ hturns.ordered, downAfter_append]

theorem alternate_during (hturns : TakeTurns contacts) (tick : Tick) :
    Alternate (heldBefore contacts tick) (during contacts tick) := by
  have hprefix : Alternate false (before contacts (tick + 1)) := by
    have hwhole := hturns.alternate
    rw [← before_append hturns.ordered (tick + 1)] at hwhole
    exact (alternate_append.1 hwhole).1
  rw [before_succ hturns.ordered] at hprefix
  exact (alternate_append.1 hprefix).2

/-- At every tick the pointer takes one of the turns. Of three contacts the first and the third are of one
kind, so they cannot share a tick. -/
theorem turn (hturns : TakeTurns contacts) (tick : Tick) :
    Turn tick (heldBefore contacts tick) (during contacts tick)
      (heldBefore contacts (tick + 1)) := by
  have halternate := hturns.alternate_during tick
  have hspaced : (during contacts tick).Pairwise _ := hturns.spaced.filter _
  have hsame : ∀ contact ∈ during contacts tick, contact.tick = tick := fun contact hcontact ↦ by
    simpa using (List.mem_filter.1 hcontact).2
  rw [hturns.heldBefore_succ]
  generalize heldBefore contacts tick = isDown at halternate ⊢
  match hduring : during contacts tick with
  | [] => exact .rest isDown
  | [⟨at₁, down₁⟩] =>
    rw [hduring] at halternate hsame
    obtain rfl : at₁ = tick := hsame _ List.mem_cons_self
    cases isDown with
    | false =>
      obtain ⟨rfl, -⟩ := halternate
      exact .press
    | true =>
      obtain ⟨rfl, -⟩ := halternate
      exact .lift
  | [⟨at₁, down₁⟩, ⟨at₂, down₂⟩] =>
    rw [hduring] at halternate hsame
    obtain rfl : at₁ = tick := hsame ⟨at₁, down₁⟩ (by simp)
    obtain rfl : at₂ = at₁ := hsame ⟨at₂, down₂⟩ (by simp)
    cases isDown with
    | false =>
      obtain ⟨rfl, rfl, -⟩ := halternate
      exact .tap
    | true =>
      obtain ⟨rfl, rfl, -⟩ := halternate
      exact .regrip
  | first :: second :: third :: later =>
    rw [hduring] at halternate hsame hspaced
    obtain ⟨hfirst, hsecond, hthird, -⟩ := halternate
    have hkind : first.isDown = third.isDown := by simp [hthird, hsecond]
    have hlt := (List.pairwise_cons.1 hspaced).1 third (by simp) hkind
    rw [hsame first (by simp), hsame third (by simp)] at hlt
    exact absurd hlt (lt_irrefl tick)

/-- Over a tick, being held after it and going up at it balance being held before it and going down
at it. -/
theorem count_succ (hturns : TakeTurns contacts) (tick : Tick) :
    (if heldBefore contacts (tick + 1) then 1 else 0) +
        (if (⟨tick, false⟩ : Contact) ∈ contacts then 1 else 0) =
      (if heldBefore contacts tick then 1 else 0) +
        (if (⟨tick, true⟩ : Contact) ∈ contacts then 1 else 0) := by
  have hturn := hturns.turn tick
  simp only [mem_iff_mem_during contacts tick]
  generalize heldBefore contacts tick = held, during contacts tick = here,
    heldBefore contacts (tick + 1) = later at hturn ⊢
  cases hturn with
  | rest => simp
  | press => simp
  | tap => simp
  | lift => simp
  | regrip => simp

/-- At a tick there is at most one contact of each kind. -/
theorem nodup_during (hturns : TakeTurns contacts) (tick : Tick) :
    (during contacts tick).Nodup := by
  have hturn := hturns.turn tick
  generalize heldBefore contacts tick = held, during contacts tick = here,
    heldBefore contacts (tick + 1) = later at hturn ⊢
  cases hturn with
  | rest => simp
  | press => simp
  | tap => simp
  | lift => simp
  | regrip => simp

theorem getLast?_before_succ (hturns : TakeTurns contacts) (tick : Tick) :
    (before contacts (tick + 1)).getLast? =
      (during contacts tick).getLast?.or (before contacts tick).getLast? := by
  rw [before_succ hturns.ordered, List.getLast?_append]

/-- A pointer is gripped after a tick exactly when it was before or goes down at the tick, and does
not go up at it. -/
theorem grippedBefore_succ (hturns : TakeTurns contacts) (tick : Tick) :
    GrippedBefore contacts (tick + 1) ↔
      (GrippedBefore contacts tick ∨ (⟨tick, true⟩ : Contact) ∈ contacts) ∧
        (⟨tick, false⟩ : Contact) ∉ contacts := by
  have hturn := hturns.turn tick
  have hlast := hturns.getLast?_before_succ tick
  have hmem := mem_iff_mem_during contacts tick
  unfold GrippedBefore RegrippedBefore
  rw [hlast]
  generalize heldBefore contacts tick = held, hhere : during contacts tick = here,
    heldBefore contacts (tick + 1) = later at hturn hmem ⊢
  cases hturn with
  | rest => simp [hmem]
  | press =>
    have hnot : (⟨tick, false⟩ : Contact) ∉ contacts := by simp [hmem]
    simp [hmem true, hnot]
  | tap => simp [hmem]
  | lift => simp [hmem]
  | regrip =>
    have hboth : (⟨tick, false⟩ : Contact) ∈ contacts := by simp [hmem]
    simp [hboth]

theorem not_grippedBefore_zero : ¬GrippedBefore contacts 0 := by
  rintro ⟨hheld, -⟩
  rw [heldBefore, before_eq_nil] at hheld
  exact Bool.false_ne_true hheld

end TakeTurns

end ActionReplay.Contact
