import ActionReplay.Proofs.Contact.Turns
import Mathlib.Data.List.Pairwise
import Mathlib.Data.List.Perm.Basic

/-!
# Holds

A hold lasts from a down to the next up, both ticks included, or for ever if no up comes
(`Contact.HoldsFrom`). At a tick a pointer is in a hold that began earlier if it is down before the
tick (`sinceBefore` says since when), and in one that begins at the tick if it goes down at it
(`TakeTurns.holdsFrom_iff`). Pointers are apart if no two of their holds share a tick
(`Contact.Apart`). At every tick all of them but one are then idle (`exists_only`).

The contacts of a pointer can be cut at a tick before, between or after its contacts at that tick
(`Contact.CutAt`). If the cut leaves the pointer down, the tick is in the hold that the last contact
began (`CutAt.holdsFrom`). Of pointers that are apart no two are down where they are cut at one
tick, so that their downs, counted together and in whatever order, exceed their ups by one at most
(`surplus_flatten_le_one`).
-/

set_option autoImplicit false
set_option relaxedAutoImplicit false

namespace ActionReplay.Contact

/-- The pointer goes down at one tick, and a second tick comes no earlier than that down and no
later than the next contact. -/
def HoldsFrom (contacts : List Contact) (pressed tick : Tick) : Prop :=
  ∃ earlier later, contacts = earlier ++ ⟨pressed, true⟩ :: later ∧ pressed ≤ tick ∧
    ∀ next ∈ later.head?, tick ≤ next.tick

/-- No tick is in a hold of both pointers. -/
def Apart (first second : List Contact) : Prop :=
  ∀ pressed other tick, HoldsFrom first pressed tick → ¬HoldsFrom second other tick

/-- Contacts that are cut at a tick: no contact before the cut is later, and none after it is
earlier. -/
def CutAt (tick : Tick) (contacts before : List Contact) : Prop :=
  ∃ later, contacts = before ++ later ∧ (∀ contact ∈ before, contact.tick ≤ tick) ∧
    ∀ contact ∈ later, tick ≤ contact.tick

/-- The tick of the last contact, or a tick from before if there is none. -/
def tickAfter (tick : Tick) (contacts : List Contact) : Tick :=
  contacts.foldl (fun _ contact ↦ contact.tick) tick

/-- Since when a pointer is down after contacts, if it is; `since` says it for before them. -/
def sinceAfter (since : Option Tick) (contacts : List Contact) : Option Tick :=
  contacts.foldl (fun _ contact ↦ if contact.isDown then some contact.tick else none) since

/-- Since when the pointer is down before a tick, if it is. -/
def sinceBefore (contacts : List Contact) (tick : Tick) : Option Tick :=
  sinceAfter none (before contacts tick)

/-- The pointer is up before a tick and makes no contact at it. -/
structure Idle (contacts : List Contact) (tick : Tick) : Prop where
  since : sinceBefore contacts tick = none
  during : during contacts tick = []

variable {contacts before : List Contact} {pressed tick : Tick}

/-! ### Since when a pointer is down -/

theorem isSome_sinceAfter (since : Option Tick) (contacts : List Contact) :
    (sinceAfter since contacts).isSome = downAfter since.isSome contacts := by
  induction contacts generalizing since with
  | nil => rfl
  | cons contact rest ih =>
    rw [sinceAfter, List.foldl_cons, ← sinceAfter, ih, downAfter_cons]
    cases contact.isDown with
    | true => rfl
    | false => rfl

theorem isSome_sinceBefore (contacts : List Contact) (tick : Tick) :
    (sinceBefore contacts tick).isSome = heldBefore contacts tick :=
  isSome_sinceAfter none _

theorem sinceBefore_eq_some_iff : sinceBefore contacts tick = some pressed ↔
    (Contact.before contacts tick).getLast? = some ⟨pressed, true⟩ := by
  unfold sinceBefore sinceAfter
  rcases List.eq_nil_or_concat (Contact.before contacts tick) with hnone | ⟨earlier, last, hsome⟩
  · rw [hnone]
    exact iff_of_false (Option.some_ne_none _).symm (Option.some_ne_none _).symm
  · obtain ⟨reached, isDown⟩ := last
    rw [hsome, List.concat_eq_append, List.foldl_append, List.getLast?_concat]
    cases isDown with
    | true => simp
    | false => simp

theorem lt_of_sinceBefore (hsince : sinceBefore contacts tick = some pressed) : pressed < tick := by
  have hmem := List.mem_of_getLast? (sinceBefore_eq_some_iff.1 hsince)
  exact of_decide_eq_true (List.mem_filter.1 hmem).2

theorem TakeTurns.sinceBefore_succ (hturns : TakeTurns contacts) (tick : Tick) :
    sinceBefore contacts (tick + 1) =
      sinceAfter (sinceBefore contacts tick) (during contacts tick) := by
  rw [sinceBefore, before_succ hturns.ordered]
  exact List.foldl_append

theorem tickAfter_append (tick : Tick) (before later : List Contact) :
    tickAfter tick (before ++ later) = tickAfter (tickAfter tick before) later :=
  List.foldl_append

/-! ### Ticks in a hold -/

theorem not_holdsFrom_nil : ¬HoldsFrom [] pressed tick := by
  rintro ⟨earlier, later, hnone, -⟩
  exact absurd hnone.symm (List.append_ne_nil_of_right_ne_nil _ (List.cons_ne_nil _ _))

theorem holdsFrom_cons {contact : Contact} {rest : List Contact} :
    HoldsFrom (contact :: rest) pressed tick ↔
      (contact = ⟨pressed, true⟩ ∧ pressed ≤ tick ∧ ∀ next ∈ rest.head?, tick ≤ next.tick) ∨
        HoldsFrom rest pressed tick := by
  constructor
  · rintro ⟨earlier, later, hsplit, hreached⟩
    rcases List.cons_eq_append_iff.1 hsplit with ⟨rfl, hfirst⟩ | ⟨earlier, rfl, rfl⟩
    · obtain ⟨rfl, rfl⟩ := List.cons.inj hfirst
      exact .inl ⟨rfl, hreached⟩
    · exact .inr ⟨earlier, later, rfl, hreached⟩
  · rintro (⟨rfl, hreached⟩ | ⟨earlier, later, rfl, hreached⟩)
    · exact ⟨[], rest, rfl, hreached⟩
    · exact ⟨contact :: earlier, later, rfl, hreached⟩

/-- A cut that leaves the pointer down is made in the hold that the last contact before it began. -/
theorem CutAt.holdsFrom (hcut : CutAt tick contacts before)
    (hdown : downAfter false before = true) : HoldsFrom contacts (tickAfter 0 before) tick := by
  obtain ⟨later, rfl, hbefore, hlater⟩ := hcut
  rcases List.eq_nil_or_concat before with rfl | ⟨earlier, ⟨pressed, isDown⟩, rfl⟩
  · cases hdown
  · rw [List.concat_eq_append] at hdown hbefore ⊢
    rw [downAfter_append] at hdown
    obtain rfl : isDown = true := hdown
    rw [tickAfter_append]
    refine ⟨earlier, later, (List.append_cons _ _ _).symm, ?_, ?_⟩
    · exact hbefore _ List.mem_concat_self
    · exact fun next hnext ↦ hlater next (List.mem_of_mem_head? hnext)

theorem CutAt.alternate (hcut : CutAt tick contacts before)
    (halternate : Alternate false contacts) : Alternate false before := by
  obtain ⟨later, rfl, -⟩ := hcut
  exact (alternate_append.1 halternate).1

/-- Contacts in tick order are cut after their contacts at a tick. -/
theorem cutAt_filter (hordered : contacts.Pairwise fun a b ↦ a.tick ≤ b.tick) (tick : Tick) :
    CutAt tick contacts (contacts.filter fun contact ↦ contact.tick ≤ tick) := by
  have hsame : (contacts.filter fun contact ↦ contact.tick ≤ tick) =
      Contact.before contacts (tick + 1) := by
    refine List.filter_congr fun contact _ ↦ ?_
    rw [decide_eq_decide]
    exact Nat.lt_succ_iff.symm
  refine ⟨_, hsame ▸ (before_append hordered (tick + 1)).symm, fun contact hcontact ↦ ?_,
    fun contact hcontact ↦ ?_⟩
  · exact of_decide_eq_true (List.mem_filter.1 hcontact).2
  · have hlate : tick + 1 ≤ contact.tick := of_decide_eq_true (List.mem_filter.1 hcontact).2
    exact (Nat.le_succ tick).trans hlate

/-- A tick is in a hold exactly if the pointer is down before it, since the last contact, or goes
down at it: nothing that comes after the down of a hold is before a tick of the hold. -/
theorem TakeTurns.holdsFrom_iff (hturns : TakeTurns contacts) :
    HoldsFrom contacts pressed tick ↔
      sinceBefore contacts tick = some pressed ∨
        pressed = tick ∧ (⟨tick, true⟩ : Contact) ∈ during contacts tick := by
  rw [sinceBefore_eq_some_iff, ← mem_iff_mem_during]
  constructor
  · rintro ⟨earlier, later, rfl, hle, hnext⟩
    rcases hle.eq_or_lt with rfl | hlt
    · exact .inr ⟨rfl, by simp⟩
    · left
      have hlater : Contact.before later tick = [] := by
        refine List.filter_eq_nil_iff.2 fun contact hcontact ↦ ?_
        obtain ⟨-, hordered, -⟩ := List.pairwise_append.1 hturns.ordered
        cases later with
        | nil => exact absurd hcontact List.not_mem_nil
        | cons next rest =>
          have hreached : tick ≤ next.tick := hnext next rfl
          rcases List.mem_cons.1 hcontact with rfl | hrest
          · simpa using hreached
          · have hle := (List.pairwise_cons.1 (List.pairwise_cons.1 hordered).2).1 contact hrest
            simpa using hreached.trans hle
      unfold Contact.before at hlater ⊢
      rw [List.filter_append, List.filter_cons_of_pos (by simpa using hlt), hlater,
        List.getLast?_concat]
  · rintro (hlast | ⟨rfl, hmem⟩)
    · obtain ⟨earlier, hsplit⟩ := List.getLast?_eq_some_iff.1 hlast
      refine ⟨earlier, contacts.filter fun contact ↦ tick ≤ contact.tick, ?_, ?_, ?_⟩
      · rw [List.append_cons, ← hsplit, before_append hturns.ordered]
      · have hearly : (⟨pressed, true⟩ : Contact) ∈ Contact.before contacts tick :=
          List.mem_of_getLast? hlast
        exact (of_decide_eq_true (List.mem_filter.1 hearly).2 : pressed < tick).le
      · intro next hnext
        exact of_decide_eq_true (List.mem_filter.1 (List.mem_of_mem_head? hnext)).2
    · obtain ⟨earlier, later, rfl⟩ := List.append_of_mem hmem
      refine ⟨earlier, later, rfl, le_rfl, fun next hnext ↦ ?_⟩
      obtain ⟨-, hordered, -⟩ := List.pairwise_append.1 hturns.ordered
      exact (List.pairwise_cons.1 hordered).1 next (List.mem_of_mem_head? hnext)

/-! ### Pointers that are idle -/

/-- A pointer without a hold at a tick is idle there. -/
theorem TakeTurns.idle_of_not_holds (hturns : TakeTurns contacts)
    (hnone : ∀ pressed, ¬HoldsFrom contacts pressed tick) : Idle contacts tick := by
  have hsince : sinceBefore contacts tick = none :=
    Option.eq_none_iff_forall_ne_some.2 fun pressed hsome ↦
      hnone pressed (hturns.holdsFrom_iff.2 (.inl hsome))
  have hdown : (⟨tick, true⟩ : Contact) ∉ during contacts tick := fun hmem ↦
    hnone tick (hturns.holdsFrom_iff.2 (.inr ⟨rfl, hmem⟩))
  refine ⟨hsince, ?_⟩
  have hturn := hturns.turn tick
  rw [← isSome_sinceBefore, hsince, Option.isSome_none] at hturn
  generalize during contacts tick = here, heldBefore contacts (tick + 1) = later at hturn hdown ⊢
  cases hturn with
  | rest => rfl
  | press => exact absurd List.mem_cons_self hdown
  | tap => exact absurd List.mem_cons_self hdown

theorem Idle.not_mem (hidle : Idle contacts tick) (isDown : Bool) :
    (⟨tick, isDown⟩ : Contact) ∉ contacts := by
  rw [mem_iff_mem_during, hidle.during]
  exact List.not_mem_nil

theorem Idle.heldBefore (hidle : Idle contacts tick) : heldBefore contacts tick = false := by
  rw [← isSome_sinceBefore, hidle.since]
  rfl

theorem Idle.sinceBefore_succ (hidle : Idle contacts tick) (hturns : TakeTurns contacts) :
    sinceBefore contacts (tick + 1) = none := by
  rw [hturns.sinceBefore_succ, hidle.since, hidle.during]
  rfl

theorem Idle.heldBefore_succ (hidle : Idle contacts tick) (hturns : TakeTurns contacts) :
    Contact.heldBefore contacts (tick + 1) = false := by
  rw [← isSome_sinceBefore, hidle.sinceBefore_succ hturns]
  rfl

theorem Idle.not_holdsFrom (hidle : Idle contacts tick) (hturns : TakeTurns contacts) :
    ¬HoldsFrom contacts pressed tick := by
  rw [hturns.holdsFrom_iff, hidle.since, hidle.during]
  rintro (hsome | ⟨-, hmem⟩)
  · cases hsome
  · exact List.not_mem_nil hmem

/-- Assumes: single pointers that are apart. At a tick all of them but one are idle. -/
theorem exists_only {pointers : Nat → List Contact} (hturns : ∀ p, TakeTurns (pointers p))
    (hapart : ∀ p q, p ≠ q → Apart (pointers p) (pointers q)) (tick : Tick) :
    ∃ p, ∀ q, q ≠ p → Idle (pointers q) tick := by
  by_cases hholds : ∃ p pressed, HoldsFrom (pointers p) pressed tick
  · obtain ⟨p, pressed, hp⟩ := hholds
    refine ⟨p, fun q hq ↦ (hturns q).idle_of_not_holds fun other hother ↦ ?_⟩
    exact hapart p q hq.symm _ _ _ hp hother
  · refine ⟨0, fun q _ ↦ (hturns q).idle_of_not_holds fun pressed hq ↦ ?_⟩
    exact hholds ⟨q, pressed, hq⟩

/-! ### Counting pointers that are apart -/

/-- How many more downs there are than ups. -/
def surplus (contacts : List Contact) : Int :=
  contacts.countP (fun contact ↦ contact.isDown) - contacts.countP fun contact ↦ !contact.isDown

theorem surplus_cons (contact : Contact) (rest : List Contact) :
    surplus (contact :: rest) = (if contact.isDown then 1 else -1) + surplus rest := by
  unfold surplus
  rw [List.countP_cons, List.countP_cons]
  cases contact.isDown with
  | true => simp; omega
  | false => simp; omega

theorem surplus_append (before later : List Contact) :
    surplus (before ++ later) = surplus before + surplus later := by
  unfold surplus
  rw [List.countP_append, List.countP_append]
  push_cast
  omega

theorem surplus_perm {first second : List Contact} (hperm : first.Perm second) :
    surplus first = surplus second := by
  unfold surplus
  rw [hperm.countP_eq, hperm.countP_eq]

/-- The balance of a count is the surplus of what is counted, in whatever order. -/
theorem balance_foldl_step_eq (contacts : List Contact) (count : ContactCount) :
    (contacts.foldl ContactCount.step count).balance = count.balance + surplus contacts := by
  induction contacts generalizing count with
  | nil => simp [surplus]
  | cons contact rest ih =>
    rw [List.foldl_cons, ih, surplus_cons, ContactCount.step]
    cases contact.isDown with
    | true => simp; omega
    | false => simp; omega

/-- The surplus of a single pointer is one if it is down in the end, and nothing otherwise. -/
theorem surplus_of_alternate (halternate : Alternate false contacts) :
    surplus contacts = if downAfter false contacts then 1 else 0 := by
  have hcount := balance_foldl_step halternate {}
  rw [balance_foldl_step_eq] at hcount
  simpa using hcount

/-- Assumes: a pointer that is in a hold at a tick, and others that are apart from it. Cut at the
tick, the others have no surplus. -/
theorem surplus_flatten_eq_zero {first : List Contact} {wholes cuts : List (List Contact)}
    (hcuts : List.Forall₂ (CutAt tick) wholes cuts)
    (halternate : ∀ contacts ∈ wholes, Alternate false contacts)
    (hholds : HoldsFrom first pressed tick) (hapart : ∀ contacts ∈ wholes, Apart first contacts) :
    surplus cuts.flatten = 0 := by
  induction hcuts with
  | nil => rfl
  | @cons contacts before _ _ hcut _ ih =>
    obtain ⟨hturn, hturns⟩ := List.forall_mem_cons.1 halternate
    obtain ⟨hother, hothers⟩ := List.forall_mem_cons.1 hapart
    have hup : downAfter false before = false := by
      rw [← Bool.not_eq_true]
      exact fun hdown ↦ hother _ _ _ hholds (hcut.holdsFrom hdown)
    rw [List.flatten_cons, surplus_append, surplus_of_alternate (hcut.alternate hturn), hup,
      ih hturns hothers]
    rfl

/-- Assumes: single pointers that are apart, all of them cut at one tick. Their surplus is one at
most. -/
theorem surplus_flatten_le_one {wholes cuts : List (List Contact)}
    (hcuts : List.Forall₂ (CutAt tick) wholes cuts)
    (halternate : ∀ contacts ∈ wholes, Alternate false contacts) (hapart : wholes.Pairwise Apart) :
    surplus cuts.flatten ≤ 1 := by
  induction hcuts with
  | nil => decide
  | @cons contacts before _ _ hcut hrest ih =>
    obtain ⟨hturn, hturns⟩ := List.forall_mem_cons.1 halternate
    obtain ⟨hothers, hapart⟩ := List.pairwise_cons.1 hapart
    rw [List.flatten_cons, surplus_append, surplus_of_alternate (hcut.alternate hturn)]
    cases hdown : downAfter false before with
    | false =>
      rw [if_neg Bool.false_ne_true, Int.zero_add]
      exact ih hturns hapart
    | true =>
      rw [surplus_flatten_eq_zero hrest hturns (hcut.holdsFrom hdown) hothers]
      decide

end ActionReplay.Contact
