import ActionReplay.Proofs.Track.Clock
import ActionReplay.Proofs.Track.Contacts
import Mathlib.Algebra.GroupWithZero.Nat
import Mathlib.Data.List.Induction

/-!
# How long a track is

The items of a source take time one after another (`Source.span`). No track books a tick past the
end of its source. A source without input and a key source book the end by themselves, since each of
their items books the tick at which it ends (`ends_restTrack`, `ends_keyTrack`). So does a pointer
source, with one exception (`ends_or_losesEnd_pointerTrack`): a drag leaves its last sample to the
pointer item after it, and a move that takes no time books nothing. A source that ends with a drag
and such moves books nothing later than the sample before the last (`Source.LosesEnd`).
-/

set_option autoImplicit false
set_option relaxedAutoImplicit false

namespace ActionReplay

/-! ### What the items say -/

/-- The time that items take one after another. -/
def Item.spans (items : List Item) : Nat :=
  (items.map span).sum

@[simp]
theorem Item.spans_nil : Item.spans [] = 0 := rfl

@[simp]
theorem Item.spans_cons (item : Item) (rest : List Item) :
    Item.spans (item :: rest) = item.span + Item.spans rest :=
  List.sum_cons

@[simp]
theorem Item.spans_append (before later : List Item) :
    Item.spans (before ++ later) = Item.spans before + Item.spans later := by
  rw [spans, List.map_append, List.sum_append]
  rfl

/-- A move that takes no time. -/
def Item.Stays (item : Item) : Prop :=
  item.span = 0 ∧ ∃ move, item = .pointerMove move

theorem Item.spans_eq_zero {items : List Item} (hstays : ∀ item ∈ items, item.Stays) :
    Item.spans items = 0 := by
  induction items with
  | nil => rfl
  | cons item rest ih =>
    obtain ⟨hfirst, hrest⟩ := List.forall_mem_cons.1 hstays
    rw [spans_cons, hfirst.1, ih hrest]

theorem Item.quantum_dvd_span (item : Item) : quantum ∣ item.span := by
  have hduration : ∀ duration : Option Int64, quantum ∣ duration.elim 0 align := by
    intro duration
    cases duration with
    | none => exact Nat.dvd_zero _
    | some duration => exact quantum_dvd_align duration
  cases item with
  | pause duration => exact hduration duration
  | pointerMove move => exact hduration move.duration
  | pointerDown => exact Nat.dvd_zero _
  | pointerUp => exact Nat.dvd_zero _
  | pointerCancel => exact Nat.dvd_zero _
  | keyDown => exact Nat.dvd_zero _
  | keyUp => exact Nat.dvd_zero _

theorem Item.quantum_dvd_spans (items : List Item) : quantum ∣ Item.spans items := by
  induction items with
  | nil => exact Nat.dvd_zero _
  | cons item rest ih => exact Nat.dvd_add item.quantum_dvd_span ih

/-- Items that take time end with one that is no move without time, and perhaps such moves. -/
theorem Item.exists_last {items : List Item} (hlong : 0 < Item.spans items) :
    ∃ before last stays, items = before ++ last :: stays ∧ ¬last.Stays ∧
      ∀ item ∈ stays, item.Stays := by
  induction items using List.reverseRecOn with
  | nil => exact absurd hlong (lt_irrefl 0)
  | append_singleton earlier last ih =>
    by_cases hlast : last.Stays
    · have hearlier : 0 < Item.spans earlier := by
        simpa [hlast.1] using hlong
      obtain ⟨before, item, stays, rfl, hitem, hstays⟩ := ih hearlier
      refine ⟨before, item, stays ++ [last], by simp, hitem, ?_⟩
      exact List.forall_mem_append.2 ⟨hstays, List.forall_mem_singleton.2 hlast⟩
    · exact ⟨earlier, last, [], rfl, hlast, List.forall_mem_nil _⟩

namespace Source

/-- The time that the items of a source take. -/
def span (s : Source) : Nat :=
  Item.spans s.items

/-- A pointer source that ends with a drag and, after it, nothing but moves that take no time. -/
def LosesEnd (s : Source) : Prop :=
  s.kind = .pointer ∧ ∃ before move stays, s.items = before ++ .pointerMove move :: stays ∧
    before ≠ [] ∧ 0 < (Item.pointerMove move).span ∧
      (s.tool = .mouse → Contact.downAfter false (contactsFrom 0 before) = true) ∧
        stays ≠ [] ∧ ∀ item ∈ stays, item.Stays

end Source

/-! ### Bookings -/

/-- Bookings end at a tick: they book it, and none later. -/
def Booking.EndAt (bookings : List Booking) (tick : Tick) : Prop :=
  (∀ booking ∈ bookings, booking.tick ≤ tick) ∧ ∃ booking ∈ bookings, booking.tick = tick

variable {locate : Locator} {s : Source} {p : Pointer}

namespace Booking

theorem EndAt.tick_le {bookings : List Booking} {tick later : Tick} (hend : EndAt bookings tick)
    (hlater : tick ≤ later) : ∀ booking ∈ bookings, booking.tick ≤ later :=
  fun booking hbooking ↦ (hend.1 booking hbooking).trans hlater

theorem EndAt.append {early later : List Booking} {tick : Tick}
    (hearly : ∀ booking ∈ early, booking.tick ≤ tick) (hlater : EndAt later tick) :
    EndAt (early ++ later) tick := by
  obtain ⟨hle, booking, hbooking, hend⟩ := hlater
  exact ⟨List.forall_mem_append.2 ⟨hearly, hle⟩, booking, List.mem_append_right _ hbooking, hend⟩

theorem endAt_singleton (booking : Booking) : EndAt [booking] booking.tick :=
  ⟨List.forall_mem_singleton.2 le_rfl, booking, List.mem_cons_self, rfl⟩

end Booking

/-! ### Sources without a pointer -/

namespace Source

/-- The track of items of a source without input ends when they do. -/
theorem ends_restTrackFrom {place : Nat} {tick : Tick} {items : List Item} {track : List Booking}
    (htrack : s.restTrackFrom place tick items = .ok track) (hsome : items ≠ []) :
    Booking.EndAt track (tick + Item.spans items) := by
  induction items generalizing place tick track with
  | nil => exact absurd rfl hsome
  | cons item rest ih =>
    obtain ⟨span, later, rfl, -, -, hlater, rfl⟩ := restTrackFrom_cons_eq_ok.1 htrack
    rw [Item.spans_cons, ← Nat.add_assoc]
    cases rest with
    | nil =>
      cases hlater
      exact Booking.endAt_singleton _
    | cons next others =>
      refine Booking.EndAt.append (List.forall_mem_singleton.2 ?_)
        (ih hlater (List.cons_ne_nil _ _))
      exact Nat.le_add_right _ _

theorem KeyAct.tick_eq {place : Nat} {state after : KeyboardState} {item : Item}
    {booking : Booking} (hact : KeyAct s place state item booking after) :
    booking.tick = after.tick ∧ after.tick = state.tick + item.span := by
  cases hact with
  | pause => exact ⟨rfl, rfl⟩
  | press => exact ⟨rfl, rfl⟩
  | release => exact ⟨rfl, rfl⟩

/-- The track of items of a key source ends when they do. -/
theorem ends_keyTrackFrom {place : Nat} {state : KeyboardState} {items : List Item}
    {track : List Booking} (htrack : s.keyTrackFrom place state items = .ok track)
    (hsome : items ≠ []) : Booking.EndAt track (state.tick + Item.spans items) := by
  induction items generalizing place state track with
  | nil => exact absurd rfl hsome
  | cons item rest ih =>
    obtain ⟨booking, after, later, hact, hlater, rfl⟩ := keyTrackFrom_cons_eq_ok.1 htrack
    obtain ⟨htick, hafter⟩ := hact.tick_eq
    rw [Item.spans_cons, ← Nat.add_assoc, ← hafter]
    cases rest with
    | nil =>
      cases hlater
      rw [← htick]
      exact Booking.endAt_singleton booking
    | cons next others =>
      refine Booking.EndAt.append (List.forall_mem_singleton.2 ?_)
        (ih hlater (List.cons_ne_nil _ _))
      rw [htick]
      exact Nat.le_add_right _ _

/-- The track of a source without input ends when the source does, unless it has no items. -/
theorem ends_restTrack {track : List Booking} (htrack : s.restTrack = .ok track)
    (hsome : s.items ≠ []) : Booking.EndAt track s.span := by
  have hend := ends_restTrackFrom htrack hsome
  rwa [Nat.zero_add] at hend

/-- The track of a key source ends when the source does, unless it has no items. -/
theorem ends_keyTrack {track : List Booking} (htrack : s.keyTrack = .ok track)
    (hsome : s.items ≠ []) : Booking.EndAt track s.span := by
  have hend := ends_keyTrackFrom htrack hsome
  rwa [Nat.zero_add] at hend

end Source

/-! ### Acts -/

namespace Pointer

variable {line : Line} {entry : Tick} {action : CueAction} {button : UInt32}

/-- The samples of a line that takes time end a quantum before it. -/
theorem endAt_samples (hsteps : 0 < line.steps) :
    Booking.EndAt (p.samples line entry action button) (line.stopTick - quantum) := by
  obtain ⟨before, hbefore⟩ := Nat.exists_eq_succ_of_ne_zero hsteps.ne'
  have hlast : line.stopTick - quantum = line.tickAt before := by
    rw [Line.stopTick, hbefore, Line.tickAt, Line.tickAt, Nat.succ_mul, ← Nat.add_assoc,
      Nat.add_sub_cancel]
  rw [hlast]
  constructor
  · intro booking hbooking
    obtain ⟨step, hstep, rfl⟩ := List.mem_map.1 hbooking
    have hle : step ≤ before := Nat.le_of_lt_succ (hbefore ▸ List.mem_range.1 hstep)
    exact Nat.add_le_add_left (Nat.mul_le_mul_right quantum hle) line.tick
  · exact ⟨_, List.mem_map_of_mem (List.mem_range.2 (hbefore ▸ Nat.lt_succ_self before)), rfl⟩

theorem endAt_hover {tick : Tick} (hstop : line.stopTick = tick) :
    Booking.EndAt (p.hover line) tick := by
  subst hstop
  unfold hover
  split_ifs with hshort
  · exact Booking.endAt_singleton _
  · have hsteps : 0 < line.steps := Nat.lt_of_lt_of_le (by decide) (Nat.le_of_not_lt hshort)
    refine Booking.EndAt.append (List.forall_mem_append.2 ⟨?_, ?_⟩) (Booking.endAt_singleton _)
    · exact List.forall_mem_singleton.2 (line.tick_le_tickAt _)
    · exact (endAt_samples hsteps).tick_le (Nat.sub_le _ _)

/-- A drag with a closing sample ends with its line. -/
theorem endAt_drag_closing {tick : Tick} (hsteps : 0 < line.steps) (hstop : line.stopTick = tick) :
    Booking.EndAt (p.drag line entry button true) tick := by
  subst hstop
  exact Booking.EndAt.append ((endAt_samples hsteps).tick_le (Nat.sub_le _ _))
    (Booking.endAt_singleton _)

/-- A drag without a closing sample ends a quantum before its line. -/
theorem endAt_drag_open {tick : Tick} (hsteps : 0 < line.steps) (hstop : line.stopTick = tick) :
    Booking.EndAt (p.drag line entry button false) (tick - quantum) := by
  subst hstop
  unfold drag
  rw [if_neg Bool.false_ne_true, List.append_nil]
  exact endAt_samples hsteps

end Pointer

namespace Source

theorem steps_pos {duration : Int64} (hlong : quantum ≤ align duration) :
    0 < align duration / quantum :=
  Nat.div_pos hlong (by decide)

namespace PointerAct

variable {place : Nat} {next : Option Item} {state after : PointerState} {item : Item}
  {bookings : List Booking}

theorem isDown_after (hact : PointerAct locate s p place next state item bookings after) :
    after.isDown = Contact.downAfter state.isDown (item.contact? state.tick).toList := by
  rcases hact.passes_or_touches with ⟨hnone, hpasses⟩ | ⟨kind, hsome, htouches⟩
  · rw [hnone]
    exact hpasses.isDown
  · rw [hsome]
    exact htouches.isDown

/-- An act books no tick past the one it leads to. -/
theorem tick_le (hact : PointerAct locate s p place next state item bookings after) :
    ∀ booking ∈ bookings, booking.tick ≤ after.tick := by
  cases hact with
  | pause => exact (Booking.endAt_singleton _).1
  | press => exact (Booking.endAt_singleton _).1
  | lift => exact (Booking.endAt_singleton _).1
  | stay => exact List.forall_mem_nil _
  | wait => exact (Booking.endAt_singleton _).1
  | hover => exact (Pointer.endAt_hover (Pointer.Line.stopTick_of_steps rfl)).1
  | drag hduration hspan hlong =>
    cases next.any Item.showsPosition with
    | false =>
      exact (Pointer.endAt_drag_closing (steps_pos hlong) (Pointer.Line.stopTick_of_steps rfl)).1
    | true =>
      exact (Pointer.endAt_drag_open (steps_pos hlong)
        (Pointer.Line.stopTick_of_steps rfl)).tick_le (Nat.sub_le _ _)

/-- A move that takes no time changes nothing. -/
theorem eq_of_stays (hact : PointerAct locate s p place next state item bookings after)
    (hstays : item.Stays) : bookings = [] ∧ after = state := by
  obtain ⟨hspan, move, rfl⟩ := hstays
  have hshort : ∀ {span : Int64}, move.duration = some span → ¬quantum ≤ align span := by
    intro span hduration hlong
    rw [← Item.span_pointerMove hduration, hspan] at hlong
    exact absurd hlong (by decide)
  cases hact with
  | stay => exact ⟨rfl, rfl⟩
  | wait hduration _ hlong => exact absurd hlong (hshort hduration)
  | hover hduration _ hlong => exact absurd hlong (hshort hduration)
  | drag hduration _ hlong => exact absurd hlong (hshort hduration)

/-- Any other act books the tick that it leads to, unless it is a drag that leaves this to the next
item. -/
theorem ends_or_drags (hact : PointerAct locate s p place next state item bookings after)
    (hmoves : ¬item.Stays) :
    Booking.EndAt bookings after.tick ∨
      (∃ move, item = .pointerMove move) ∧ place ≠ 0 ∧ 0 < item.span ∧
        (p.tool = .mouse → state.isDown = true) ∧ next.any Item.showsPosition = true := by
  cases hact with
  | pause => exact .inl (Booking.endAt_singleton _)
  | press => exact .inl (Booking.endAt_singleton _)
  | lift => exact .inl (Booking.endAt_singleton _)
  | @stay move _ hduration _ hshort =>
    exact absurd ⟨Item.span_eq_zero_of_lt hduration hshort, move, rfl⟩ hmoves
  | wait => exact .inl (Booking.endAt_singleton _)
  | hover => exact .inl (Pointer.endAt_hover (Pointer.Line.stopTick_of_steps rfl))
  | @drag move span before start stop memo later hduration hspan hlong hfits hplace hstart hstop
      htouch =>
    cases hnext : next.any Item.showsPosition with
    | false =>
      exact .inl (Pointer.endAt_drag_closing (steps_pos hlong)
        (Pointer.Line.stopTick_of_steps rfl))
    | true =>
      refine .inr ⟨⟨move, rfl⟩, hplace ▸ Nat.succ_ne_zero before, ?_, ?_, rfl⟩
      · rw [Item.span_pointerMove hduration]
        exact Nat.lt_of_lt_of_le (by decide) hlong
      · exact fun hmouse ↦ htouch.resolve_right fun hother ↦ hother hmouse

/-- Such a drag ends a quantum before the tick that it leads to. -/
theorem leaves_end {move : PointerMove}
    (hact : PointerAct locate s p place next state (.pointerMove move) bookings after)
    (hplace : place ≠ 0) (hlong : 0 < (Item.pointerMove move).span)
    (hholds : p.tool = .mouse → state.isDown = true)
    (hnext : next.any Item.showsPosition = true) :
    Booking.EndAt bookings (after.tick - quantum) := by
  cases hact with
  | stay hduration _ hshort =>
    exact absurd (Item.span_eq_zero_of_lt hduration hshort) hlong.ne'
  | wait _ _ _ _ hfirst => exact absurd hfirst hplace
  | hover _ _ _ _ _ _ _ hup hmouse =>
    rw [hholds hmouse] at hup
    cases hup
  | drag hduration hspan hfar =>
    rw [hnext]
    exact Pointer.endAt_drag_open (steps_pos hfar) (Pointer.Line.stopTick_of_steps rfl)

end PointerAct

/-! ### Tracks of pointer sources -/

/-- Where the second of two lists of items starts, the pointer stands at the tick at which the first
ends, up or down as the contacts of the first leave it. -/
theorem exists_state_of_append {place : Nat} {state : PointerState} {before rest : List Item}
    {track : List Booking}
    (htrack : s.pointerTrackFrom locate p place state (before ++ rest) = .ok track) :
    ∃ (reached : PointerState) (early later : List Booking),
      s.pointerTrackFrom locate p (place + before.length) reached rest = .ok later ∧
        track = early ++ later ∧ (∀ booking ∈ early, booking.tick ≤ reached.tick) ∧
          reached.tick = state.tick + Item.spans before ∧
            reached.isDown =
              Contact.downAfter state.isDown (contactsFrom state.tick before) := by
  induction before generalizing place state track with
  | nil => exact ⟨state, [], track, htrack, rfl, List.forall_mem_nil _, rfl, rfl⟩
  | cons item before ih =>
    obtain ⟨bookings, after, others, hact, hothers, rfl⟩ := pointerTrackFrom_cons_eq_ok.1 htrack
    obtain ⟨reached, early, later, hlater, rfl, hearly, htick, hdown⟩ := ih hothers
    refine ⟨reached, bookings ++ early, later, ?_, (List.append_assoc _ _ _).symm, ?_, ?_, ?_⟩
    · rwa [List.length_cons, Nat.add_comm before.length 1, ← Nat.add_assoc]
    · refine List.forall_mem_append.2 ⟨?_, hearly⟩
      intro booking hbooking
      exact (hact.tick_le booking hbooking).trans (htick ▸ Nat.le_add_right _ _)
    · rw [htick, hact.tick_after, Item.spans_cons, Nat.add_assoc]
    · rw [hdown, hact.isDown_after, hact.tick_after, contactsFrom, Contact.downAfter_append]

theorem eq_nil_of_stays {place : Nat} {state : PointerState} {items : List Item}
    {track : List Booking} (htrack : s.pointerTrackFrom locate p place state items = .ok track)
    (hstays : ∀ item ∈ items, item.Stays) : track = [] := by
  induction items generalizing place state track with
  | nil =>
    cases htrack
    rfl
  | cons item rest ih =>
    obtain ⟨hfirst, hrest⟩ := List.forall_mem_cons.1 hstays
    obtain ⟨bookings, after, later, hact, hlater, rfl⟩ := pointerTrackFrom_cons_eq_ok.1 htrack
    rw [(hact.eq_of_stays hfirst).1, ih hlater hrest]
    rfl

/-- Assumes: a pointer source whose items are some items, one more, and moves that take no time. Its
track ends with what it books for the one. -/
theorem exists_act_of_items_eq {before stays : List Item} {last : Item} {track : List Booking}
    (htrack : s.pointerTrack locate 0 = .ok track) (hitems : s.items = before ++ last :: stays)
    (hstays : ∀ item ∈ stays, item.Stays) :
    ∃ (reached after : PointerState) (early bookings : List Booking),
      PointerAct locate s { id := 0, tool := s.tool } before.length stays.head? reached last
          bookings after ∧
        track = early ++ bookings ∧ (∀ booking ∈ early, booking.tick ≤ reached.tick) ∧
          reached.tick + last.span = s.span ∧ after.tick = s.span ∧
            reached.isDown = Contact.downAfter false (contactsFrom 0 before) := by
  have hfrom := pointerTrackFrom_of_pointerTrack htrack
  rw [hitems] at hfrom
  obtain ⟨reached, early, later, hlater, rfl, hearly, htick, hdown⟩ :=
    exists_state_of_append hfrom
  obtain ⟨bookings, after, others, hact, hothers, rfl⟩ := pointerTrackFrom_cons_eq_ok.1 hlater
  rw [Nat.zero_add] at hact htick
  have hspan : reached.tick + last.span = s.span := by
    rw [span, hitems, Item.spans_append, Item.spans_cons, Item.spans_eq_zero hstays, htick]
    rfl
  refine ⟨reached, after, early, bookings, hact, ?_, hearly, hspan, ?_, hdown⟩
  · rw [eq_nil_of_stays hothers hstays, List.append_nil]
  · rw [hact.tick_after, hspan]

theorem tick_le_span_pointerTrack {track : List Booking}
    (htrack : s.pointerTrack locate 0 = .ok track) : ∀ booking ∈ track, booking.tick ≤ s.span := by
  have hfrom := pointerTrackFrom_of_pointerTrack htrack
  rw [← List.append_nil s.items] at hfrom
  obtain ⟨reached, early, later, hlater, rfl, hearly, htick, -⟩ := exists_state_of_append hfrom
  cases hlater
  rw [List.append_nil]
  intro booking hbooking
  exact (hearly booking hbooking).trans (htick.trans (Nat.zero_add _)).le

/-- The track of a pointer source ends when the source does, unless it loses its end. -/
theorem ends_or_losesEnd_pointerTrack {track : List Booking}
    (htrack : s.pointerTrack locate 0 = .ok track) (hkind : s.kind = .pointer)
    (hlong : 0 < s.span) : Booking.EndAt track s.span ∨ s.LosesEnd := by
  obtain ⟨before, last, stays, hitems, hlast, hstays⟩ := Item.exists_last hlong
  obtain ⟨reached, after, early, bookings, hact, rfl, hearly, hspan, hafter, hdown⟩ :=
    exists_act_of_items_eq htrack hitems hstays
  rcases hact.ends_or_drags hlast with hend | ⟨⟨move, rfl⟩, hplace, hmove, hholds, hnext⟩
  · left
    rw [hafter] at hend
    refine Booking.EndAt.append (fun booking hbooking ↦ ?_) hend
    exact (hearly booking hbooking).trans (hspan ▸ Nat.le_add_right _ _)
  · refine .inr ⟨hkind, before, move, stays, hitems, ?_, hmove, ?_, ?_, hstays⟩
    · exact fun hnone ↦ hplace (congrArg List.length hnone)
    · exact fun hmouse ↦ hdown ▸ hholds hmouse
    · rintro rfl
      cases hnext

/-- The track of a source that loses its end stops a quantum before it. -/
theorem LosesEnd.endAt {track : List Booking} (hloses : s.LosesEnd)
    (htrack : s.pointerTrack locate 0 = .ok track) :
    Booking.EndAt track (s.span - quantum) ∧ quantum ≤ s.span := by
  obtain ⟨-, before, move, stays, hitems, hbefore, hmove, hholds, hsome, hstays⟩ := hloses
  obtain ⟨reached, after, early, bookings, hact, rfl, hearly, hspan, hafter, hdown⟩ :=
    exists_act_of_items_eq htrack hitems hstays
  have hnext : stays.head?.any Item.showsPosition = true := by
    obtain ⟨first, others, rfl⟩ := List.exists_cons_of_ne_nil hsome
    obtain ⟨-, stay, rfl⟩ := hstays first List.mem_cons_self
    rfl
  have hend := hact.leaves_end (List.length_pos_iff.2 hbefore).ne' hmove
    (fun hmouse ↦ hdown ▸ hholds hmouse) hnext
  have hlong : quantum ≤ (Item.pointerMove move).span :=
    Nat.le_of_dvd hmove (Item.quantum_dvd_span _)
  rw [hafter] at hend
  refine ⟨Booking.EndAt.append (fun booking hbooking ↦ Nat.le_sub_of_add_le ?_) hend, ?_⟩
  · exact (Nat.add_le_add (hearly booking hbooking) hlong).trans hspan.le
  · exact hlong.trans (hspan ▸ Nat.le_add_left _ _)

end Source

end ActionReplay
