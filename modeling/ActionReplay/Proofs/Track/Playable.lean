import ActionReplay.Proofs.Position.Resolvable
import ActionReplay.Proofs.Track.Span

/-!
# When a pointer source compiles

A pointer source fails for one of five reasons, and for no other: an item that pointers do not know,
a duration that is missing or negative, a timeline that is too long, contacts that are not those of
one pointer, and a position that is asked for and does not exist. `Source.Playable` excludes the
first four, and `Source.asked` lists the places whose positions are asked for, so a source compiles
exactly if it is playable and has these positions (`exists_pointerTrack_iff`).

One item can be carried out exactly in a state that meets the conditions of `Source.CanAct`
(`PointerAct.canAct`, `CanAct.exists_act`). Whether the later items can be depends on the state only
through its tick, the contacts behind it and what it remembers, and remembering is faithful at all
times.
-/

set_option autoImplicit false
set_option relaxedAutoImplicit false

namespace ActionReplay

variable {locate : Locator} {s : Source} {p : Pointer}

/-! ### What an item asks for -/

namespace Item

/-- An item that a pointer can carry out: one of a pointer source that is no cancel. -/
def Plain (item : Item) : Prop :=
  SourceKind.pointer.allows item = true ∧ item.type ≠ .pointerCancel

/-- A pause or a move says how long it takes, which is not a negative time. -/
def Timed : Item → Prop
  | .pause duration => ∃ span, duration = some span ∧ ¬span < 0
  | .pointerMove move => ∃ span, move.duration = some span ∧ ¬span < 0
  | _ => True

/-- The places whose positions are asked for when the item at a place is carried out: its own if it
is a contact, and those at both ends if it is a move that takes time and is not the first item. -/
def asks (place : Nat) (item : Item) : List Nat :=
  match item with
  | .pointerDown _ | .pointerUp _ => [place]
  | .pointerMove _ => if 0 < place ∧ quantum ≤ item.span then [place - 1, place] else []
  | _ => []

theorem tick_of_contact? {tick : Tick} {item : Item} {contact : Contact}
    (hcontact : item.contact? tick = some contact) : contact.tick = tick := by
  cases item with
  | pointerDown | pointerUp =>
    cases hcontact
    rfl
  | pause | pointerMove | pointerCancel | keyDown | keyUp => cases hcontact

end Item

namespace Source

/-- The places whose positions are asked for when items from a place on are carried out. -/
def askedFrom : Nat → List Item → List Nat
  | _, [] => []
  | place, item :: rest => item.asks place ++ askedFrom (place + 1) rest

/-- The places whose positions are asked for when a source is compiled. -/
def asked (s : Source) : List Nat :=
  askedFrom 0 s.items

theorem lt_length_of_mem_askedFrom {place k : Nat} {items : List Item}
    (hk : k ∈ askedFrom place items) : k < place + items.length := by
  induction items generalizing place with
  | nil => exact absurd hk List.not_mem_nil
  | cons item rest ih =>
    rw [List.length_cons]
    rcases List.mem_append.1 hk with hhere | hlater
    · have hle : k ≤ place := by
        cases item with
        | pointerDown | pointerUp => exact (List.mem_singleton.1 hhere).le
        | pointerMove move =>
          unfold Item.asks at hhere
          split_ifs at hhere
          · rcases List.mem_pair.1 hhere with rfl | rfl
            · exact Nat.sub_le _ _
            · exact le_rfl
          · exact absurd hhere List.not_mem_nil
        | pause | pointerCancel | keyDown | keyUp => exact absurd hhere List.not_mem_nil
      omega
    · have hlt := ih hlater
      omega

/-- Only places of items are asked for. -/
theorem lt_length_of_mem_asked {k : Nat} (hk : k ∈ s.asked) : k < s.items.length := by
  have hlt := lt_length_of_mem_askedFrom hk
  rwa [Nat.zero_add] at hlt

/-- A pointer source that keeps all rules but those about positions. -/
structure Playable (s : Source) : Prop where
  plain : ∀ item ∈ s.items, item.Plain
  timed : ∀ item ∈ s.items, item.Timed
  fits : s.span ≤ longestTimeline
  turns : Contact.TakeTurns s.contacts

end Source

/-! ### Contacts to come -/

namespace PointerState

variable {state after : PointerState} {contacts : List Contact}

/-- A contact that the pointer can make: it turns the pointer over, and it is not the second of its
kind at its tick. -/
def Accepts (state : PointerState) (contact : Contact) : Prop :=
  contact.isDown = (!state.isDown) ∧ state.last contact.isDown ≠ some contact.tick

/-- Assumes: contacts that do not come before the tick of the state after. -/
theorem Passes.allows_after (hpasses : Passes state after) (hallows : state.Allows contacts)
    (hlater : ∀ contact ∈ contacts, after.tick ≤ contact.tick) : after.Allows contacts where
  alternate := hpasses.isDown.symm ▸ hallows.alternate
  ordered := hallows.ordered
  spaced := hallows.spaced
  later := hlater
  fresh contact hcontact := (hpasses.last contact.isDown).symm ▸ hallows.fresh contact hcontact

theorem Touches.allows_after {kind : Bool} (htouches : Touches state after kind)
    (hallows : state.Allows (⟨state.tick, kind⟩ :: contacts)) : after.Allows contacts := by
  obtain ⟨hlater, hordered⟩ := List.pairwise_cons.1 hallows.ordered
  obtain ⟨hspaced, hrest⟩ := List.pairwise_cons.1 hallows.spaced
  refine ⟨htouches.isDown.symm ▸ hallows.alternate.2, hordered, hrest, ?_, ?_⟩
  · rw [htouches.tick]
    exact hlater
  · intro contact hcontact hlast
    by_cases hkind : contact.isDown = kind
    · rw [hkind, htouches.last] at hlast
      exact (hspaced contact hcontact hkind.symm).ne (Option.some.inj hlast)
    · rw [Bool.eq_not.2 hkind, htouches.other, ← Bool.eq_not.2 hkind] at hlast
      exact hallows.fresh contact (List.mem_cons_of_mem _ hcontact) hlast

end PointerState

namespace Source

theorem tick_le_of_mem_contactsFrom {tick : Tick} {items : List Item} :
    ∀ contact ∈ contactsFrom tick items, tick ≤ contact.tick := by
  induction items generalizing tick with
  | nil => exact List.forall_mem_nil _
  | cons item rest ih =>
    refine List.forall_mem_append.2 ⟨?_, fun contact hcontact ↦ ?_⟩
    · intro contact hcontact
      exact (Item.tick_of_contact? (Option.mem_toList.1 hcontact)).ge
    · exact (Nat.le_add_right tick item.span).trans (ih contact hcontact)

theorem pairwise_contactsFrom {tick : Tick} {items : List Item} :
    (contactsFrom tick items).Pairwise fun a b ↦ a.tick ≤ b.tick := by
  induction items generalizing tick with
  | nil => exact .nil
  | cons item rest ih =>
    refine List.pairwise_append.2 ⟨?_, ih, ?_⟩
    · cases item.contact? tick with
      | none => exact .nil
      | some contact => exact List.pairwise_singleton _ _
    · intro contact hcontact later hlater
      rw [Item.tick_of_contact? (Option.mem_toList.1 hcontact)]
      exact (Nat.le_add_right tick item.span).trans (tick_le_of_mem_contactsFrom later hlater)

/-! ### One act -/

/-- What it takes to carry out the item at a place from a state on. -/
structure CanAct (locate : Locator) (s : Source) (place : Nat) (state : PointerState)
    (item : Item) : Prop where
  plain : item.Plain
  timed : item.Timed
  fits : state.tick + item.span ≤ longestTimeline
  accepts : ∀ contact, item.contact? state.tick = some contact → state.Accepts contact
  placed : ∀ k ∈ item.asks place, s.HasPosition locate k

variable {place : Nat} {next : Option Item} {state after : PointerState} {item : Item}
  {bookings : List Booking}

/-- An act leaves a faithful memo behind. -/
theorem PointerAct.faithful (hact : PointerAct locate s p place next state item bookings after)
    (hmemo : state.memo.Faithful locate s) (hplace : place < s.items.length) :
    after.memo.Faithful locate s := by
  cases hact with
  | pause => exact hmemo
  | press _ _ hposition => exact (hmemo.of_resolve hplace hposition).2
  | lift _ _ hposition => exact (hmemo.of_resolve hplace hposition).2
  | stay => exact hmemo
  | wait => exact hmemo
  | hover _ _ _ _ hbefore hstart hstop =>
    subst hbefore
    exact (hmemo.of_resolve_succ hplace hstart hstop).2.2
  | drag _ _ _ _ hbefore hstart hstop =>
    subst hbefore
    exact (hmemo.of_resolve_succ hplace hstart hstop).2.2

theorem PointerAct.plain (hact : PointerAct locate s p place next state item bookings after) :
    item.Plain := by
  cases hact with
  | pause | press | lift | stay | wait | hover | drag => exact ⟨rfl, ItemType.noConfusion⟩

theorem PointerAct.timed (hact : PointerAct locate s p place next state item bookings after) :
    item.Timed := by
  cases hact with
  | pause hspan => exact ⟨_, rfl, hspan⟩
  | press | lift => trivial
  | stay hduration hspan => exact ⟨_, hduration, hspan⟩
  | wait hduration hspan => exact ⟨_, hduration, hspan⟩
  | hover hduration hspan => exact ⟨_, hduration, hspan⟩
  | drag hduration hspan => exact ⟨_, hduration, hspan⟩

theorem PointerAct.fits (hact : PointerAct locate s p place next state item bookings after)
    (htick : state.tick ≤ longestTimeline) : state.tick + item.span ≤ longestTimeline := by
  rw [← hact.tick_after]
  cases hact with
  | pause _ hfits => exact hfits
  | press | lift | stay => exact htick
  | wait _ _ _ hfits => exact hfits
  | hover _ _ _ hfits => exact hfits
  | drag _ _ _ hfits => exact hfits

theorem PointerAct.accepts (hact : PointerAct locate s p place next state item bookings after)
    {contact : Contact} (hcontact : item.contact? state.tick = some contact) :
    state.Accepts contact := by
  rcases hact.passes_or_touches with ⟨hnone, -⟩ | ⟨kind, hsome, htouches⟩
  · rw [hnone] at hcontact
    cases hcontact
  · rw [hsome] at hcontact
    cases hcontact
    exact ⟨htouches.turn, htouches.fresh⟩

/-- A move that resolves the positions at both of its ends asks for nothing that does not exist. -/
theorem hasPosition_of_resolve {before : Nat} {start stop : Position} {memo later : PositionMemo}
    (hmemo : state.memo.Faithful locate s) (hplace : place < s.items.length)
    (hbefore : place = before + 1)
    (hstart : state.memo.resolve locate s before = (.ok start, memo))
    (hstop : memo.resolve locate s place = (.ok stop, later)) (move : PointerMove) :
    ∀ k ∈ (Item.pointerMove move).asks place, s.HasPosition locate k := by
  subst hbefore
  obtain ⟨hfirst, hlast, -⟩ := hmemo.of_resolve_succ hplace hstart hstop
  intro k hk
  unfold Item.asks at hk
  split_ifs at hk with hsampled
  · rcases List.mem_pair.1 hk with rfl | rfl
    · exact ⟨start, hfirst⟩
    · exact ⟨stop, hlast⟩
  · exact absurd hk List.not_mem_nil

theorem PointerAct.placed (hact : PointerAct locate s p place next state item bookings after)
    (hmemo : state.memo.Faithful locate s) (hplace : place < s.items.length) :
    ∀ k ∈ item.asks place, s.HasPosition locate k := by
  cases hact with
  | pause => exact List.forall_mem_nil _
  | press _ _ hposition =>
    exact List.forall_mem_singleton.2 ⟨_, (hmemo.of_resolve hplace hposition).1⟩
  | lift _ _ hposition =>
    exact List.forall_mem_singleton.2 ⟨_, (hmemo.of_resolve hplace hposition).1⟩
  | stay hduration _ hshort =>
    unfold Item.asks
    rw [Item.span_pointerMove hduration, if_neg fun hsampled ↦ (Nat.not_le.2 hshort) hsampled.2]
    exact List.forall_mem_nil _
  | wait _ _ _ _ hfirst =>
    unfold Item.asks
    rw [if_neg fun hsampled ↦ hsampled.1.ne' hfirst]
    exact List.forall_mem_nil _
  | hover _ _ _ _ hbefore hstart hstop =>
    exact hasPosition_of_resolve hmemo hplace hbefore hstart hstop _
  | drag _ _ _ _ hbefore hstart hstop =>
    exact hasPosition_of_resolve hmemo hplace hbefore hstart hstop _

theorem PointerAct.canAct (hact : PointerAct locate s p place next state item bookings after)
    (hmemo : state.memo.Faithful locate s) (hplace : place < s.items.length)
    (htick : state.tick ≤ longestTimeline) : CanAct locate s place state item where
  plain := hact.plain
  timed := hact.timed
  fits := hact.fits htick
  accepts _ hcontact := hact.accepts hcontact
  placed := hact.placed hmemo hplace

/-- A move that takes time, of an item that is not the first, with a position at both ends. -/
theorem exists_moveAct {before : Nat} {move : PointerMove} {span : Int64}
    (hmemo : state.memo.Faithful locate s) (hplace : before + 1 < s.items.length)
    (hduration : move.duration = some span) (hspan : ¬span < 0) (hlong : quantum ≤ align span)
    (hfits : state.tick + align span ≤ longestTimeline) (hstart : s.HasPosition locate before)
    (hstop : s.HasPosition locate (before + 1)) :
    ∃ bookings after,
      PointerAct locate s p (before + 1) next state (.pointerMove move) bookings after := by
  obtain ⟨start, hstart⟩ := hstart
  obtain ⟨stop, hstop⟩ := hstop
  obtain ⟨memo, hmid, hfirst⟩ := hmemo.resolve_eq (Nat.lt_of_succ_lt hplace)
  obtain ⟨later, -, hsecond⟩ := hmid.resolve_eq hplace
  rw [hstart] at hfirst
  rw [hstop] at hsecond
  by_cases htouch : state.isDown = true ∨ p.tool ≠ .mouse
  · exact ⟨_, _, .drag hduration hspan hlong hfits rfl hfirst hsecond htouch⟩
  · obtain ⟨hup, hmouse⟩ := not_or.1 htouch
    exact ⟨_, _, .hover hduration hspan hlong hfits rfl hfirst hsecond
      (Bool.eq_false_iff.2 hup) (not_not.1 hmouse)⟩

theorem CanAct.exists_act (hcan : CanAct locate s place state item)
    (hmemo : state.memo.Faithful locate s) (hplace : place < s.items.length) :
    ∃ bookings after, PointerAct locate s p place next state item bookings after := by
  obtain ⟨⟨hallowed, hcancel⟩, htimed, hfits, haccepts, hplaced⟩ := hcan
  obtain ⟨later, -, hresolve⟩ := hmemo.resolve_eq hplace
  cases item with
  | pause duration =>
    obtain ⟨span, rfl, hspan⟩ := htimed
    exact ⟨_, _, .pause hspan hfits⟩
  | pointerDown button =>
    obtain ⟨hturn, hfresh⟩ := haccepts _ rfl
    obtain ⟨position, hposition⟩ := hplaced place List.mem_cons_self
    rw [hposition] at hresolve
    exact ⟨_, _, .press (by simpa using hturn) hfresh hresolve⟩
  | pointerUp button =>
    obtain ⟨hturn, hfresh⟩ := haccepts _ rfl
    obtain ⟨position, hposition⟩ := hplaced place List.mem_cons_self
    rw [hposition] at hresolve
    exact ⟨_, _, .lift (by simpa using hturn) hfresh hresolve⟩
  | pointerMove move =>
    obtain ⟨span, hduration, hspan⟩ := htimed
    have hlength := Item.span_pointerMove hduration
    rw [hlength] at hfits
    by_cases hshort : align span < quantum
    · exact ⟨_, _, .stay hduration hspan hshort⟩
    have hlong := Nat.le_of_not_lt hshort
    cases place with
    | zero => exact ⟨_, _, .wait hduration hspan hlong hfits rfl⟩
    | succ before =>
      have hasks : (Item.pointerMove move).asks (before + 1) = [before, before + 1] := by
        unfold Item.asks
        rw [if_pos ⟨Nat.succ_pos before, hlength.symm ▸ hlong⟩]
        rfl
      rw [hasks] at hplaced
      exact exists_moveAct hmemo hplace hduration hspan hlong hfits
        (hplaced before List.mem_cons_self) (hplaced (before + 1) (by simp))
  | pointerCancel => exact absurd rfl hcancel
  | keyDown value => cases hallowed
  | keyUp value => cases hallowed

/-! ### From one act to the next -/

theorem PointerAct.settled (hact : PointerAct locate s p place next state item bookings after)
    (hsettled : state.Settled) : after.Settled := by
  rcases hact.passes_or_touches with ⟨-, hpasses⟩ | ⟨kind, -, htouches⟩
  · exact hpasses.settled hsettled
  · exact htouches.settled hsettled

/-- Over an act, the contacts that a state allows are those that its item makes and the state after
it allows. -/
theorem PointerAct.allows_iff (hact : PointerAct locate s p place next state item bookings after)
    (hsettled : state.Settled) (rest : List Item) :
    state.Allows (contactsFrom state.tick (item :: rest)) ↔
      after.Allows (contactsFrom after.tick rest) := by
  rw [contactsFrom, ← hact.tick_after]
  rcases hact.passes_or_touches with ⟨hnone, hpasses⟩ | ⟨kind, hsome, htouches⟩
  · rw [hnone]
    exact ⟨fun hallows ↦ hpasses.allows_after hallows tick_le_of_mem_contactsFrom, hpasses.allows⟩
  · rw [hsome]
    exact ⟨htouches.allows_after, htouches.allows hsettled⟩

theorem accepts_of_allows {rest : List Item}
    (hallows : state.Allows (contactsFrom state.tick (item :: rest))) :
    ∀ contact, item.contact? state.tick = some contact → state.Accepts contact := by
  intro contact hcontact
  unfold contactsFrom at hallows
  rw [hcontact] at hallows
  exact ⟨hallows.alternate.1, hallows.fresh contact List.mem_cons_self⟩

/-! ### Tracks -/

/-- What it takes to carry out items from a place on, from a state on. -/
structure CanPlay (locate : Locator) (s : Source) (place : Nat) (state : PointerState)
    (items : List Item) : Prop where
  plain : ∀ item ∈ items, item.Plain
  timed : ∀ item ∈ items, item.Timed
  fits : state.tick + Item.spans items ≤ longestTimeline
  allows : state.Allows (contactsFrom state.tick items)
  placed : ∀ k ∈ askedFrom place items, s.HasPosition locate k

/-- An item and the items after it can be carried out exactly if the item can, and the others can
from the state that it leads to. -/
theorem PointerAct.canPlay_iff (hact : PointerAct locate s p place next state item bookings after)
    (hmemo : state.memo.Faithful locate s) (hplace : place < s.items.length)
    (htick : state.tick ≤ longestTimeline) (hsettled : state.Settled) {rest : List Item} :
    CanPlay locate s place state (item :: rest) ↔ CanPlay locate s (place + 1) after rest := by
  have hcan := hact.canAct hmemo hplace htick
  have hspans : after.tick + Item.spans rest = state.tick + Item.spans (item :: rest) := by
    rw [hact.tick_after, Item.spans_cons, Nat.add_assoc]
  constructor
  · rintro ⟨hplain, htimed, hfits, hallows, hplaced⟩
    exact ⟨(List.forall_mem_cons.1 hplain).2, (List.forall_mem_cons.1 htimed).2,
      hspans.trans_le hfits, (hact.allows_iff hsettled rest).1 hallows,
      (List.forall_mem_append.1 hplaced).2⟩
  · rintro ⟨hplain, htimed, hfits, hallows, hplaced⟩
    exact ⟨List.forall_mem_cons.2 ⟨hcan.plain, hplain⟩, List.forall_mem_cons.2 ⟨hcan.timed, htimed⟩,
      hspans.symm.trans_le hfits, (hact.allows_iff hsettled rest).2 hallows,
      List.forall_mem_append.2 ⟨hcan.placed, hplaced⟩⟩

/-- What it takes to carry out some items is what it takes to carry out the first of them. -/
theorem CanPlay.canAct {rest : List Item} (hcan : CanPlay locate s place state (item :: rest)) :
    CanAct locate s place state item where
  plain := (List.forall_mem_cons.1 hcan.plain).1
  timed := (List.forall_mem_cons.1 hcan.timed).1
  fits := (Nat.add_le_add_left (Nat.le_add_right _ _) _).trans
    (Item.spans_cons item rest ▸ hcan.fits)
  accepts := accepts_of_allows hcan.allows
  placed := (List.forall_mem_append.1 hcan.placed).1

/-- The item at a place and those after it. -/
theorem items_of_drop_eq_cons {rest : List Item} (hitems : s.items.drop place = item :: rest) :
    s.items[place]? = some item ∧ s.items.drop (place + 1) = rest := by
  constructor
  · rw [← List.head?_drop, hitems]
    rfl
  · rw [← List.tail_drop, hitems, List.tail_cons]

/-- Items are carried out one by one. Once an item is, the state after it is on the way too. -/
theorem exists_pointerTrackFrom_iff {items : List Item} (hitems : s.items.drop place = items)
    (hmemo : state.memo.Faithful locate s) (htick : state.tick ≤ longestTimeline)
    (hsettled : state.Settled) :
    (∃ track, s.pointerTrackFrom locate p place state items = .ok track) ↔
      CanPlay locate s place state items := by
  induction items generalizing place state with
  | nil =>
    exact iff_of_true ⟨[], rfl⟩
      ⟨List.forall_mem_nil _, List.forall_mem_nil _, htick, .nil, List.forall_mem_nil _⟩
  | cons item rest ih =>
    obtain ⟨hitem, hrest⟩ := items_of_drop_eq_cons hitems
    have hplace := (List.getElem?_eq_some_iff.1 hitem).1
    have hstep : ∀ {bookings after},
        PointerAct locate s p place rest.head? state item bookings after →
          ((∃ track, s.pointerTrackFrom locate p (place + 1) after rest = .ok track) ↔
            CanPlay locate s place state (item :: rest)) := by
      intro bookings after hact
      have hreached := hact.tick_after ▸ (hact.canAct hmemo hplace htick).fits
      rw [hact.canPlay_iff hmemo hplace htick hsettled]
      exact ih hrest (hact.faithful hmemo hplace) hreached (hact.settled hsettled)
    constructor
    · rintro ⟨track, htrack⟩
      obtain ⟨bookings, after, later, hact, hlater, -⟩ := pointerTrackFrom_cons_eq_ok.1 htrack
      exact (hstep hact).1 ⟨later, hlater⟩
    · intro hcan
      obtain ⟨bookings, after, hact⟩ := hcan.canAct.exists_act (p := p) hmemo hplace
      obtain ⟨later, hlater⟩ := (hstep hact).2 hcan
      exact ⟨_, pointerTrackFrom_cons_eq_ok.2 ⟨bookings, after, later, hact, hlater, rfl⟩⟩

/-- A pointer source compiles exactly if it is playable and has the positions that are asked for;
beyond the first ordinal it has to be a touch pointer. -/
theorem exists_pointerTrack_iff {ordinal : Nat} :
    (∃ track, s.pointerTrack locate ordinal = .ok track) ↔
      (ordinal = 0 ∨ s.effectivePointerType = .touch) ∧ s.Playable ∧
        ∀ k ∈ s.asked, s.HasPosition locate k := by
  have hfirst : (∃ track, s.pointerTrack locate 0 = .ok track) ↔
      CanPlay locate s 0 { memo := PositionMemo.empty s } s.items :=
    exists_pointerTrackFrom_iff (p := { id := 0, tool := s.tool }) rfl
      (PositionMemo.faithful_empty locate s) (Nat.zero_le _) (PointerState.settled_start _)
  have hplay : CanPlay locate s 0 { memo := PositionMemo.empty s } s.items ↔
      s.Playable ∧ ∀ k ∈ s.asked, s.HasPosition locate k := by
    constructor
    · rintro ⟨hplain, htimed, hfits, hallows, hplaced⟩
      rw [Nat.zero_add] at hfits
      exact ⟨⟨hplain, htimed, hfits, hallows.alternate, hallows.ordered, hallows.spaced⟩, hplaced⟩
    · rintro ⟨⟨hplain, htimed, hfits, halternate, hordered, hspaced⟩, hplaced⟩
      refine ⟨hplain, htimed, (Nat.zero_add _).trans_le hfits,
        ⟨halternate, hordered, hspaced, fun _ _ ↦ Nat.zero_le _, fun contact _ hlast ↦ ?_⟩, hplaced⟩
      rw [PointerState.last_start] at hlast
      cases hlast
  rw [← hplay, ← hfirst]
  constructor
  · rintro ⟨track, htrack⟩
    obtain ⟨hallowed, alone, halone, -⟩ := pointerTrack_eq_ok.1 htrack
    exact ⟨hallowed, alone, halone⟩
  · rintro ⟨hallowed, alone, halone⟩
    exact ⟨_, pointerTrack_eq_ok.2 ⟨hallowed, alone, halone, rfl⟩⟩

end Source

end ActionReplay
