import ActionReplay.Proofs.Timeline.Merge
import ActionReplay.Proofs.Track.Playable

/-!
# What a timeline shows of each item

A source that is compiled alone is shown item by item. When an item is carried out, what the pointer
holds then and which chain it belongs to can be read off the items before it (`Source.tickAt`,
`Source.heldAt`, `Source.entryAt`), and where the pointer is off its rules (`Source.positionAfter`).
`Source.Records` says from these what is recorded for the item. A key event, a down and an up are
recorded at the tick of their item. A move is recorded as samples on the line between two positions, with
one more at its end unless the next item shows that position. It is recorded as a hover if the pointer is
a mouse that holds nothing, and not at all if it has no time for that, takes none or starts from nowhere.

While a source is compiled, its state is what the items so far say (`Source.Reached`), each act keeps that
so (`PointerAct.reached`) and books, rests aside, what is recorded for its item (`PointerAct.recorded`).
Item after item, the timeline holds these records and nothing else (`Timeline.cuesAt_of_ofSources`).
-/

set_option autoImplicit false
set_option relaxedAutoImplicit false

namespace ActionReplay

variable {locate : Locator} {s : Source} {place : Nat} {item : Item}

/-! ### What the items so far say -/

/-- What a pointer holds after an item: nothing, or a button. -/
def Item.heldAfter (tool : Tool) (held : Option UInt32) : Item → Option UInt32
  | .pointerDown button => some (Button.flags tool button)
  | .pointerUp _ => none
  | _ => held

/-- An item after which another chain is entered. -/
def Item.enters : Item → Bool
  | .pointerDown _ | .pointerUp _ | .keyDown _ | .keyUp _ => true
  | _ => false

namespace Source

/-- The tick of the item at a place: the time that the items before it take. -/
def tickAt (s : Source) (place : Nat) : Tick :=
  Item.spans (s.items.take place)

/-- What the pointer holds before the item at a place. -/
def heldAt (s : Source) (place : Nat) : Option UInt32 :=
  (s.items.take place).foldl (Item.heldAfter s.tool) none

/-- The tick at which the chain before the item at a place was entered. -/
def entryAt (s : Source) : Nat → Tick
  | 0 => 0
  | place + 1 => if s.items[place]?.any Item.enters then s.tickAt place else s.entryAt place

/-- The pointer of a source that is compiled alone. -/
def pointer (s : Source) : Pointer :=
  { id := 0, tool := s.tool }

/-- What is recorded for the item at a place. -/
inductive Records (locate : Locator) (s : Source) (place : Nat) : Item → List Booking → Prop
  | pause (duration : Option Int64) : Records locate s place (.pause duration) []
  | keyDown {value : String} {first : Char} {rest : List Char}
      (hvalue : value.toList = first :: rest) :
      Records locate s place (.keyDown (some value))
        [.key (s.tickAt place)
          { entry := s.tickAt place, action := .down, codePoint := first.val }]
  | keyUp {value : String} {first : Char} {rest : List Char}
      (hvalue : value.toList = first :: rest) :
      Records locate s place (.keyUp (some value))
        [.key (s.tickAt place) { entry := s.entryAt place, action := .up, codePoint := first.val }]
  | down {button : Option Int64} {position : Position}
      (hposition : s.positionAfter locate place = .ok position) :
      Records locate s place (.pointerDown button)
        [.motion (s.tickAt place)
          (s.pointer.cue (s.tickAt place) .down position (Button.flags s.tool button))]
  | up {button : Option Int64} {position : Position}
      (hposition : s.positionAfter locate place = .ok position) :
      Records locate s place (.pointerUp button)
        [.motion (s.tickAt place)
          (s.pointer.cue (s.entryAt place) .up position (Button.flags s.tool button))]
  /-- A move of the first item, or one that takes no time. -/
  | still {move : PointerMove} (hstill : place = 0 ∨ (Item.pointerMove move).span = 0) :
      Records locate s place (.pointerMove move) []
  | drag {move : PointerMove} {steps : Nat} {start stop : Position} (hplace : 0 < place)
      (hsteps : 0 < steps) (hspan : (Item.pointerMove move).span = steps * quantum)
      (htouch : (s.heldAt place).isSome = true ∨ s.tool ≠ .mouse)
      (hstart : s.positionAfter locate (place - 1) = .ok start)
      (hstop : s.positionAfter locate place = .ok stop) :
      Records locate s place (.pointerMove move)
        (((List.range steps).map fun step ↦ .motion (s.tickAt place + step * quantum)
            (s.pointer.cue (s.entryAt place) .move
              (start.toward stop step.toUInt64 steps.toUInt64) ((s.heldAt place).getD 0))) ++
          if s.items[place + 1]?.any Item.showsPosition then []
          else [.motion (s.tickAt place + steps * quantum)
            (s.pointer.cue (s.entryAt place) .move stop ((s.heldAt place).getD 0))])
  /-- A mouse that holds nothing and moves for one quantum. -/
  | brief {move : PointerMove} (hplace : 0 < place) (hspan : (Item.pointerMove move).span = quantum)
      (hheld : s.heldAt place = none) (hmouse : s.tool = .mouse) :
      Records locate s place (.pointerMove move) []
  | hover {move : PointerMove} {steps : Nat} {start stop : Position} (hplace : 0 < place)
      (hsteps : 2 ≤ steps) (hspan : (Item.pointerMove move).span = steps * quantum)
      (hheld : s.heldAt place = none) (hmouse : s.tool = .mouse)
      (hstart : s.positionAfter locate (place - 1) = .ok start)
      (hstop : s.positionAfter locate place = .ok stop) :
      Records locate s place (.pointerMove move)
        ([.motion (s.tickAt place) (s.pointer.cue (s.tickAt place) .hoverEnter start 0)] ++
          ((List.range steps).map fun step ↦ .motion (s.tickAt place + step * quantum)
            (s.pointer.cue (s.tickAt place) .hoverMove
              (start.toward stop step.toUInt64 steps.toUInt64) 0)) ++
          [.motion (s.tickAt place + steps * quantum)
            (s.pointer.cue (s.tickAt place) .hoverExit stop 0)])

/-! ### Item after item -/

theorem tickAt_succ (hitem : s.items[place]? = some item) :
    s.tickAt (place + 1) = s.tickAt place + item.span := by
  rw [tickAt, List.take_add_one, hitem, Item.spans_append]
  rfl

theorem heldAt_succ (hitem : s.items[place]? = some item) :
    s.heldAt (place + 1) = item.heldAfter s.tool (s.heldAt place) := by
  rw [heldAt, List.take_add_one, hitem, List.foldl_append]
  rfl

theorem entryAt_succ (hitem : s.items[place]? = some item) :
    s.entryAt (place + 1) = if item.enters then s.tickAt place else s.entryAt place := by
  rw [entryAt, hitem]
  rfl

/-- Bookings that put at every tick the records of items from a place on. -/
def Tells (locate : Locator) (s : Source) (place : Nat) (items : List Item)
    (bookings : List Booking) : Prop :=
  ∃ told, List.Forall₂ (fun x records ↦ s.Records locate x.2 x.1 records) (items.zipIdx place) told ∧
    ∀ tick, Booking.cuesAt bookings tick = Booking.cuesAt told.flatten tick

theorem Tells.nil : s.Tells locate place [] [] :=
  ⟨[], .nil, fun _ ↦ rfl⟩

theorem Tells.cons {records bookings later : List Booking} {rest : List Item}
    (hrecords : s.Records locate place item records)
    (hcues : ∀ tick, Booking.cuesAt bookings tick = Booking.cuesAt records tick)
    (hlater : s.Tells locate (place + 1) rest later) :
    s.Tells locate place (item :: rest) (bookings ++ later) := by
  obtain ⟨told, hrest, htold⟩ := hlater
  refine ⟨records :: told, ?_, fun tick ↦ ?_⟩
  · rw [List.zipIdx_cons]
    exact .cons hrecords hrest
  · rw [Booking.cuesAt_append, List.flatten_cons, Booking.cuesAt_append, hcues, htold]

/-! ### Pointer sources -/

/-- A pointer that has carried out the items before a place. -/
structure Reached (locate : Locator) (s : Source) (place : Nat) (state : PointerState) : Prop where
  tick : state.tick = s.tickAt place
  entry : state.entry = s.entryAt place
  isDown : state.isDown = (s.heldAt place).isSome
  button : state.button = (s.heldAt place).getD 0
  memo : state.memo.Faithful locate s

theorem reached_zero : s.Reached locate 0 { memo := PositionMemo.empty s } :=
  ⟨rfl, rfl, rfl, rfl, PositionMemo.faithful_empty locate s⟩

namespace PointerAct

variable {state after : PointerState} {bookings : List Booking}

/-- An act with the item at a place reaches the next place. -/
theorem reached {next : Option Item}
    (hact : PointerAct locate s s.pointer place next state item bookings after)
    (hitem : s.items[place]? = some item) (hreached : s.Reached locate place state) :
    s.Reached locate (place + 1) after := by
  have hplace := (List.getElem?_eq_some_iff.1 hitem).1
  have htick : after.tick = s.tickAt (place + 1) := by
    rw [hact.tick_after, hreached.tick, tickAt_succ hitem]
  have hmemo := hact.faithful hreached.memo hplace
  have hheld := heldAt_succ hitem
  have hentry := entryAt_succ hitem
  cases hact with
  | pause | stay | wait | hover | drag =>
    exact ⟨htick, hreached.entry.trans hentry.symm,
      hreached.isDown.trans (congrArg Option.isSome hheld.symm),
      hreached.button.trans (congrArg (Option.getD · 0) hheld.symm), hmemo⟩
  | press | lift =>
    exact ⟨htick, hreached.tick.trans hentry.symm, (congrArg Option.isSome hheld).symm,
      (congrArg (Option.getD · 0) hheld).symm, hmemo⟩

/-- A move that takes some time takes a number of quanta. -/
theorem steps_of_long {move : PointerMove} {span : Int64} (hduration : move.duration = some span)
    (hlong : quantum ≤ align span) :
    0 < align span / quantum ∧ (Item.pointerMove move).span = align span / quantum * quantum := by
  refine ⟨steps_pos hlong, ?_⟩
  rw [Item.span_pointerMove hduration, Nat.div_mul_cancel (quantum_dvd_align span)]

/-- Assumes: a pointer that has carried out the items before a place. An act with the item at the place
books, rests aside, what is recorded for it; a drag closes with a sample of its own exactly where the next
item shows no position. -/
theorem recorded
    (hact : PointerAct locate s s.pointer place s.items[place + 1]? state item bookings after)
    (hitem : s.items[place]? = some item) (hreached : s.Reached locate place state) :
    ∃ records, s.Records locate place item records ∧
      ∀ tick, Booking.cuesAt bookings tick = Booking.cuesAt records tick := by
  have hlength := (List.getElem?_eq_some_iff.1 hitem).1
  obtain ⟨htick, hentry, hdown, hbutton, hmemo⟩ := hreached
  cases hact with
  | pause => exact ⟨[], .pause _, Booking.cuesAt_rest _⟩
  | press _ _ hresolve =>
    have hposition := (hmemo.of_resolve hlength hresolve).1
    rw [htick]
    exact ⟨_, .down hposition, fun _ ↦ rfl⟩
  | lift _ _ hresolve =>
    have hposition := (hmemo.of_resolve hlength hresolve).1
    rw [htick, hentry]
    exact ⟨_, .up hposition, fun _ ↦ rfl⟩
  | stay hduration _ hshort =>
    exact ⟨[], .still (.inr (Item.span_eq_zero_of_lt hduration hshort)), fun _ ↦ rfl⟩
  | wait _ _ _ _ hfirst => exact ⟨[], .still (.inl hfirst), Booking.cuesAt_rest _⟩
  | hover hduration _ hlong _ hbefore hstart hstop hup hmouse =>
    subst hbefore
    obtain ⟨hfirst, hlast, -⟩ := hmemo.of_resolve_succ hlength hstart hstop
    obtain ⟨hpos, hspan⟩ := steps_of_long hduration hlong
    have hheld := Option.isNone_iff_eq_none.1 (Option.isSome_eq_false_iff.1 (hdown.symm.trans hup))
    unfold Pointer.hover
    split_ifs with hshort
    · have hone : align _ / quantum = 1 := Nat.le_antisymm (Nat.le_of_lt_succ hshort) hpos
      rw [hone, Nat.one_mul] at hspan
      exact ⟨[], .brief (Nat.succ_pos _) hspan hheld hmouse, Booking.cuesAt_rest _⟩
    · rw [htick]
      exact ⟨_, .hover (Nat.succ_pos _) (Nat.le_of_not_lt hshort) hspan hheld hmouse hfirst hlast,
        fun _ ↦ rfl⟩
  | drag hduration _ hlong _ hbefore hstart hstop htouch =>
    subst hbefore
    obtain ⟨hfirst, hlast, -⟩ := hmemo.of_resolve_succ hlength hstart hstop
    obtain ⟨hpos, hspan⟩ := steps_of_long hduration hlong
    have hrecords := Records.drag (Nat.succ_pos _) hpos hspan (hdown ▸ htouch) hfirst hlast
    refine ⟨_, hrecords, fun _ ↦ ?_⟩
    rw [htick, hentry, hbutton, Pointer.drag]
    cases s.items[_ + 1 + 1]?.any Item.showsPosition with
    | true => rfl
    | false => rfl

end PointerAct

theorem tells_pointerTrackFrom {state : PointerState} {items : List Item} {track : List Booking}
    (htrack : s.pointerTrackFrom locate s.pointer place state items = .ok track)
    (hitems : s.items.drop place = items) (hreached : s.Reached locate place state) :
    s.Tells locate place items track := by
  induction items generalizing place state track with
  | nil =>
    cases htrack
    exact .nil
  | cons item rest ih =>
    obtain ⟨bookings, after, later, hact, hlater, rfl⟩ := pointerTrackFrom_cons_eq_ok.1 htrack
    obtain ⟨hitem, hrest⟩ := items_of_drop_eq_cons hitems
    rw [← hrest, List.head?_drop] at hact
    obtain ⟨records, hrecords, hcues⟩ := hact.recorded hitem hreached
    exact .cons hrecords hcues (ih hlater hrest (hact.reached hitem hreached))

/-! ### Other sources -/

theorem tells_keyTrackFrom {state : KeyboardState} {items : List Item} {track : List Booking}
    (htrack : s.keyTrackFrom place state items = .ok track)
    (hitems : s.items.drop place = items) (htick : state.tick = s.tickAt place)
    (hentry : state.entry = s.entryAt place) : s.Tells locate place items track := by
  induction items generalizing place state track with
  | nil =>
    cases htrack
    exact .nil
  | cons item rest ih =>
    obtain ⟨booking, after, later, hact, hlater, rfl⟩ := keyTrackFrom_cons_eq_ok.1 htrack
    obtain ⟨hitem, hrest⟩ := items_of_drop_eq_cons hitems
    have hnext := tickAt_succ hitem
    have henter := entryAt_succ hitem
    cases hact with
    | pause =>
      refine .cons (.pause _) (Booking.cuesAt_rest _) (ih hlater hrest ?_ (hentry.trans henter.symm))
      exact hnext ▸ congrArg (· + _) htick
    | press hvalue =>
      obtain ⟨text, first, others, rfl, htext, rfl⟩ := exists_of_keyCodePoint hvalue
      rw [htick]
      exact .cons (.keyDown htext) (fun _ ↦ rfl)
        (ih hlater hrest (htick.trans hnext.symm) (htick.trans henter.symm))
    | release hvalue =>
      obtain ⟨text, first, others, rfl, htext, rfl⟩ := exists_of_keyCodePoint hvalue
      rw [htick, hentry]
      exact .cons (.keyUp htext) (fun _ ↦ rfl)
        (ih hlater hrest (htick.trans hnext.symm) (htick.trans henter.symm))

theorem tells_restTrackFrom {tick : Tick} {items : List Item} {track : List Booking}
    (htrack : s.restTrackFrom place tick items = .ok track) :
    s.Tells locate place items track := by
  induction items generalizing place tick track with
  | nil =>
    cases htrack
    exact .nil
  | cons item rest ih =>
    obtain ⟨span, later, rfl, -, -, hlater, rfl⟩ := restTrackFrom_cons_eq_ok.1 htrack
    exact .cons (.pause _) (Booking.cuesAt_rest _) (ih hlater)

/-- The track of a source that is compiled alone tells what is recorded for its items. -/
theorem tells_soloTrack {track : List Booking} (htrack : s.soloTrack locate = .ok track) :
    s.Tells locate 0 s.items track :=
  soloTrack_elim htrack (fun _ ↦ tells_restTrackFrom)
    (fun _ hkey ↦ tells_keyTrackFrom hkey rfl rfl rfl)
    fun _ hpointer ↦
      tells_pointerTrackFrom (pointerTrackFrom_of_pointerTrack hpointer) rfl reached_zero

end Source

namespace Timeline

/-- Assumes: a source that compiles alone. At every tick its timeline shows what is recorded there for
its items, one item after another, and nothing else. -/
theorem cuesAt_of_ofSources {t : Timeline} (hcompiled : ofSources locate [s] = .ok t) :
    ∃ told, List.Forall₂ (fun x records ↦ s.Records locate x.2 x.1 records) s.items.zipIdx told ∧
      ∀ tick, t.cuesAt tick = Booking.cuesAt told.flatten tick := by
  obtain ⟨track, htrack, rfl⟩ := ofSources_singleton.1 hcompiled
  obtain ⟨told, hrecords, htold⟩ := Source.tells_soloTrack htrack
  exact ⟨told, hrecords, fun tick ↦ (cuesAt_solo htrack tick).trans (htold tick)⟩

/-- A mouse that glides for three quanta, goes down, drags for two, rests and goes up. -/
def glideThenDrag : Source :=
  { id := "m"
    kind := .pointer
    pointerType := some .mouse
    items := [
      .pointerMove { duration := some 0, origin := .viewport, x := some 0, y := some 0,
                     pressure := none, size := none },
      .pointerMove { duration := some 15, origin := .viewport, x := some 30, y := some 0,
                     pressure := none, size := none },
      .pointerDown none,
      .pointerMove { duration := some 10, origin := .pointer, x := some 10, y := none,
                     pressure := none, size := none },
      .pause (some 5), .pointerUp none] }

/-- The last sample of its drag is at the tick at which it begins to rest. -/
theorem cuesAt_glideThenDrag :
    ∃ t, ofSources (fun _ ↦ none) [glideThenDrag] = .ok t ∧
      ([0, 5, 10, 15, 20, 25, 30].map fun tick ↦
        (t.cuesAt tick).filterMap fun cue ↦ cue.motion?.map MotionCue.action) =
          [[.hoverEnter, .hoverMove], [.hoverMove], [.hoverMove], [.hoverExit, .down, .move],
            [.move], [.move], [.up]] ∧
      ∃ told, List.Forall₂
          (fun x records ↦ glideThenDrag.Records (fun _ ↦ none) x.2 x.1 records)
          glideThenDrag.items.zipIdx told ∧
        ∀ tick, t.cuesAt tick = Booking.cuesAt told.flatten tick := by
  refine ⟨_, rfl, ?_, cuesAt_of_ofSources rfl⟩
  decide +kernel

end Timeline

end ActionReplay
