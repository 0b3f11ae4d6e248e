import ActionReplay.Proofs.Source.Accepted
import ActionReplay.Proofs.Source.Spelled
import ActionReplay.Proofs.Track.Faults

/-!
# Items as they were sent

What is accepted of a source are the items that no cancel takes back, and their places are not those
of the values that were sent. An item is taken back exactly if it is a cancel or comes right before
one (`Item.dropCancelled_cons`), which can be told from the values as well (`Json.uncancelled`). So
the items that are carried out are read, one by one, from the values that are left
(`Source.forall₂_sends_of_accept`), and the place of a value among these is its place among all
values exactly if no cancel was sent before it (`Json.length_uncancelled_eq_iff`).
-/

set_option autoImplicit false
set_option relaxedAutoImplicit false

namespace ActionReplay

/-! ### Cancels -/

namespace Item

def isCancel : Item → Bool
  | .pointerCancel => true
  | _ => false

theorem dropCancelledBackward_cons (cancelled : Bool) (item : Item) (rest : List Item) :
    dropCancelledBackward cancelled (item :: rest) =
      (if item.isCancel || cancelled then [] else [item]) ++
        dropCancelledBackward item.isCancel rest := by
  cases item with
  | pointerCancel => rfl
  | pause | pointerDown | pointerUp | pointerMove | keyDown | keyUp =>
    cases cancelled with
    | false => rfl
    | true => rfl

theorem dropCancelledBackward_concat (cancelled : Bool) (items : List Item) (last : Item) :
    dropCancelledBackward cancelled (items ++ [last]) =
      dropCancelledBackward cancelled items ++
        if last.isCancel || items.getLast?.elim cancelled isCancel then [] else [last] := by
  induction items generalizing cancelled with
  | nil =>
    rw [List.nil_append, dropCancelledBackward_cons]
    exact List.append_nil _
  | cons item rest ih =>
    have hlast : (item :: rest).getLast?.elim cancelled isCancel =
        rest.getLast?.elim item.isCancel isCancel := by
      rw [List.getLast?_cons]
      cases rest.getLast? with
      | none => rfl
      | some later => rfl
    rw [List.cons_append, dropCancelledBackward_cons, ih, dropCancelledBackward_cons,
      List.append_assoc, hlast]

/-- An item is taken back if it is a cancel or comes right before one. -/
theorem dropCancelled_cons (item : Item) (rest : List Item) :
    dropCancelled (item :: rest) =
      if item.isCancel || rest.head?.any isCancel then dropCancelled rest
      else item :: dropCancelled rest := by
  have hnext : rest.reverse.getLast?.elim false isCancel = rest.head?.any isCancel := by
    rw [List.getLast?_reverse]
    cases rest.head? with
    | none => rfl
    | some next => rfl
  unfold dropCancelled
  rw [List.reverse_cons, dropCancelledBackward_concat, hnext, List.reverse_append]
  split_ifs
  · rfl
  · rfl

end Item

namespace Json

/-- A value that has no member under a key, or a member that is null. -/
def LacksMember (key : String) (v : Json) : Prop :=
  v.member? key = none ∨ v.member? key = some .null

def isCancel (v : Json) : Bool :=
  v.typeName? = some ItemType.pointerCancel.name

/-- The values that no cancel among them takes back. -/
def uncancelled : List Json → List Json
  | [] => []
  | v :: rest =>
    if v.isCancel || rest.head?.any isCancel then uncancelled rest else v :: uncancelled rest

/-- The values of the items of the source with an id, as a payload has them. -/
def itemsOf (actions : Json) (id : String) : List Json :=
  let source := (actions.items?.getD []).find? fun v ↦ v.sourceId? = some id
  ((source.bind (member? "actions")).bind items?).getD []

theorem length_uncancelled_le (values : List Json) :
    (uncancelled values).length ≤ values.length := by
  induction values with
  | nil => exact le_rfl
  | cons v rest ih =>
    unfold uncancelled
    split_ifs
    · exact ih.trans (Nat.le_succ _)
    · exact Nat.succ_le_succ ih

/-- Nothing is taken back exactly if there is no cancel. -/
theorem length_uncancelled_eq_iff (values : List Json) :
    (uncancelled values).length = values.length ↔ ∀ v ∈ values, v.isCancel = false := by
  induction values with
  | nil => simp [uncancelled]
  | cons v rest ih =>
    rw [List.forall_mem_cons, ← ih, List.length_cons, uncancelled]
    split_ifs with htaken
    · have hle := length_uncancelled_le rest
      constructor
      · intro hsame
        omega
      · rintro ⟨hkept, hsame⟩
        rw [hkept, Bool.false_or] at htaken
        obtain ⟨next, hnext, hcancel⟩ := (Option.any_eq_true _ _).1 htaken
        rw [ih.1 hsame next (List.mem_of_mem_head? hnext)] at hcancel
        cases hcancel
    · have hkept : v.isCancel = false := by
        rw [Bool.or_eq_true, not_or] at htaken
        exact Bool.eq_false_iff.2 htaken.1
      rw [List.length_cons, Nat.succ_inj]
      exact ⟨fun hsame ↦ ⟨hkept, hsame⟩, fun h ↦ h.2⟩

/-- A value that is left was sent after some values, and its place counts those of them that are
left. What takes one of those back is itself a cancel or comes before the value that is left. -/
theorem exists_append_of_uncancelled {values : List Json} {place : Nat} {v : Json}
    (hget : (uncancelled values)[place]? = some v) :
    v.isCancel = false ∧ ∃ before later, values = before ++ v :: later ∧
      (uncancelled before).length = place := by
  induction values generalizing place with
  | nil => cases hget
  | cons first rest ih =>
    unfold uncancelled at hget
    split_ifs at hget with htaken
    · obtain ⟨hkept, before, later, rfl, hplace⟩ := ih hget
      refine ⟨hkept, first :: before, later, rfl, ?_⟩
      have hstill : (first.isCancel || before.head?.any isCancel) = true := by
        cases before with
        | nil => simpa [hkept] using htaken
        | cons next others => exact htaken
      rw [uncancelled, if_pos hstill, hplace]
    · cases place with
      | zero =>
        cases hget
        rw [Bool.or_eq_true, not_or] at htaken
        exact ⟨Bool.eq_false_iff.2 htaken.1, [], rest, rfl, rfl⟩
      | succ place =>
        obtain ⟨hkept, before, later, rfl, hplace⟩ := ih hget
        refine ⟨hkept, first :: before, later, rfl, ?_⟩
        have hstill : ¬(first.isCancel || before.head?.any isCancel) = true := by
          cases before with
          | nil =>
            rw [Bool.or_eq_true, not_or] at htaken
            simpa using htaken.1
          | cons next others => exact htaken
        rw [uncancelled, if_neg hstill, List.length_cons, hplace]

end Json

/-! ### Reading -/

/-- A value that an item can have been read from: it names the type of the item, and has nothing
under the keys that the item lacks. -/
structure Json.Sends (v : Json) (item : Item) : Prop where
  type : v.typeName? = some item.type.name
  lacks : ∀ field, item.Lacks field → v.LacksMember field.name

namespace Json

variable {v : Json} {key : String}

theorem lacksMember_of_value?_eq_none (hnone : v.value? key = none) : v.LacksMember key := by
  unfold LacksMember
  rw [value?, Option.filter_eq_none_iff] at hnone
  cases hmember : v.member? key with
  | none => exact .inl rfl
  | some w =>
    have hnull := hnone w hmember
    cases w with
    | null => exact .inr rfl
    | bool | number | string | array | object => simp [isNull] at hnull

theorem lacksMember_of_rel {α : Type} {Spelled : Json → α → Prop} {answer : Option α}
    (hspells : Option.Rel Spelled (v.value? key) answer) (hnone : answer = none) :
    v.LacksMember key := by
  subst hnone
  generalize hvalue : v.value? key = value at hspells
  cases hspells
  exact lacksMember_of_value?_eq_none hvalue

/-- An item lacks no key under which the value that spells it has something. -/
theorem Spells.sends {item : Item} (hspells : v.Spells item) : v.Sends item := by
  refine ⟨hspells.type, fun field hlacks ↦ ?_⟩
  have hfields := hspells.fields
  cases item with
  | pause | keyDown | keyUp =>
    obtain ⟨rfl, hnone⟩ := hlacks
    exact lacksMember_of_rel hfields hnone
  | pointerMove move =>
    rcases hlacks with ⟨rfl, hnone⟩ | ⟨rfl, hnone⟩ | ⟨rfl, hnone⟩
    · exact lacksMember_of_rel hfields.duration hnone
    · exact lacksMember_of_rel hfields.x hnone
    · exact lacksMember_of_rel hfields.y hnone
  | pointerDown | pointerUp | pointerCancel => exact hlacks.elim

end Json

theorem Json.Sends.isCancel_eq {v : Json} {item : Item} (hsends : v.Sends item) :
    v.isCancel = item.isCancel := by
  unfold Json.isCancel
  rw [hsends.type]
  cases item with
  | pause | pointerDown | pointerUp | pointerMove | pointerCancel | keyDown | keyUp => rfl

/-- The values that are left are those of the items that are left. -/
theorem Item.forall₂_sends_dropCancelled {values : List Json} {items : List Item}
    (hsends : List.Forall₂ Json.Sends values items) :
    List.Forall₂ Json.Sends (Json.uncancelled values) (dropCancelled items) := by
  induction hsends with
  | nil => exact .nil
  | @cons v item values items hfirst hrest ih =>
    have hnext : values.head?.any Json.isCancel = items.head?.any isCancel := by
      cases hrest with
      | nil => rfl
      | cons hsecond _ => exact hsecond.isCancel_eq
    rw [Json.uncancelled, dropCancelled_cons, hfirst.isCancel_eq, hnext]
    split_ifs
    · exact ih
    · exact .cons hfirst ih

/-! ### Sources -/

namespace Source

variable {s : Source} {sources accepted : List Source}

/-- A value that a source can have been read from: it names the id of the source, and its items are
sent by its values. -/
def SentBy (v : Json) (s : Source) : Prop :=
  v.sourceId? = some s.id ∧ ∃ values, (v.member? "actions").bind Json.items? = some values ∧
    List.Forall₂ Json.Sends values s.items

theorem sentBy_of_spells {v : Json} (hspells : v.SpellsSource s) : SentBy v s := by
  obtain ⟨values, hvalues, hitems⟩ := hspells.items
  exact ⟨hspells.id, values, hvalues, hitems.imp fun _ _ ↦ Json.Spells.sends⟩

/-- A source with an id of its own is found by it. -/
theorem SentBy.find?_eq {values : List Json} (hsent : List.Forall₂ SentBy values sources)
    (hnodup : (sources.map Source.id).Nodup) (hs : s ∈ sources) :
    ∃ v, values.find? (fun v ↦ v.sourceId? = some s.id) = some v ∧ SentBy v s := by
  induction hsent with
  | nil => exact absurd hs List.not_mem_nil
  | @cons v first values sources hfirst hrest ih =>
    obtain ⟨hother, hnodup⟩ := List.nodup_cons.1 hnodup
    rcases List.mem_cons.1 hs with rfl | hs
    · refine ⟨v, ?_, hfirst⟩
      rw [List.find?_cons_of_pos (by simpa using hfirst.1)]
    · have hne : first.id ≠ s.id := fun hsame ↦ hother (hsame ▸ List.mem_map_of_mem hs)
      obtain ⟨found, hfound, hsends⟩ := ih hnodup hs
      refine ⟨found, ?_, hsends⟩
      rw [List.find?_cons_of_neg (by simpa [hfirst.1] using hne)]
      exact hfound

/-- The values that the source of the payload has left send the items of the source that is
accepted. -/
theorem forall₂_sends_of_accept {actions : Json}
    (hread : (readAll actions >>= accept) = .ok accepted) (hs : s ∈ accepted) :
    List.Forall₂ Json.Sends (Json.uncancelled (actions.itemsOf s.id)) s.items := by
  obtain ⟨sources, hsources, haccept⟩ := bind_eq_ok.1 hread
  rw [eq_map_of_accept haccept] at hs
  obtain ⟨whole, hwhole, rfl⟩ := List.mem_map.1 hs
  cases actions with
  | array values =>
    have hnodup := (acceptFrom_eq_ok.1 (accept_eq_ok.1 haccept).1).2.1
    obtain ⟨v, hfind, -, items, hitems, hsends⟩ :=
      SentBy.find?_eq ((readFrom_eq_ok.1 hsources).imp fun _ _ ↦ sentBy_of_spells) hnodup hwhole
    have hvalues : (Json.array values).itemsOf whole.withoutCancelled.id = items := by
      unfold Json.itemsOf
      change (((values.find? fun v ↦ v.sourceId? = some whole.id).bind
        (Json.member? "actions")).bind Json.items?).getD [] = items
      rw [hfind, Option.bind_some, hitems, Option.getD_some]
    rw [hvalues]
    exact Item.forall₂_sends_dropCancelled hsends
  | null | bool | number | string | object => cases hsources

theorem exists_sent_of_accept {actions : Json}
    (hread : (readAll actions >>= accept) = .ok accepted) (hs : s ∈ accepted) {place : Nat}
    {item : Item} (hitem : s.items[place]? = some item) :
    ∃ v, (Json.uncancelled (actions.itemsOf s.id))[place]? = some v ∧ v.Sends item := by
  obtain ⟨hlength, hsends⟩ := List.forall₂_iff_get.1 (forall₂_sends_of_accept hread hs)
  obtain ⟨hplace, rfl⟩ := List.getElem?_eq_some_iff.1 hitem
  exact ⟨_, List.getElem?_eq_getElem (hlength ▸ hplace), hsends place (hlength ▸ hplace) hplace⟩

end Source

end ActionReplay
