import ActionReplay.Proofs.Success
import ActionReplay.Source.Accepted
import Mathlib.Tactic.SplitIfs

/-!
# What is accepted

Sources are accepted one by one, each beside the ids before it (`acceptOne_eq_ok`), and come out as
they were read, without their cancelled items (`acceptFrom_eq_ok`). What the pointer sources have in
common is only checked of the types that they name: no two sources name different ones
(`pointerType_eq_of_accept`), and a source that names none is not asked.
-/

set_option autoImplicit false
set_option relaxedAutoImplicit false

namespace ActionReplay.Source

variable {s : Source} {sources accepted : List Source}

/-- A source without the items that are cancelled. -/
def withoutCancelled (s : Source) : Source :=
  { s with items := Item.dropCancelled s.items }

/-- A source that can stand beside sources with some ids. -/
structure Acceptable (ids : List String) (s : Source) : Prop where
  named : s.id ≠ ""
  fresh : s.id ∉ ids
  pointer : s.pointerType.isSome = true → s.kind = .pointer
  allowed : ∀ item ∈ s.items, s.kind.allows item = true

theorem acceptOne_eq_ok {place : Nat} {ids : List String} {answer : Source} :
    s.acceptOne place ids = .ok answer ↔ s.Acceptable ids ∧ answer = s.withoutCancelled := by
  have hfind : s.items.find? (fun item ↦ !s.kind.allows item) = none ↔
      ∀ item ∈ s.items, s.kind.allows item = true := by
    simp [List.find?_eq_none]
  unfold acceptOne
  constructor
  · intro h
    split_ifs at h with hempty hused hmisplaced
    split at h
    · cases h
    · next hnone =>
      cases h
      refine ⟨⟨hempty, hused, ?_, hfind.1 hnone⟩, rfl⟩
      intro htyped
      simpa [htyped] using hmisplaced
  · rintro ⟨⟨hnamed, hfresh, hpointer, hallowed⟩, rfl⟩
    have hplaced : (s.pointerType.isSome && decide (s.kind ≠ .pointer)) = false := by
      cases htyped : s.pointerType.isSome with
      | false => rfl
      | true => simp [hpointer htyped]
    rw [if_neg hnamed, if_neg hfresh, hplaced, if_neg Bool.false_ne_true, hfind.2 hallowed]
    rfl

/-- Sources are accepted one by one exactly if each can stand beside the ids before all of them, and
no two have one id. -/
theorem acceptFrom_eq_ok {place : Nat} {ids : List String} :
    acceptFrom place ids sources = .ok accepted ↔
      (∀ s ∈ sources, s.Acceptable ids) ∧ (sources.map Source.id).Nodup ∧
        accepted = sources.map withoutCancelled := by
  induction sources generalizing place ids accepted with
  | nil =>
    constructor
    · intro haccept
      cases haccept
      exact ⟨List.forall_mem_nil _, List.nodup_nil, rfl⟩
    · rintro ⟨-, -, rfl⟩
      rfl
  | cons s rest ih =>
    rw [acceptFrom, bind_eq_ok, List.forall_mem_cons, List.map_cons, List.nodup_cons]
    constructor
    · rintro ⟨first, hfirst, haccept⟩
      obtain ⟨others, hothers, haccept⟩ := bind_eq_ok.1 haccept
      cases haccept
      obtain ⟨hs, rfl⟩ := acceptOne_eq_ok.1 hfirst
      obtain ⟨hrest, hnodup, rfl⟩ := ih.1 hothers
      refine ⟨⟨hs, fun r hr ↦ ?_⟩, ⟨?_, hnodup⟩, rfl⟩
      · obtain ⟨hnamed, hfresh, hpointer, hallowed⟩ := hrest r hr
        exact ⟨hnamed, fun hused ↦ hfresh (List.mem_cons_of_mem _ hused), hpointer, hallowed⟩
      · intro hagain
        obtain ⟨r, hr, hid⟩ := List.mem_map.1 hagain
        exact (hrest r hr).fresh (hid ▸ List.mem_cons_self)
    · rintro ⟨⟨hs, hrest⟩, ⟨hother, hnodup⟩, rfl⟩
      refine ⟨_, acceptOne_eq_ok.2 ⟨hs, rfl⟩, bind_eq_ok.2 ⟨_, ih.2 ⟨fun r hr ↦ ?_, hnodup, rfl⟩, rfl⟩⟩
      obtain ⟨hnamed, hfresh, hpointer, hallowed⟩ := hrest r hr
      refine ⟨hnamed, fun hused ↦ ?_, hpointer, hallowed⟩
      rcases List.mem_cons.1 hused with hid | hused
      · exact hother (hid ▸ List.mem_map_of_mem hr)
      · exact hfresh hused

theorem mem_namedPointerTypes {type : PointerType} :
    type ∈ namedPointerTypes sources ↔ ∃ s ∈ sources, s.pointerType = some type := by
  have hall : type ∈ PointerType.all := by cases type <;> decide
  simp [namedPointerTypes, hall]

/-- Sources are accepted exactly if each is accepted beside those before it, and all of them name
one pointer type at most. -/
theorem accept_eq_ok :
    accept sources = .ok accepted ↔
      acceptFrom 0 [] sources = .ok accepted ∧ (namedPointerTypes sources).length ≤ 1 := by
  unfold accept
  rw [bind_eq_ok]
  constructor
  · rintro ⟨answer, hanswer, h⟩
    dsimp only at h
    split_ifs at h with hmixed
    cases h
    exact ⟨hanswer, Nat.le_of_not_lt hmixed⟩
  · rintro ⟨hanswer, hone⟩
    exact ⟨accepted, hanswer, if_neg (Nat.not_lt.2 hone)⟩

theorem eq_map_of_accept (haccept : accept sources = .ok accepted) :
    accepted = sources.map withoutCancelled :=
  (acceptFrom_eq_ok.1 (accept_eq_ok.1 haccept).1).2.2

/-- Sources name one pointer type at most exactly if no two of them name different ones. -/
theorem length_namedPointerTypes_le_one_iff :
    (namedPointerTypes sources).length ≤ 1 ↔
      ∀ s ∈ sources, ∀ r ∈ sources, ∀ type other, s.pointerType = some type →
        r.pointerType = some other → type = other := by
  have hnodup : (namedPointerTypes sources).Nodup := List.Pairwise.filter _ (by decide)
  constructor
  · intro hone s hs r hr type other htype hother
    have hfirst := mem_namedPointerTypes.2 ⟨s, hs, htype⟩
    have hsecond := mem_namedPointerTypes.2 ⟨r, hr, hother⟩
    match hall : namedPointerTypes sources with
    | [] =>
      rw [hall] at hfirst
      exact absurd hfirst List.not_mem_nil
    | [only] =>
      rw [hall] at hfirst hsecond
      exact (List.mem_singleton.1 hfirst).trans (List.mem_singleton.1 hsecond).symm
    | _ :: _ :: _ =>
      rw [hall] at hone
      exact absurd hone (by simp)
  · intro hsame
    match hall : namedPointerTypes sources with
    | [] => exact Nat.zero_le 1
    | [_] => exact Nat.le_refl 1
    | first :: second :: rest =>
      rw [hall] at hnodup
      obtain ⟨s, hs, htype⟩ := mem_namedPointerTypes.1 (hall ▸ List.mem_cons_self)
      obtain ⟨r, hr, hother⟩ := mem_namedPointerTypes.1
        (hall ▸ List.mem_cons_of_mem first List.mem_cons_self)
      have hne := (List.pairwise_cons.1 hnodup).1 second List.mem_cons_self
      exact absurd (hsame s hs r hr first second htype hother) hne

/-- Two accepted sources that name pointer types name the same one. -/
theorem pointerType_eq_of_accept (haccept : accept sources = .ok accepted) {r : Source}
    (hs : s ∈ accepted) (hr : r ∈ accepted) {type other : PointerType}
    (htype : s.pointerType = some type) (hother : r.pointerType = some other) : type = other := by
  rw [eq_map_of_accept haccept] at hs hr
  obtain ⟨first, hfirst, rfl⟩ := List.mem_map.1 hs
  obtain ⟨second, hsecond, rfl⟩ := List.mem_map.1 hr
  exact length_namedPointerTypes_le_one_iff.1 (accept_eq_ok.1 haccept).2 first hfirst second hsecond
    type other htype hother

end ActionReplay.Source
