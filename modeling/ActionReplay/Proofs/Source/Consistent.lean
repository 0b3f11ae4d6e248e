import ActionReplay.Proofs.Source.Sent

/-!
# Which sources can stand together

Sources are accepted exactly if they can stand together: their ids are present and distinct, only
pointer sources name a pointer type, no two of them name different ones, and every source holds
items that its kind allows, the cancelled ones included (`Source.Consistent`). What comes out is
what went in, up to the items. The scan that takes items back runs backward and carries a flag, but
what it leaves can be told of every item from the next one alone: it stays if it is no cancel and
the next item is none (`Item.dropCancelled_eq_kept`). So no cancel is left, and accepting once more
changes nothing (`Source.exists_accept_iff`).
-/

set_option autoImplicit false
set_option relaxedAutoImplicit false

namespace ActionReplay

namespace Item

variable {items : List Item}

/-- The items that are no cancel and do not come right before one, in order. -/
def kept (items : List Item) : List Item :=
  (items.zipIdx.filter fun entry ↦
    !(entry.1.isCancel || items[entry.2 + 1]?.any isCancel)).map Prod.fst

/-- What follows the first item is kept or not as if it stood alone. -/
theorem kept_cons (item : Item) (rest : List Item) :
    kept (item :: rest) =
      if item.isCancel || rest.head?.any isCancel then kept rest else item :: kept rest := by
  have hrest : ((rest.zipIdx 1).filter fun entry ↦
      !(entry.1.isCancel || (item :: rest)[entry.2 + 1]?.any isCancel)).map Prod.fst =
        kept rest := by
    rw [List.zipIdx_succ, List.filter_map, List.map_map]
    rfl
  have hnext : (item :: rest)[0 + 1]? = rest.head? := List.head?_eq_getElem?.symm
  unfold kept at hrest ⊢
  rw [List.zipIdx_cons, List.filter_cons, hnext]
  cases hgone : item.isCancel || rest.head?.any isCancel with
  | true => exact hrest
  | false => exact congrArg (item :: ·) hrest

/-- The backward scan leaves what every item and the next one tell. -/
theorem dropCancelled_eq_kept (items : List Item) : dropCancelled items = kept items := by
  induction items with
  | nil => rfl
  | cons item rest ih => rw [dropCancelled_cons, kept_cons, ih]

/-- Cancels in a row take back one item together. -/
example : dropCancelled
    [.pause none, .pointerDown none, .pointerCancel, .pointerCancel, .pointerUp none] =
      [.pause none, .pointerUp none] := rfl

theorem mem_of_mem_dropCancelled {item : Item} (hitem : item ∈ dropCancelled items) :
    item ∈ items ∧ item.isCancel = false := by
  rw [dropCancelled_eq_kept] at hitem
  obtain ⟨entry, hentry, rfl⟩ := List.mem_map.1 hitem
  obtain ⟨hmem, hkept⟩ := List.mem_filter.1 hentry
  rw [Bool.not_eq_true', Bool.or_eq_false_iff] at hkept
  exact ⟨List.fst_mem_of_mem_zipIdx hmem, hkept.1⟩

/-- Without a cancel nothing is taken back. -/
theorem dropCancelled_eq_self (hnone : ∀ item ∈ items, item.isCancel = false) :
    dropCancelled items = items := by
  induction items with
  | nil => rfl
  | cons item rest ih =>
    obtain ⟨hitem, hrest⟩ := List.forall_mem_cons.1 hnone
    have hnext : rest.head?.any isCancel = false := by
      cases rest with
      | nil => rfl
      | cons next _ => exact hrest next List.mem_cons_self
    rw [dropCancelled_cons, hitem, hnext, ih hrest]
    rfl

end Item

namespace Source

variable {s : Source} {sources accepted : List Source}

/-- Sources that can stand together. -/
structure Consistent (sources : List Source) : Prop where
  named : ∀ s ∈ sources, s.id ≠ ""
  distinct : (sources.map Source.id).Nodup
  pointer : ∀ s ∈ sources, s.pointerType.isSome = true → s.kind = .pointer
  oneType : ∀ s ∈ sources, ∀ r ∈ sources, ∀ type other, s.pointerType = some type →
    r.pointerType = some other → type = other
  allowed : ∀ s ∈ sources, ∀ item ∈ s.items, s.kind.allows item = true

theorem accept_eq_ok_iff_consistent :
    accept sources = .ok accepted ↔ Consistent sources ∧ accepted = sources.map withoutCancelled := by
  rw [accept_eq_ok, acceptFrom_eq_ok, length_namedPointerTypes_le_one_iff]
  constructor
  · rintro ⟨⟨hall, hdistinct, hsame⟩, hone⟩
    exact ⟨⟨fun s hs ↦ (hall s hs).named, hdistinct, fun s hs ↦ (hall s hs).pointer, hone,
      fun s hs ↦ (hall s hs).allowed⟩, hsame⟩
  · rintro ⟨⟨hnamed, hdistinct, hpointer, hone, hallowed⟩, hsame⟩
    exact ⟨⟨fun s hs ↦ ⟨hnamed s hs, List.not_mem_nil, hpointer s hs, hallowed s hs⟩, hdistinct,
      hsame⟩, hone⟩

theorem withoutCancelled_withoutCancelled (s : Source) :
    s.withoutCancelled.withoutCancelled = s.withoutCancelled := by
  have hnone : Item.dropCancelled s.withoutCancelled.items = s.withoutCancelled.items :=
    Item.dropCancelled_eq_self fun _ hitem ↦ (Item.mem_of_mem_dropCancelled hitem).2
  exact congrArg (fun items ↦ { s with items }) hnone

/-- Sources still stand together without their cancelled items. -/
theorem Consistent.withoutCancelled (hconsistent : Consistent sources) :
    Consistent (sources.map withoutCancelled) := by
  obtain ⟨hnamed, hdistinct, hpointer, hone, hallowed⟩ := hconsistent
  refine ⟨List.forall_mem_map.2 hnamed, ?_, List.forall_mem_map.2 hpointer,
    List.forall_mem_map.2 fun s hs ↦ List.forall_mem_map.2 fun r hr ↦ hone s hs r hr,
    List.forall_mem_map.2 fun s hs item hitem ↦ ?_⟩
  · rw [List.map_map]
    exact hdistinct
  · exact hallowed s hs item (Item.mem_of_mem_dropCancelled hitem).1

/-- Sources are accepted exactly if they can stand together. They come out in order and as they
were, except that of their items those are left that are no cancel and do not come right before
one. No cancel is among them, and accepting them once more changes nothing. -/
theorem exists_accept_iff (sources : List Source) :
    ((∃ accepted, accept sources = .ok accepted) ↔ Consistent sources) ∧
      ∀ accepted, accept sources = .ok accepted →
        accepted = sources.map (fun s ↦ { s with items := Item.kept s.items }) ∧
          (∀ s ∈ accepted, Item.pointerCancel ∉ s.items) ∧ accept accepted = .ok accepted := by
  constructor
  · constructor
    · rintro ⟨accepted, haccept⟩
      exact (accept_eq_ok_iff_consistent.1 haccept).1
    · intro hconsistent
      exact ⟨_, accept_eq_ok_iff_consistent.2 ⟨hconsistent, rfl⟩⟩
  · intro accepted haccept
    obtain ⟨hconsistent, rfl⟩ := accept_eq_ok_iff_consistent.1 haccept
    refine ⟨?_, ?_, ?_⟩
    · apply List.map_congr_left
      intro s _
      rw [Source.withoutCancelled, Item.dropCancelled_eq_kept]
    · refine List.forall_mem_map.2 fun s _ hcancel ↦ ?_
      exact absurd (Item.mem_of_mem_dropCancelled hcancel).2 (by decide)
    · refine accept_eq_ok_iff_consistent.2 ⟨hconsistent.withoutCancelled, ?_⟩
      rw [List.map_map]
      exact List.map_congr_left fun s _ ↦ s.withoutCancelled_withoutCancelled.symm

end Source

end ActionReplay
