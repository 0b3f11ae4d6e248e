import ActionReplay.Table
import Mathlib.Data.List.Induction

/-!
# Tables in order

A table in order has each key once, so what it holds is what is found in it (`find?_of_mem`, `eq_of_mem`). A
new key adds its entry and nothing else (`mem_insert_iff`), and an entry that is erased is all that goes
(`mem_erase_iff`).

Entries that arrive in order stay as they are (`ofList_eq_self`). Under a linear order an entry is put where
the table stays in order (`ascending_insert`), so entries that arrive in any order make a table in order
(`ascending_ofList`).
-/

set_option autoImplicit false
set_option relaxedAutoImplicit false

namespace ActionReplay.Table

variable {κ α : Type} [LT κ] [DecidableEq κ] {t : Table κ α}

/-- A new key adds its entry. -/
theorem mem_insert_iff [DecidableLT κ] {key : κ} (hnew : key ∉ t.keys) (value : α) {entry : κ × α} :
    entry ∈ t.insert key value ↔ entry = (key, value) ∨ entry ∈ t := by
  refine ⟨mem_insert, ?_⟩
  rintro (rfl | hmem)
  · exact mem_insert_self key value t
  · induction t with
    | nil => exact absurd hmem List.not_mem_nil
    | cons first rest ih =>
      obtain ⟨hne, hrest⟩ := not_or.1 (mt List.mem_cons.2 hnew)
      rw [insert, if_neg hne]
      split_ifs
      · exact List.mem_cons_of_mem _ hmem
      · rcases List.mem_cons.1 hmem with rfl | hlater
        · exact List.mem_cons_self
        · exact List.mem_cons_of_mem _ (ih hrest hlater)

variable [LE κ] [Std.LawfulOrderLT κ]

/-! ### What a table holds -/

theorem find?_of_mem (hascending : t.Ascending) {key : κ} {value : α} (hmem : (key, value) ∈ t) :
    t.find? key = some value := by
  induction t with
  | nil => exact absurd hmem List.not_mem_nil
  | cons entry rest ih =>
    obtain ⟨hbelow, hrest⟩ := List.pairwise_cons.1 hascending
    rw [find?_cons]
    rcases List.mem_cons.1 hmem with rfl | hlater
    · exact if_pos rfl
    · rw [if_neg (Std.ne_of_lt (hbelow _ hlater))]
      exact ih hrest hlater

/-- Entries with one key are one entry. -/
theorem eq_of_mem (hascending : t.Ascending) {entry other : κ × α} (hmem : entry ∈ t)
    (hother : other ∈ t) (hkey : entry.1 = other.1) : entry = other := by
  have hentry := find?_of_mem hascending hmem
  rw [hkey, find?_of_mem hascending hother] at hentry
  exact Prod.ext hkey (Option.some.inj hentry).symm

omit [DecidableEq κ] in
/-- A table of a single key has a single entry. -/
theorem length_eq_one {key : κ} (hascending : t.Ascending) (hall : ∀ other ∈ t.keys, other = key)
    (hkey : key ∈ t.keys) : t.length = 1 := by
  match t with
  | [] => exact absurd hkey List.not_mem_nil
  | [entry] => rfl
  | first :: second :: rest =>
    have hlt := (List.pairwise_cons.1 hascending).1 second List.mem_cons_self
    have hfirst := hall first.1 (by simp [keys])
    have hsecond := hall second.1 (by simp [keys])
    rw [hfirst, hsecond] at hlt
    exact absurd hlt Std.lt_irrefl

theorem mem_erase_iff (hascending : t.Ascending) {entry : κ × α} (hmem : entry ∈ t) {other : κ × α} :
    other ∈ t.erase entry.1 ↔ other ∈ t ∧ other ≠ entry := by
  rw [erase, List.mem_filter, decide_eq_true_iff]
  refine and_congr_right fun hother ↦ not_congr ⟨fun hkey ↦ ?_, congrArg Prod.fst⟩
  exact eq_of_mem hascending hother hmem hkey

/-! ### Entries in order of arrival -/

variable [DecidableLT κ]

/-- An entry with a key behind all others is put at the end. -/
theorem insert_eq_append {key : κ} (hbehind : ∀ entry ∈ t, entry.1 < key) (value : α) :
    insert key value t = t ++ [(key, value)] := by
  induction t with
  | nil => rfl
  | cons entry rest ih =>
    obtain ⟨hfirst, hrest⟩ := List.forall_mem_cons.1 hbehind
    obtain ⟨other, a⟩ := entry
    rw [insert, if_neg (Std.not_gt_of_lt hfirst), if_neg (Std.ne_of_lt hfirst).symm, ih hrest]
    rfl

/-- Entries that arrive in order stay as they are. -/
theorem ofList_eq_self (hascending : t.Ascending) : ofList t = t := by
  induction t using List.reverseRecOn with
  | nil => rfl
  | append_singleton before entry ih =>
    obtain ⟨hbefore, -, hbehind⟩ := List.pairwise_append.1 hascending
    rw [ofList, List.foldl_append, ← ofList, ih hbefore]
    exact insert_eq_append (fun other hother ↦ hbehind other hother entry
      (List.mem_singleton_self entry)) entry.2

variable [Std.IsLinearOrder κ]

theorem ascending_insert (hascending : t.Ascending) (key : κ) (value : α) :
    (t.insert key value).Ascending :=
  hascending.insert (fun _ _ _ ↦ Std.lt_trans)
    (fun _ _ hnot hne ↦ Std.lt_of_le_of_ne (Std.not_lt.1 hnot) hne.symm) key value

theorem ascending_ofList (entries : List (κ × α)) : (ofList entries).Ascending := by
  induction entries using List.reverseRecOn with
  | nil => exact List.Pairwise.nil
  | append_singleton before entry ih =>
    rw [ofList, List.foldl_append]
    exact ascending_insert ih entry.1 entry.2

end ActionReplay.Table
