/-!
# Tables

A table is a list of keyed entries in strictly increasing key order (`Ascending`). `insert` keeps the
order and overwrites the entry of a key already present, `erase` removes it, `find?` reads it back. Reading
after writing gives what was written under the same key and leaves every other key alone
(`find?_insert`, `find?_erase`), and both writers keep the order (`Ascending.insert`, `Ascending.erase`).
-/

set_option autoImplicit false
set_option relaxedAutoImplicit false

namespace ActionReplay

abbrev Table (κ α : Type) := List (κ × α)

namespace Table

variable {κ α : Type}

def find? [DecidableEq κ] (key : κ) : Table κ α → Option α
  | [] => none
  | (k, a) :: rest => if k = key then some a else find? key rest

def insert [LT κ] [DecidableLT κ] [DecidableEq κ] (key : κ) (value : α) : Table κ α → Table κ α
  | [] => [(key, value)]
  | (k, a) :: rest =>
    if key < k then (key, value) :: (k, a) :: rest
    else if key = k then (key, value) :: rest
    else (k, a) :: insert key value rest

def erase [DecidableEq κ] (key : κ) (t : Table κ α) : Table κ α :=
  t.filter fun entry ↦ entry.1 ≠ key

def keys (t : Table κ α) : List κ :=
  t.map Prod.fst

/-- Entries in order of arrival; of two with one key the later wins. -/
def ofList [LT κ] [DecidableLT κ] [DecidableEq κ] (entries : List (κ × α)) : Table κ α :=
  entries.foldl (fun t entry ↦ insert entry.1 entry.2 t) []

theorem keys_eq_nil_iff {t : Table κ α} : t.keys = [] ↔ t = [] :=
  List.map_eq_nil_iff

/-- Keys increase strictly, so no key occurs twice. -/
def Ascending [LT κ] (t : Table κ α) : Prop :=
  t.Pairwise fun a b ↦ a.1 < b.1

/-! ### Reading -/

section Reading

variable [DecidableEq κ]

@[simp]
theorem find?_nil (key : κ) : find? key ([] : Table κ α) = none := rfl

theorem find?_cons (key : κ) (entry : κ × α) (t : Table κ α) :
    find? key (entry :: t) = if entry.1 = key then some entry.2 else find? key t := rfl

theorem mem_of_find? {key : κ} {value : α} {t : Table κ α} (h : find? key t = some value) :
    (key, value) ∈ t := by
  induction t with
  | nil => simp at h
  | cons entry rest ih =>
    rw [find?_cons] at h
    split at h
    · rename_i same
      obtain ⟨k, a⟩ := entry
      cases same
      cases h
      exact List.mem_cons_self
    · exact List.mem_cons_of_mem _ (ih h)

theorem find?_eq_none_iff {key : κ} {t : Table κ α} : find? key t = none ↔ key ∉ t.keys := by
  induction t with
  | nil => simp [keys]
  | cons entry rest ih =>
    rw [find?_cons]
    by_cases same : entry.1 = key
    · simp [same, keys]
    · simpa [same, keys, Ne.symm same] using ih

theorem mem_keys_iff {key : κ} {t : Table κ α} : key ∈ t.keys ↔ find? key t ≠ none := by
  simp [find?_eq_none_iff]

end Reading

/-! ### Writing -/

section Writing

variable [DecidableEq κ]

/-- Leaving out entries by their keys leaves what stands under the other keys. -/
theorem find?_filter (keep : κ → Bool) (key : κ) (t : Table κ α) :
    find? key (t.filter fun entry ↦ keep entry.1) = if keep key then find? key t else none := by
  induction t with
  | nil => simp
  | cons entry rest ih =>
    rw [List.filter_cons]
    by_cases same : entry.1 = key
    · cases kept : keep key with
      | true => simp [find?_cons, same, kept]
      | false => simp [ih, same, kept]
    · rw [find?_cons, if_neg same, ← ih]
      split
      · rw [find?_cons, if_neg same]
      · rfl

theorem find?_erase (key other : κ) (t : Table κ α) :
    find? other (erase key t) = if other = key then none else find? other t := by
  rw [erase, find?_filter (fun k ↦ decide (k ≠ key))]
  by_cases same : other = key
  · simp [same]
  · simp [same]

theorem mem_keys_erase {key other : κ} {t : Table κ α} :
    other ∈ (t.erase key).keys ↔ other ∈ t.keys ∧ other ≠ key := by
  rw [mem_keys_iff, mem_keys_iff, find?_erase]
  by_cases same : other = key
  · simp [same]
  · simp [same]

theorem Ascending.erase [LT κ] {t : Table κ α} (h : Ascending t) (key : κ) :
    Ascending (erase key t) :=
  h.filter _

variable [LT κ] [DecidableLT κ]

theorem find?_insert (key other : κ) (value : α) (t : Table κ α) :
    find? other (insert key value t) = if other = key then some value else find? other t := by
  induction t with
  | nil => simp [insert, find?_cons, eq_comm]
  | cons entry rest ih =>
    obtain ⟨k, a⟩ := entry
    rw [insert]
    split
    · simp [find?_cons, eq_comm]
    · split
      · rename_i same
        subst same
        by_cases hit : other = key
        · simp [find?_cons, hit]
        · simp [find?_cons, hit, Ne.symm hit]
      · rename_i differs
        rw [find?_cons, ih, find?_cons]
        by_cases hit : other = key
        · simp [hit, Ne.symm differs]
        · simp [hit]

theorem mem_keys_insert {key other : κ} {value : α} {t : Table κ α} :
    other ∈ (t.insert key value).keys ↔ other ∈ t.keys ∨ other = key := by
  rw [mem_keys_iff, mem_keys_iff, find?_insert]
  by_cases same : other = key
  · simp [same]
  · simp [same]

theorem mem_insert_self (key : κ) (value : α) (t : Table κ α) :
    (key, value) ∈ t.insert key value :=
  mem_of_find? ((find?_insert key key value t).trans (if_pos rfl))

theorem mem_insert {key : κ} {value : α} {t : Table κ α} {entry : κ × α}
    (h : entry ∈ insert key value t) : entry = (key, value) ∨ entry ∈ t := by
  induction t with
  | nil => simpa [insert] using h
  | cons first rest ih =>
    obtain ⟨k, a⟩ := first
    rw [insert] at h
    split at h
    · simpa using h
    · split at h
      · rcases List.mem_cons.1 h with h | h
        · exact .inl h
        · exact .inr (List.mem_cons_of_mem _ h)
      · rcases List.mem_cons.1 h with h | h
        · exact .inr (h ▸ List.mem_cons_self)
        · exact (ih h).imp id (List.mem_cons_of_mem _)

theorem Ascending.insert {t : Table κ α} (trans : ∀ a b c : κ, a < b → b < c → a < c)
    (total : ∀ a b : κ, ¬a < b → a ≠ b → b < a) (h : Ascending t) (key : κ) (value : α) :
    Ascending (insert key value t) := by
  induction t with
  | nil => simp [Table.insert, Ascending]
  | cons first rest ih =>
    obtain ⟨k, a⟩ := first
    obtain ⟨below, ordered⟩ := List.pairwise_cons.1 h
    rw [Table.insert]
    split
    · rename_i less
      refine List.pairwise_cons.2 ⟨fun entry member ↦ ?_, h⟩
      rcases List.mem_cons.1 member with same | later
      · exact same ▸ less
      · exact trans _ _ _ less (below entry later)
    · rename_i notLess
      split
      · rename_i same
        subst same
        exact List.pairwise_cons.2 ⟨below, ordered⟩
      · rename_i differs
        refine List.pairwise_cons.2 ⟨fun entry member ↦ ?_, ih ordered⟩
        rcases mem_insert member with same | later
        · exact same ▸ total _ _ notLess differs
        · exact below entry later

end Writing

end Table

end ActionReplay
