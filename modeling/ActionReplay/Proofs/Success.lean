import Mathlib.Data.List.Forall2

/-!
# When a computation that can fail succeeds

Sources are read, accepted and compiled in steps that may each end in a fault. A chain of two steps
succeeds when the first does and the second does on its answer (`bind_eq_ok`), and a list of steps
succeeds when each of them does (`mapM_eq_ok_map`, `exists_ok_of_mapM`), also where each step knows its
place (`pass_eq_ok`). The fault of a chain is that of its first step or of its second
(`bind_eq_error`), and the fault of a list is that of one of its steps (`exists_error_of_mapM`). What
follows a step needs to be known of its answers only (`bind_eq_bind_of_ok`), and a list of steps ends
alike on inputs that no step tells apart (`pass_congr`). Where each step starts from the state the one
before it left, what every step keeps holds of all answers (`forall_mem_walk`).
-/

set_option autoImplicit false
set_option relaxedAutoImplicit false

namespace ActionReplay

variable {ε α β : Type}

/-- A chain of two steps succeeds exactly when both do. -/
theorem bind_eq_ok {step : Except ε α} {next : α → Except ε β} {b : β} :
    (step >>= next) = .ok b ↔ ∃ a, step = .ok a ∧ next a = .ok b := by
  cases step with
  | error fault =>
    constructor
    · intro h
      cases h
    · rintro ⟨a, ha, -⟩
      cases ha
  | ok a =>
    constructor
    · intro h
      exact ⟨a, rfl, h⟩
    · rintro ⟨other, hother, h⟩
      cases hother
      exact h

/-- Only the answers of the first step matter to what follows it. -/
theorem bind_eq_bind_of_ok {step : Except ε α} {next other : α → Except ε β}
    (hsame : ∀ a, step = .ok a → next a = other a) : (step >>= next) = (step >>= other) := by
  cases step with
  | error fault => rfl
  | ok a => exact hsame a rfl

/-- A step whose answer is changed succeeds when the step does. -/
theorem map_eq_ok {f : α → β} {step : Except ε α} {b : β} :
    f <$> step = .ok b ↔ ∃ a, step = .ok a ∧ f a = b := by
  cases step with
  | error fault => simp [Functor.map, Except.map]
  | ok a => simp [Functor.map, Except.map]

theorem map_eq_ok_of_injective {f : α → β} (hf : Function.Injective f) {step : Except ε α} {a : α} :
    f <$> step = .ok (f a) ↔ step = .ok a := by
  rw [map_eq_ok]
  exact ⟨fun ⟨_, hstep, hsame⟩ ↦ hf hsame ▸ hstep, fun hstep ↦ ⟨a, hstep, rfl⟩⟩

/-- A chain of two steps ends in a fault exactly when the first does, or the second on its answer. -/
theorem bind_eq_error {step : Except ε α} {next : α → Except ε β} {fault : ε} :
    (step >>= next) = .error fault ↔
      step = .error fault ∨ ∃ a, step = .ok a ∧ next a = .error fault := by
  cases step with
  | error other =>
    constructor
    · intro h
      cases h
      exact .inl rfl
    · rintro (h | ⟨a, ha, -⟩)
      · cases h
        rfl
      · cases ha
  | ok a =>
    constructor
    · intro h
      exact .inr ⟨a, rfl, h⟩
    · rintro (h | ⟨other, hother, h⟩)
      · cases h
      · cases hother
        exact h

/-- Assumes: every step on a list succeeds. The list of steps succeeds with their answers in
order. -/
theorem mapM_eq_ok_map {step : α → Except ε β} {answer : α → β} {inputs : List α}
    (hall : ∀ a ∈ inputs, step a = .ok (answer a)) :
    inputs.mapM step = .ok (inputs.map answer) := by
  induction inputs with
  | nil => rfl
  | cons a rest ih =>
    obtain ⟨hfirst, hrest⟩ := List.forall_mem_cons.1 hall
    rw [List.mapM_cons]
    exact bind_eq_ok.2 ⟨_, hfirst, bind_eq_ok.2 ⟨_, ih hrest, rfl⟩⟩

/-- Assumes: a list of steps succeeds. Every one of them does. -/
theorem exists_ok_of_mapM {step : α → Except ε β} {inputs : List α} {answers : List β}
    (hmap : inputs.mapM step = .ok answers) : ∀ a ∈ inputs, ∃ b, step a = .ok b := by
  induction inputs generalizing answers with
  | nil => exact List.forall_mem_nil _
  | cons a rest ih =>
    rw [List.mapM_cons] at hmap
    obtain ⟨b, hb, hmap⟩ := bind_eq_ok.1 hmap
    obtain ⟨later, hlater, -⟩ := bind_eq_ok.1 hmap
    exact List.forall_mem_cons.2 ⟨⟨b, hb⟩, ih hlater⟩

/-- Assumes: a list of steps ends in a fault. One of them does. -/
theorem exists_error_of_mapM {step : α → Except ε β} {inputs : List α} {fault : ε}
    (hmap : inputs.mapM step = .error fault) : ∃ a ∈ inputs, step a = .error fault := by
  induction inputs with
  | nil => cases hmap
  | cons a rest ih =>
    rw [List.mapM_cons] at hmap
    rcases bind_eq_error.1 hmap with hfirst | ⟨b, -, hmap⟩
    · exact ⟨a, List.mem_cons_self, hfirst⟩
    · rcases bind_eq_error.1 hmap with hrest | ⟨later, -, hmap⟩
      · obtain ⟨other, hother, hfault⟩ := ih hrest
        exact ⟨other, List.mem_cons_of_mem a hother, hfault⟩
      · cases hmap

/-! ### Lists that correspond -/

/-- Each of some values is related to something exactly if there is a list to which they are related
one by one. -/
theorem exists_forall₂_iff {Related : α → β → Prop} {inputs : List α} :
    (∃ answers, List.Forall₂ Related inputs answers) ↔ ∀ a ∈ inputs, ∃ b, Related a b := by
  induction inputs with
  | nil => exact ⟨fun _ ↦ List.forall_mem_nil _, fun _ ↦ ⟨[], .nil⟩⟩
  | cons a rest ih =>
    rw [List.forall_mem_cons, ← ih]
    constructor
    · rintro ⟨_, hall⟩
      cases hall with
      | cons hfirst hrest => exact ⟨⟨_, hfirst⟩, _, hrest⟩
    · rintro ⟨⟨b, hfirst⟩, later, hrest⟩
      exact ⟨b :: later, .cons hfirst hrest⟩

theorem exists_mem_left_of_forall₂ {Related : α → β → Prop} {inputs : List α} {answers : List β}
    (hall : List.Forall₂ Related inputs answers) {b : β} (hb : b ∈ answers) :
    ∃ a ∈ inputs, Related a b := by
  induction hall with
  | nil => exact absurd hb List.not_mem_nil
  | cons hfirst _ ih =>
    rcases List.mem_cons.1 hb with rfl | hb
    · exact ⟨_, List.mem_cons_self, hfirst⟩
    · obtain ⟨a, ha, hrelated⟩ := ih hb
      exact ⟨a, List.mem_cons_of_mem _ ha, hrelated⟩

/-- Assumes: a pass takes its steps in order and numbers them, and what a step answers is told by a
relation that does not know its number. The pass succeeds exactly with answers that are so related
to its inputs, one to one and in order. -/
theorem pass_eq_ok (step : Nat → α → Except ε β) (pass : Nat → List α → Except ε (List β))
    {Related : α → β → Prop} (hnil : ∀ place, pass place [] = .ok [])
    (hcons : ∀ place a rest, pass place (a :: rest) = do
      let b ← step place a
      let later ← pass (place + 1) rest
      return b :: later)
    (hstep : ∀ place a b, step place a = .ok b ↔ Related a b) {place : Nat} {inputs : List α}
    {answers : List β} : pass place inputs = .ok answers ↔ List.Forall₂ Related inputs answers := by
  induction inputs generalizing place answers with
  | nil =>
    rw [hnil, List.forall₂_nil_left_iff]
    exact ⟨fun h ↦ (Except.ok.inj h).symm, fun h ↦ h ▸ rfl⟩
  | cons a rest ih =>
    rw [hcons, List.forall₂_cons_left_iff]
    constructor
    · intro hpass
      obtain ⟨b, hb, hpass⟩ := bind_eq_ok.1 hpass
      obtain ⟨later, hlater, hpass⟩ := bind_eq_ok.1 hpass
      cases hpass
      exact ⟨b, later, (hstep place a b).1 hb, ih.1 hlater, rfl⟩
    · rintro ⟨b, later, hrelated, hlater, rfl⟩
      exact bind_eq_ok.2 ⟨b, (hstep place a b).2 hrelated, bind_eq_ok.2 ⟨later, ih.2 hlater, rfl⟩⟩

/-- Assumes: a pass takes its steps in order and numbers them, and a step ends alike on related inputs.
The pass ends alike on lists that are so related, one to one and in order. -/
theorem pass_congr (step : Nat → α → Except ε β) (pass : Nat → List α → Except ε (List β))
    {Related : α → α → Prop}
    (hcons : ∀ place a rest, pass place (a :: rest) = do
      let b ← step place a
      let later ← pass (place + 1) rest
      return b :: later)
    (hstep : ∀ place a other, Related a other → step place other = step place a) {place : Nat}
    {inputs others : List α} (hall : List.Forall₂ Related inputs others) :
    pass place others = pass place inputs := by
  induction hall generalizing place with
  | nil => rfl
  | cons hfirst _ ih => rw [hcons, hcons, hstep place _ _ hfirst, ih]

/-- Assumes: a walk gives nothing on no input, and the answers of its first step from a state with `K`
have `P` and leave a state with `K`, from which it goes on. From such a state on, all its answers have
`P`. -/
theorem forall_mem_walk {σ : Type} (walk : Nat → σ → List α → Except ε (List β)) {K : σ → Prop}
    {P : β → Prop} (hnil : ∀ place state, walk place state [] = .ok [])
    (hcons : ∀ {place state a rest answers}, walk place state (a :: rest) = .ok answers → K state →
      ∃ first after later, (∀ b ∈ first, P b) ∧ K after ∧
        walk (place + 1) after rest = .ok later ∧ answers = first ++ later)
    {place : Nat} {state : σ} {inputs : List α} {answers : List β}
    (hwalk : walk place state inputs = .ok answers) (hstate : K state) : ∀ b ∈ answers, P b := by
  induction inputs generalizing place state answers with
  | nil =>
    rw [hnil] at hwalk
    cases hwalk
    exact List.forall_mem_nil _
  | cons a rest ih =>
    obtain ⟨first, after, later, hfirst, hafter, hlater, rfl⟩ := hcons hwalk hstate
    exact List.forall_mem_append.2 ⟨hfirst, ih hlater hafter⟩

end ActionReplay
