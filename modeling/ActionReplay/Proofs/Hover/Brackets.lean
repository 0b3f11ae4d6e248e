import Mathlib.Data.List.Basic

/-!
# Complete hovers

A hover enters, moves at least once, and exits. Motions in a row hold complete hovers if everything
that hovers is part of one, nothing else comes between its enter and its exit, and no hover is left
open (`HoverMark.Brackets`).

At a tick a single pointer can end one hover, touch, and start another, in this order
(`HoverMark.Turn`). It is told of the hovers in another one, in which the exit comes last
(`HoverMark.Told`). Hovers told this way are complete once the exit of each tick is put first
(`brackets_flatMap_range`), and as they are told if and only if every exit is alone at its tick
(`brackets_iff`).
-/

set_option autoImplicit false
set_option relaxedAutoImplicit false

namespace ActionReplay

/-- What a motion has to do with hovering: it touches, or it is part of a hover. -/
inductive HoverMark where
  | touch
  | enter
  | move
  | exit
deriving DecidableEq

namespace HoverMark

/-! ### Complete hovers -/

/-- What may come outside of a hover, and inside of one, until all hovers are complete. -/
inductive Brackets : Bool → List HoverMark → Prop
  | done : Brackets false []
  | touch {rest : List HoverMark} (hrest : Brackets false rest) : Brackets false (.touch :: rest)
  | enter {rest : List HoverMark} (hrest : Brackets true rest) :
      Brackets false (.enter :: .move :: rest)
  | move {rest : List HoverMark} (hrest : Brackets true rest) : Brackets true (.move :: rest)
  | exit {rest : List HoverMark} (hrest : Brackets false rest) : Brackets true (.exit :: rest)

/-- Some touches, and perhaps the start of a hover. -/
def approach (touches : Nat) (hovers : Bool) : List HoverMark :=
  List.replicate touches .touch ++ if hovers then [.enter, .move] else []

theorem exit_not_mem_approach (touches : Nat) (hovers : Bool) :
    .exit ∉ approach touches hovers := by
  cases hovers with
  | false => simp [approach]
  | true => simp [approach]

theorem approach_succ (touches : Nat) (hovers : Bool) :
    approach (touches + 1) hovers = .touch :: approach touches hovers := by
  rw [approach, List.replicate_succ]
  rfl

theorem brackets_approach_iff {touches : Nat} {hovers : Bool} {rest : List HoverMark} :
    Brackets false (approach touches hovers ++ rest) ↔ Brackets hovers rest := by
  induction touches with
  | zero =>
    cases hovers with
    | false => exact Iff.rfl
    | true =>
      constructor
      · rintro (_ | _ | hrest)
        exact hrest
      · exact .enter
  | succ touches ih =>
    rw [approach_succ, ← ih]
    constructor
    · rintro (_ | hrest)
      exact hrest
    · exact .touch

/-! ### Turns -/

/-- What a pointer does at a tick: whether it hovers before, the marks of its cues in order, and
whether it hovers after them. -/
inductive Turn : Bool → List HoverMark → Bool → Prop
  | start (touches : Nat) (hovers : Bool) : Turn false (approach touches hovers) hovers
  | wait : Turn true [] true
  | glide : Turn true [.move] true
  | leave (touches : Nat) (hovers : Bool) : Turn true (.exit :: approach touches hovers) hovers

/-- What is told of a pointer at a tick. -/
inductive Told : Bool → List HoverMark → Bool → Prop
  | start (touches : Nat) (hovers : Bool) : Told false (approach touches hovers) hovers
  | wait : Told true [] true
  | glide : Told true [.move] true
  | leave (touches : Nat) (hovers : Bool) : Told true (approach touches hovers ++ [.exit]) hovers

variable {before after : Bool} {marks rest : List HoverMark}

/-- Assumes: a turn of a pointer. Told are some touches, if it touches at all, and then of every
kind of hover mark one, an enter first and an exit last. -/
theorem Turn.told (hturn : Turn before marks after) {touches : Nat}
    (hnone : .touch ∉ marks → touches = 0) :
    Told before (List.replicate touches .touch ++ [.enter, .move, .exit].filter (· ∈ marks))
      after := by
  cases hturn with
  | start count =>
    cases after with
    | false => simpa [approach] using Told.start touches false
    | true => simpa [approach] using Told.start touches true
  | wait =>
    rw [hnone List.not_mem_nil]
    exact .wait
  | glide =>
    rw [hnone (by decide)]
    exact .glide
  | leave count =>
    cases after with
    | false => simpa [approach] using Told.leave touches false
    | true => simpa [approach] using Told.leave touches true

/-! ### What is told -/

/-- Marks with every exit before all others. -/
def exitsFirst (marks : List HoverMark) : List HoverMark :=
  marks.filter (· = .exit) ++ marks.filter (· ≠ .exit)

theorem exitsFirst_of_not_mem (hnone : .exit ∉ marks) : exitsFirst marks = marks := by
  have hall : ∀ mark ∈ marks, mark ≠ .exit := fun mark hmark hexit ↦ hnone (hexit ▸ hmark)
  rw [exitsFirst, List.filter_eq_nil_iff.2 fun mark hmark ↦ by simpa using hall mark hmark,
    List.filter_eq_self.2 fun mark hmark ↦ by simpa using hall mark hmark]
  rfl

theorem exitsFirst_append_exit (hnone : .exit ∉ marks) :
    exitsFirst (marks ++ [.exit]) = .exit :: marks := by
  have hsame := exitsFirst_of_not_mem hnone
  have hall : marks.filter (· = .exit) = [] :=
    List.filter_eq_nil_iff.2 fun mark hmark ↦ by
      rintro hexit
      exact hnone (of_decide_eq_true hexit ▸ hmark)
  rw [exitsFirst, hall, List.nil_append] at hsame
  rw [exitsFirst, List.filter_append, List.filter_append, hall, hsame]
  simp

/-- An exit is told last. -/
theorem Told.exists_append_exit (htold : Told before marks after) (hexit : .exit ∈ marks) :
    ∃ others, marks = others ++ [.exit] ∧ .exit ∉ others := by
  cases htold with
  | start touches => exact absurd hexit (exit_not_mem_approach touches after)
  | wait => exact absurd hexit List.not_mem_nil
  | glide => exact absurd hexit (by decide)
  | leave touches => exact ⟨_, rfl, exit_not_mem_approach touches after⟩

/-- What is told at a tick fits before what may come after it, with the exit first. -/
theorem Told.brackets (htold : Told before marks after) (hrest : Brackets after rest) :
    Brackets before (exitsFirst marks ++ rest) := by
  cases htold with
  | start touches =>
    rw [exitsFirst_of_not_mem (exit_not_mem_approach touches after)]
    exact brackets_approach_iff.2 hrest
  | wait => exact hrest
  | glide => exact .move hrest
  | leave touches =>
    rw [exitsFirst_append_exit (exit_not_mem_approach touches after)]
    exact .exit (brackets_approach_iff.2 hrest)

/-- What is told at a tick is part of complete hovers only if an exit is alone: inside of a hover neither
a touch nor an enter may come. -/
theorem Told.of_brackets (htold : Told before marks after)
    (hbrackets : Brackets before (marks ++ rest)) :
    Brackets after rest ∧ (.exit ∈ marks → marks = [.exit]) := by
  cases htold with
  | start touches =>
    exact ⟨brackets_approach_iff.1 hbrackets,
      fun hexit ↦ absurd hexit (exit_not_mem_approach touches after)⟩
  | wait => exact ⟨hbrackets, fun hexit ↦ absurd hexit List.not_mem_nil⟩
  | glide =>
    cases hbrackets with
    | move hrest => exact ⟨hrest, fun hexit ↦ absurd hexit (by decide)⟩
  | leave touches =>
    cases touches with
    | succ touches =>
      rw [approach_succ] at hbrackets
      cases hbrackets
    | zero =>
      cases after with
      | true => cases hbrackets
      | false =>
        cases hbrackets with
        | exit hrest => exact ⟨hrest, fun _ ↦ rfl⟩

/-! ### One tick after another -/

variable {told : Nat → List HoverMark} {hovers : Nat → Bool}

theorem brackets_flatMap_range (htold : ∀ tick, Told (hovers tick) (told tick) (hovers (tick + 1)))
    {bound : Nat} (hrest : Brackets (hovers bound) rest) :
    Brackets (hovers 0)
      ((List.range bound).flatMap (fun tick ↦ exitsFirst (told tick)) ++ rest) := by
  induction bound generalizing rest with
  | zero => exact hrest
  | succ bound ih =>
    rw [List.range_succ, List.flatMap_append, List.flatMap_singleton, List.append_assoc]
    exact ih ((htold bound).brackets hrest)

theorem of_brackets_flatMap_range
    (htold : ∀ tick, Told (hovers tick) (told tick) (hovers (tick + 1))) {bound : Nat}
    (hbrackets : Brackets (hovers 0) ((List.range bound).flatMap told ++ rest)) :
    Brackets (hovers bound) rest ∧ ∀ tick < bound, .exit ∈ told tick → told tick = [.exit] := by
  induction bound generalizing rest with
  | zero => exact ⟨hbrackets, fun tick htick ↦ absurd htick (Nat.not_lt_zero tick)⟩
  | succ bound ih =>
    rw [List.range_succ, List.flatMap_append, List.flatMap_singleton, List.append_assoc]
      at hbrackets
    obtain ⟨hlater, hearly⟩ := ih hbrackets
    obtain ⟨hrest, hlast⟩ := (htold bound).of_brackets hlater
    refine ⟨hrest, fun tick htick ↦ ?_⟩
    rcases Nat.lt_succ_iff_lt_or_eq.1 htick with hlt | rfl
    · exact hearly tick hlt
    · exact hlast

/-- Assumes: a pointer of which is told tick by tick, and which does not hover before or in the end.
What is told holds complete hovers exactly if every exit is alone at its tick. -/
theorem brackets_iff (htold : ∀ tick, Told (hovers tick) (told tick) (hovers (tick + 1)))
    (hfirst : hovers 0 = false) {bound : Nat} (hlast : hovers bound = false) :
    Brackets false ((List.range bound).flatMap told) ↔
      ∀ tick < bound, .exit ∈ told tick → told tick = [.exit] := by
  constructor
  · intro hbrackets
    rw [← hfirst, ← List.append_nil (List.flatMap _ _)] at hbrackets
    exact (of_brackets_flatMap_range htold hbrackets).2
  · intro halone
    have hsame : ∀ tick ∈ List.range bound, told tick = exitsFirst (told tick) := by
      intro tick htick
      by_cases hexit : .exit ∈ told tick
      · rw [halone tick (List.mem_range.1 htick) hexit]
        rfl
      · exact (exitsFirst_of_not_mem hexit).symm
    have hbrackets := brackets_flatMap_range htold (hlast ▸ Brackets.done)
    rw [List.append_nil, hfirst] at hbrackets
    rwa [List.flatMap_congr hsame]

end HoverMark

end ActionReplay
