import ActionReplay.Feed.DropFile
import ActionReplay.Feed.Lines
import ActionReplay.Proofs.Session.Elements

/-!
# Feeds and sessions agree on what a payload is

A feed checks a document before it hands it on, and a session checks it again before it performs it. A
document can carry an array of sources in two ways (`Payload.Carries`). The feeds hand on exactly the
documents that carry one (`Payload.exists_normalize_iff`), in a form that they would hand on unchanged and
in which a session finds the same array (`Payload.normalize_of_carries`). All payloads of a line feed and
of a drop file come from such documents (`Lines.exists_normalize_of_mem_run`,
`DropFile.exists_normalize_of_mem_elapse`), and performing an array never ends in the fault of a missing
one (`Session.perform_ne_missingActions`). So no payload that a feed delivers (`Payload.Delivered`) is
refused for want of an array, and what carries none is refused without a trace
(`Session.agrees_on_payloads`).
-/

set_option autoImplicit false
set_option relaxedAutoImplicit false

namespace ActionReplay

/-! ### Documents that carry an array -/

namespace Payload

/-- A document carries an array of sources if it is one itself, or if its member `actions` is one. -/
inductive Carries : Json → Json → Prop
  | itself (items : List Json) : Carries (.array items) (.array items)
  | member {members : List (String × Json)} {items : List Json}
      (hactions : Table.find? "actions" members = some (.array items)) :
      Carries (.object members) (.array items)

variable {v p actions : Json}

/-- Only the member `actions` counts to a session. -/
theorem actions?_eq_some {members : List (String × Json)} :
    actions? (.object members) = some actions ↔
      ∃ items, actions = .array items ∧ Table.find? "actions" members = some (.array items) := by
  change (Table.find? "actions" members).filter (fun actions ↦ actions.items?.isSome) = _ ↔ _
  rw [Option.filter_eq_some_iff]
  constructor
  · rintro ⟨hfound, harray⟩
    cases actions with
    | array items => exact ⟨items, rfl, hfound⟩
    | null | bool | number | string | object => cases harray
  · rintro ⟨items, rfl, hfound⟩
    exact ⟨hfound, rfl⟩

/-- What carries an array is handed on as something that would be handed on as it is, and in which a
session finds the array. -/
theorem normalize_of_carries (hcarries : Carries v actions) :
    ∃ p, normalize v = some p ∧ normalize p = some p ∧ actions? p = some actions := by
  have hsame : ∀ members, actions? (.object members) = some actions →
      normalize (.object members) = some (.object members) := by
    intro members hactions
    rw [normalize, hactions]
    · rfl
    · exact fun _ ↦ Json.noConfusion
  cases hcarries with
  | itself items =>
    have hactions : actions? (.object [("actions", .array items)]) = some (.array items) := rfl
    exact ⟨_, rfl, hsame _ hactions, hactions⟩
  | member hfound =>
    have hactions := actions?_eq_some.2 ⟨_, rfl, hfound⟩
    exact ⟨_, hsame _ hactions, hsame _ hactions, hactions⟩

/-- What carries no array is not handed on, and a session finds none in it. -/
theorem normalize_of_not_carries (hnone : ¬∃ actions, Carries v actions) :
    normalize v = none ∧ actions? v = none := by
  have hactions : actions? v = none := by
    cases v with
    | object members =>
      refine Option.eq_none_iff_forall_ne_some.2 fun actions hactions ↦ hnone ?_
      obtain ⟨items, rfl, hfound⟩ := actions?_eq_some.1 hactions
      exact ⟨_, .member hfound⟩
    | null | bool | number | string | array => rfl
  refine ⟨?_, hactions⟩
  cases v with
  | array items => exact absurd ⟨_, .itself items⟩ hnone
  | null | bool | number | string => rfl
  | object members =>
    rw [normalize, hactions]
    · rfl
    · exact fun _ ↦ Json.noConfusion

theorem exists_normalize_iff : (∃ p, normalize v = some p) ↔ ∃ actions, Carries v actions := by
  constructor
  · rintro ⟨p, hnormalize⟩
    by_contra hnone
    rw [(normalize_of_not_carries hnone).1] at hnormalize
    cases hnormalize
  · rintro ⟨actions, hcarries⟩
    obtain ⟨p, hnormalize, -, -⟩ := normalize_of_carries hcarries
    exact ⟨p, hnormalize⟩

/-- What is handed on is found by a session to hold an array. -/
theorem exists_actions?_of_normalize (hnormalize : normalize v = some p) :
    ∃ actions, actions? p = some actions := by
  obtain ⟨actions, hcarries⟩ := exists_normalize_iff.1 ⟨p, hnormalize⟩
  obtain ⟨other, hother, -, hactions⟩ := normalize_of_carries hcarries
  rw [hnormalize] at hother
  exact ⟨actions, Option.some.inj hother ▸ hactions⟩

end Payload

/-! ### What feeds deliver -/

namespace Lines

variable {isOpen : Bool} {p : Json}

theorem exists_normalize_of_read {line : List UInt8} (hread : read line = .payload p) :
    ∃ document, Payload.normalize document = some p := by
  unfold read at hread
  split at hread
  · cases hread
  · dsimp only at hread
    split_ifs at hread with hblank
    split at hread
    · cases hread
    · split at hread
      · cases hread
      · next document _ _ payload hnormalize =>
        cases hread
        exact ⟨document, hnormalize⟩

theorem eq_payload_of_mem_forwarded {reading : Reading} (hp : p ∈ forwarded isOpen reading) :
    reading = .payload p := by
  cases reading with
  | undecodable | blank | malformed | refused => cases hp
  | payload payload =>
    rw [forwarded] at hp
    split_ifs at hp
    · rw [List.mem_singleton.1 hp]
    · cases hp

theorem exists_normalize_of_mem_forward {lines : List (List UInt8)}
    (hp : p ∈ (forward isOpen lines).payloads) :
    ∃ document, Payload.normalize document = some p := by
  induction lines with
  | nil => cases hp
  | cons line rest ih =>
    rw [forward] at hp
    dsimp only at hp
    split_ifs at hp
    · cases hp
    · rcases List.mem_append.1 hp with hfirst | hrest
      · exact exists_normalize_of_read (eq_payload_of_mem_forwarded hfirst)
      · exact ih hrest

/-- A line feed delivers only payloads that stand for documents of its lines. -/
theorem exists_normalize_of_mem_run {input : List UInt8} (hp : p ∈ (run isOpen input).payloads) :
    ∃ document, Payload.normalize document = some p :=
  exists_normalize_of_mem_forward ((List.mem_append.1 hp).resolve_left List.not_mem_nil)

end Lines

namespace DropFile

variable {f : DropFile} {isOpen : Bool} {p : Json}

theorem exists_normalize_of_take {place : DropPlace} {remembered : Option Signature}
    {found : Signature} {document : Json}
    (hp : (f.take isOpen place remembered found document).payload = some p) :
    Payload.normalize document = some p := by
  unfold take at hp
  cases hnormalize : Payload.normalize document with
  | none =>
    rw [hnormalize] at hp
    cases hp
  | some payload =>
    rw [hnormalize] at hp
    dsimp only at hp
    split_ifs at hp <;> exact hp

theorem exists_normalize_of_readContent {remembered : Option Signature} {content : List UInt8}
    {changed : Int} (hp : (f.readContent isOpen remembered content changed).payload = some p) :
    ∃ document, Payload.normalize document = some p := by
  unfold readContent at hp
  split at hp
  · cases hp
  · dsimp only at hp
    split_ifs at hp with hblank
    split at hp
    · cases hp
    · next document _ => exact ⟨document, exists_normalize_of_take hp⟩

theorem exists_normalize_of_look {remembered : Option Signature} {place : DropPlace}
    (hp : (f.look isOpen remembered place).payload = some p) :
    ∃ document, Payload.normalize document = some p := by
  unfold look at hp
  cases place with
  | nothing | directory => cases hp
  | locked =>
    dsimp only at hp
    split_ifs at hp
  | file =>
    dsimp only at hp
    split_ifs at hp
    exact exists_normalize_of_readContent hp

/-- A look adds only a payload that stands for a document. -/
theorem exists_normalize_of_mem_look {s : Stretch} (hp : p ∈ (Watch.look f isOpen s).payloads) :
    p ∈ s.payloads ∨ ∃ document, Payload.normalize document = some p := by
  rw [Watch.look] at hp
  split_ifs at hp
  · exact .inl hp
  · rcases List.mem_append.1 hp with hbefore | hnew
    · exact .inl hbefore
    · exact .inr (exists_normalize_of_look (Option.mem_toList.1 hnew))

/-- Whatever a drop file remembers and whatever is at its path, it delivers only payloads that stand for
documents. -/
theorem exists_normalize_of_mem_elapse {watch : Watch} {place : DropPlace} {duration : Nat}
    (hp : p ∈ (Watch.elapse f isOpen watch place duration).payloads) :
    ∃ document, Payload.normalize document = some p := by
  change p ∈ ((List.range (f.looksWithin watch.wait duration)).foldl
    (fun s _ ↦ Watch.look f isOpen s) { place, watch }).payloads at hp
  generalize f.looksWithin watch.wait duration = count at hp
  induction count with
  | zero => cases hp
  | succ count ih =>
    rw [List.range_succ, List.foldl_concat] at hp
    exact (exists_normalize_of_mem_look hp).elim ih id

end DropFile

/-- A payload that a feed hands on: a line feed from some input, or a drop file while some time passes,
whatever it remembers and whatever is at its path. -/
inductive Payload.Delivered (p : Json) : Prop
  | line {isOpen : Bool} {input : List UInt8} (hp : p ∈ (Lines.run isOpen input).payloads)
  | dropped {f : DropFile} {isOpen : Bool} {watch : DropFile.Watch} {place : DropPlace}
      {duration : Nat} (hp : p ∈ (DropFile.Watch.elapse f isOpen watch place duration).payloads)

theorem Payload.Delivered.exists_actions? {p : Json} (hdelivered : Delivered p) :
    ∃ actions, actions? p = some actions := by
  cases hdelivered with
  | line hp => exact exists_actions?_of_normalize (Lines.exists_normalize_of_mem_run hp).choose_spec
  | dropped hp =>
    exact exists_actions?_of_normalize (DropFile.exists_normalize_of_mem_elapse hp).choose_spec

/-! ### What sessions make of them -/

namespace Session

/-- Performing an array may end in a fault of what stands in it, but not in that of a missing one. -/
theorem perform_ne_missingActions (s : Session) (actions : Json) :
    (s.perform actions).1 ≠ .error .missingActions := by
  unfold perform
  cases Timeline.compile s.elements.locate actions with
  | error fault =>
    intro hmissing
    cases hmissing
  | ok t =>
    intro hmissing
    cases hmissing

/-- Feeds and sessions agree on every document. A document is handed on if and only if it carries an
array. What it is handed on as would be handed on as it is, and any session serves it as it performs the
array: with the same answer, the same records and the same session after it. No payload that a feed
delivers is refused for want of an array. A document that carries none is refused for that, nothing is
said, and the session stays as it was. -/
theorem agrees_on_payloads (v : Json) :
    ((∃ p, Payload.normalize v = some p) ↔ ∃ actions, Payload.Carries v actions) ∧
      (∀ actions, Payload.Carries v actions →
        ∃ p, Payload.normalize v = some p ∧ Payload.normalize p = some p ∧
          ∀ s : Session, s.run p = s.perform actions) ∧
      (Payload.Delivered v → ∀ s : Session, (s.run v).1 ≠ .error .missingActions) ∧
      ((¬∃ actions, Payload.Carries v actions) →
        ∀ s : Session, s.run v = (.error .missingActions, [], s)) := by
  refine ⟨Payload.exists_normalize_iff, ?_, ?_, ?_⟩
  · intro actions hcarries
    obtain ⟨p, hnormalize, hagain, hactions⟩ := Payload.normalize_of_carries hcarries
    exact ⟨p, hnormalize, hagain, fun s ↦ run_eq_perform hactions⟩
  · intro hdelivered s
    obtain ⟨actions, hactions⟩ := hdelivered.exists_actions?
    rw [run_eq_perform hactions]
    exact perform_ne_missingActions s actions
  · intro hnone s
    rw [run, (Payload.normalize_of_not_carries hnone).2]

/-- An empty array on a line of its own is delivered, and performing it is performing the array. A
number is neither delivered nor performed. -/
theorem agrees_on_emptyArray :
    ∃ p, Payload.Delivered p ∧ Payload.normalize (.array []) = some p ∧
      ∀ s : Session, s.run p = s.perform (.array []) ∧
        (s.run p).1 ≠ .error .missingActions ∧
        s.run (.number (.unsigned 7)) = (.error .missingActions, [], s) := by
  obtain ⟨p, hnormalize, -, hrun⟩ := (agrees_on_payloads (.array [])).2.1 _ (.itself [])
  obtain rfl := Option.some.inj hnormalize
  have hdelivered : Payload.Delivered (.object [("actions", .array [])]) := by
    have hread : (Lines.run true [0x5b, 0x5d, 10]).payloads = [.object [("actions", .array [])]] := rfl
    exact .line (hread ▸ List.mem_singleton_self _)
  have hnone : ¬∃ actions, Payload.Carries (.number (.unsigned 7)) actions := by
    rintro ⟨_, ⟨⟩⟩
  exact ⟨_, hdelivered, rfl, fun s ↦ ⟨hrun s, (agrees_on_payloads _).2.2.1 hdelivered s,
    (agrees_on_payloads _).2.2.2 hnone s⟩⟩

end Session

end ActionReplay
