import ActionReplay.Feed.DropFile
import ActionReplay.Proofs.Feed.Lines
import Mathlib.Data.List.Induction

/-!
# Looks at a drop file

What a look does is decided by what it finds. It finds a document if there is a file that can be read,
whose octets are UTF-8 and spell a document between blank space (`DropPlace.Holds`), unless the feed
passes over the file because it remembers its length and its time (`DropFile.found`). A look that finds
a document takes it (`round_of_found_eq_some`); any other look leaves everything as it is
(`round_of_found_eq_none`).

Between two looks anybody may change what is at the path, as often as they like; a look sees the last of
these changes. `DropFile.after` is where a feed stands after rounds of changes, each followed by a look.
Time that passes while nobody changes anything is rounds without changes (`elapse_eq_foldl_round`).
-/

set_option autoImplicit false
set_option relaxedAutoImplicit false

namespace ActionReplay

variable {f : DropFile}

/-! ### What is at a path -/

namespace DropPlace

/-- A file that can be read holds the document that its text spells between blank space. -/
def Holds (place : DropPlace) (document : Json) : Prop :=
  ∃ content changed text, place = .file content changed ∧ Text.decode? content = some text ∧
    Json.read (Text.trim text) = some document

/-- The document that a place holds. -/
def document? : DropPlace → Option Json
  | .file content _ => (Text.decode? content).bind Payload.document?
  | _ => none

/-- The payload that the document of a place stands for. -/
def payload? (place : DropPlace) : Option Json :=
  place.document?.bind Payload.normalize

/-- The length and the time of a file. -/
def signature? : DropPlace → Option DropFile.Signature
  | .locked length changed => some (DropFile.signature length changed)
  | .file content changed => some (DropFile.signature content.length changed)
  | _ => none

theorem document?_eq_some {place : DropPlace} {document : Json} :
    place.document? = some document ↔ place.Holds document := by
  unfold document? Holds
  cases place with
  | nothing | directory | locked => simp
  | file content changed =>
    rw [Option.bind_eq_some_iff]
    constructor
    · rintro ⟨text, htext, hdocument⟩
      exact ⟨content, changed, text, rfl, htext, hdocument⟩
    · rintro ⟨_, _, text, hfile, htext, hdocument⟩
      cases hfile
      exact ⟨text, htext, hdocument⟩

theorem document?_eq_none {place : DropPlace} :
    place.document? = none ↔ ∀ document, ¬place.Holds document := by
  simp only [← document?_eq_some, Option.eq_none_iff_forall_ne_some, ne_eq]

theorem Holds.payload? {place : DropPlace} {document : Json} (hholds : place.Holds document) :
    place.payload? = Payload.normalize document := by
  rw [DropPlace.payload?, document?_eq_some.2 hholds, Option.bind_some]

end DropPlace

namespace DropFile

/-! ### One look -/

/-- The document that a look finds. -/
def found (f : DropFile) (remembered : Option Signature) (place : DropPlace) : Option Json :=
  if f.deletes = false ∧ remembered = place.signature? then none else place.document?

theorem found_of_deletes (hdeletes : f.deletes = true) (remembered : Option Signature)
    (place : DropPlace) : f.found remembered place = place.document? := by
  rw [found, hdeletes]
  exact if_neg fun hpassed ↦ Bool.noConfusion hpassed.1

theorem passesOver_eq (f : DropFile) (remembered : Option Signature) (found : Signature) :
    f.passesOver remembered found = decide (f.deletes = false ∧ remembered = some found) := by
  unfold passesOver
  cases f.deletes with
  | true => simp
  | false => simp

theorem found_eq_none {remembered : Option Signature} {place : DropPlace}
    (hnone : place.document? = none) : f.found remembered place = none := by
  rw [found, hnone, ite_self]

/-- What a look leaves that says some records and finds a document or none: it takes the document and
otherwise leaves everything as it is. -/
def outcome (f : DropFile) (remembered : Option Signature) (place : DropPlace)
    (records : List LogRecord) : Option Json → Look
  | none => { place, remembered, records }
  | some document =>
    { place := if f.deletes then .nothing else place
      remembered := if f.deletes then remembered else place.signature?
      payload := Payload.normalize document
      records }

theorem take_eq_outcome (f : DropFile) (remembered : Option Signature) {place : DropPlace}
    {found : Signature} (hfound : place.signature? = some found) (document : Json) :
    ∃ records, f.take true place remembered found document =
      f.outcome remembered place records (some document) := by
  dsimp only [take, outcome]
  rw [hfound]
  cases Payload.normalize document with
  | none => exact ⟨_, rfl⟩
  | some payload => exact ⟨_, rfl⟩

theorem readContent_eq_outcome (f : DropFile) (remembered : Option Signature)
    (content : List UInt8) (changed : Int) :
    ∃ records, f.readContent true remembered content changed =
      f.outcome remembered (.file content changed) records
        (DropPlace.file content changed).document? := by
  have hdocument : (DropPlace.file content changed).document? =
      (Text.decode? content).bind Payload.document? := rfl
  rw [hdocument]
  unfold readContent Payload.document?
  cases Text.decode? content with
  | none => exact ⟨_, rfl⟩
  | some text =>
    dsimp only [Option.bind_some]
    by_cases hblank : Text.trim text = ""
    · rw [if_pos hblank, hblank, Json.read_empty]
      exact ⟨_, rfl⟩
    · rw [if_neg hblank]
      cases Json.read (Text.trim text) with
      | none => exact ⟨_, rfl⟩
      | some document => exact f.take_eq_outcome remembered rfl document

/-- What a look does, while somebody takes payloads, depends on what it finds. -/
theorem look_eq_outcome (f : DropFile) (remembered : Option Signature) (place : DropPlace) :
    ∃ records, f.look true remembered place =
      f.outcome remembered place records (f.found remembered place) := by
  cases place with
  | nothing =>
    rw [found_eq_none rfl]
    exact ⟨_, rfl⟩
  | directory =>
    rw [found_eq_none rfl]
    exact ⟨_, rfl⟩
  | locked length changed =>
    rw [found_eq_none rfl, look]
    split_ifs with hpassed
    · exact ⟨_, rfl⟩
    · exact ⟨_, rfl⟩
  | file content changed =>
    have hsignature : (DropPlace.file content changed).signature? =
      some (signature content.length changed) := rfl
    rw [found, look, passesOver_eq, hsignature]
    by_cases hpassed : f.deletes = false ∧ remembered = some (signature content.length changed)
    · rw [if_pos hpassed, if_pos (decide_eq_true hpassed)]
      exact ⟨_, rfl⟩
    · rw [if_neg hpassed, if_neg (by simpa using hpassed)]
      exact f.readContent_eq_outcome remembered content changed

/-! ### Rounds -/

/-- What the next look sees after changes at the path: the last of them, if there are any. -/
def Stretch.sees (s : Stretch) (changes : List DropPlace) : DropPlace :=
  changes.getLast?.getD s.place

/-- Changes at the path, and then a look. -/
def round (f : DropFile) (s : Stretch) (changes : List DropPlace) : Stretch :=
  Watch.look f true { s with place := s.sees changes }

/-- Where a feed stands that has begun with nothing at its path, after rounds of changes and looks. What
is at the path before the first look is a change of the first round. -/
def after (f : DropFile) (rounds : List (List DropPlace)) : Stretch :=
  rounds.foldl f.round { place := .nothing, watch := {} }

theorem after_append (f : DropFile) (earlier later : List (List DropPlace)) :
    f.after (earlier ++ later) = later.foldl f.round (f.after earlier) :=
  List.foldl_append

theorem after_concat (f : DropFile) (earlier : List (List DropPlace)) (changes : List DropPlace) :
    f.after (earlier ++ [changes]) = f.round (f.after earlier) changes :=
  f.after_append earlier [changes]

/-- Time that passes while nobody changes anything is rounds without changes. -/
theorem elapse_eq_foldl_round (f : DropFile) (watch : Watch) (place : DropPlace) (duration : Nat) :
    ∃ wait, let rounds := List.replicate (f.looksWithin watch.wait duration) []
      let s := rounds.foldl f.round { place, watch }
      Watch.elapse f true watch place duration = { s with watch := { s.watch with wait } } := by
  have hrounds : ∀ count (s : Stretch), (List.range count).foldl (fun s _ ↦ Watch.look f true s) s =
      (List.replicate count []).foldl f.round s := by
    intro count
    induction count with
    | zero => exact fun _ ↦ rfl
    | succ count ih =>
      intro s
      rw [List.range_succ, List.foldl_concat, List.replicate_succ', List.foldl_concat, ih]
      rfl
  unfold Watch.elapse
  dsimp only
  rw [hrounds]
  exact ⟨_, rfl⟩

/-- A round leaves what its look leaves. -/
theorem round_eq {s : Stretch} (hrunning : s.watch.ended = false) (changes : List DropPlace) :
    ∃ records, f.round s changes =
      let seen := f.outcome s.watch.remembered (s.sees changes) records
        (f.found s.watch.remembered (s.sees changes))
      { place := seen.place
        watch := { remembered := seen.remembered, wait := f.pollMs, ended := seen.ended }
        payloads := s.payloads ++ seen.payload.toList
        records := s.records ++ seen.records } := by
  obtain ⟨records, hlook⟩ := f.look_eq_outcome s.watch.remembered (s.sees changes)
  refine ⟨records, ?_⟩
  rw [← hlook, round, Watch.look]
  exact if_neg (by simp [hrunning])

/-- A round that finds no document only passes time. -/
theorem round_of_found_eq_none {s : Stretch} {changes : List DropPlace}
    (hrunning : s.watch.ended = false)
    (hnone : f.found s.watch.remembered (s.sees changes) = none) :
    (f.round s changes).watch.ended = false ∧ (f.round s changes).place = s.sees changes ∧
      (f.round s changes).watch.remembered = s.watch.remembered ∧
        (f.round s changes).payloads = s.payloads := by
  obtain ⟨records, hround⟩ := f.round_eq hrunning changes
  rw [hround, hnone]
  exact ⟨rfl, rfl, rfl, List.append_nil _⟩

/-- A round that finds a document deletes or remembers it, and forwards it if it stands for a
payload. -/
theorem round_of_found_eq_some {s : Stretch} {changes : List DropPlace} {document : Json}
    (hrunning : s.watch.ended = false)
    (hsome : f.found s.watch.remembered (s.sees changes) = some document) :
    (f.round s changes).watch.ended = false ∧
      (f.round s changes).place = (if f.deletes then .nothing else s.sees changes) ∧
        (f.round s changes).watch.remembered =
            (if f.deletes then s.watch.remembered else (s.sees changes).signature?) ∧
          (f.round s changes).payloads = s.payloads ++ (Payload.normalize document).toList := by
  obtain ⟨records, hround⟩ := f.round_eq hrunning changes
  rw [hround, hsome]
  exact ⟨rfl, rfl, rfl, rfl⟩

/-- As long as somebody takes payloads, a feed does not end. -/
theorem ended_round {s : Stretch} (hrunning : s.watch.ended = false)
    (changes : List DropPlace) : (f.round s changes).watch.ended = false := by
  cases hfound : f.found s.watch.remembered (s.sees changes) with
  | none => exact (round_of_found_eq_none hrunning hfound).1
  | some document => exact (round_of_found_eq_some hrunning hfound).1

theorem ended_after (f : DropFile) (rounds : List (List DropPlace)) :
    (f.after rounds).watch.ended = false := by
  induction rounds using List.reverseRecOn with
  | nil => rfl
  | append_singleton earlier changes ih =>
    rw [after_concat]
    exact ended_round ih changes

end DropFile

end ActionReplay
