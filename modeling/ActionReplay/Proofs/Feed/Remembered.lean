import ActionReplay.Proofs.Feed.DropFile

/-!
# A feed that does not delete

A feed that does not delete never touches the file. It remembers the length and the time of a file, and
what it remembers has a meaning that does not mention the feed: they are those of the last file with a
document that a look has seen (`remembered_after`), whether the look read it or passed over it. Looks that
see anything else leave no trace. A payload that a look sees is therefore forwarded exactly if the last
document seen before was in a file of another length or time (`payloads_round_of_keeps`), and between two
payloads from files with the same two a look has read another document (`exists_found_of_ne`).
-/

set_option autoImplicit false
set_option relaxedAutoImplicit false

namespace ActionReplay

namespace DropPlace

/-- What looks see over rounds in which nobody but others changes what is at the path. -/
def sights : DropPlace → List (List DropPlace) → List DropPlace
  | _, [] => []
  | place, changes :: rest => changes.getLast?.getD place :: sights (changes.getLast?.getD place) rest

/-- The length and the time of the last file with a document. -/
def lastSignature? (places : List DropPlace) : Option DropFile.Signature :=
  (places.filter fun place ↦ place.document?.isSome).getLast?.bind signature?

theorem lastSignature?_concat (places : List DropPlace) (place : DropPlace) :
    lastSignature? (places ++ [place]) =
      if place.document?.isSome then place.signature? else lastSignature? places := by
  unfold lastSignature?
  rw [List.filter_append, List.filter_singleton]
  cases hdocument : place.document?.isSome with
  | true =>
    rw [if_pos rfl, cond_true, List.getLast?_concat]
    rfl
  | false => rw [if_neg Bool.false_ne_true, cond_false, List.append_nil]

end DropPlace

namespace DropFile

variable {f : DropFile}

/-! ### One round -/

theorem found_of_keeps (hkeeps : f.deletes = false) (remembered : Option Signature)
    (place : DropPlace) :
    f.found remembered place =
      if remembered = place.signature? then none else place.document? := by
  simp only [found, hkeeps, true_and]

/-- Assumes: a feed at work that does not delete. After a round it remembers the file that its look has
seen, if that holds a document, also if the look has passed over it. -/
theorem remembered_round_of_keeps {s : Stretch} (hkeeps : f.deletes = false)
    (hrunning : s.watch.ended = false) (changes : List DropPlace) :
    (f.round s changes).watch.remembered =
      if (s.sees changes).document?.isSome then (s.sees changes).signature?
      else s.watch.remembered := by
  have hfound := found_of_keeps hkeeps s.watch.remembered (s.sees changes)
  by_cases hpassed : s.watch.remembered = (s.sees changes).signature?
  · rw [if_pos hpassed] at hfound
    rw [(round_of_found_eq_none hrunning hfound).2.2.1, ← hpassed, ite_self]
  · rw [if_neg hpassed] at hfound
    cases hdocument : (s.sees changes).document? with
    | none => exact (round_of_found_eq_none hrunning (hfound.trans hdocument)).2.2.1
    | some document =>
      rw [(round_of_found_eq_some hrunning (hfound.trans hdocument)).2.2.1, hkeeps]
      rfl

/-- A round forwards the payload that its look sees, unless the file is the one that is remembered. -/
theorem payloads_round_of_keeps {s : Stretch} (hkeeps : f.deletes = false)
    (hrunning : s.watch.ended = false) (changes : List DropPlace) :
    (f.round s changes).payloads =
      s.payloads ++
        if s.watch.remembered = (s.sees changes).signature? then []
        else (s.sees changes).payload?.toList := by
  have hfound := found_of_keeps hkeeps s.watch.remembered (s.sees changes)
  split_ifs with hpassed
  · rw [if_pos hpassed] at hfound
    rw [(round_of_found_eq_none hrunning hfound).2.2.2, List.append_nil]
  · rw [if_neg hpassed] at hfound
    unfold DropPlace.payload?
    cases hdocument : (s.sees changes).document? with
    | none =>
      rw [(round_of_found_eq_none hrunning (hfound.trans hdocument)).2.2.2]
      exact (List.append_nil _).symm
    | some document => exact (round_of_found_eq_some hrunning (hfound.trans hdocument)).2.2.2

/-- A round of a feed that does not delete leaves the path as others have left it. -/
theorem place_round_of_keeps {s : Stretch} (hkeeps : f.deletes = false)
    (hrunning : s.watch.ended = false) (changes : List DropPlace) :
    (f.round s changes).place = s.sees changes := by
  cases hfound : f.found s.watch.remembered (s.sees changes) with
  | none => exact (round_of_found_eq_none hrunning hfound).2.1
  | some document =>
    rw [(round_of_found_eq_some hrunning hfound).2.1, hkeeps]
    rfl

/-! ### Over rounds -/

/-- Assumes: a feed at work that does not delete, and that remembers the last file with a document among
some places. After rounds it remembers the last one among these places and those that it has seen. -/
theorem remembered_foldl_round {s : Stretch} {places : List DropPlace} (hkeeps : f.deletes = false)
    (hrunning : s.watch.ended = false)
    (hremembered : s.watch.remembered = DropPlace.lastSignature? places)
    (rounds : List (List DropPlace)) :
    (rounds.foldl f.round s).watch.remembered =
      DropPlace.lastSignature? (places ++ DropPlace.sights s.place rounds) := by
  induction rounds generalizing s places with
  | nil =>
    rw [DropPlace.sights, List.append_nil]
    exact hremembered
  | cons changes rest ih =>
    have hnow : (f.round s changes).watch.remembered =
        DropPlace.lastSignature? (places ++ [s.sees changes]) := by
      rw [remembered_round_of_keeps hkeeps hrunning, DropPlace.lastSignature?_concat, hremembered]
    rw [List.foldl_cons, ih (ended_round hrunning changes) hnow,
      place_round_of_keeps hkeeps hrunning, List.append_assoc]
    rfl

/-- A feed that does not delete remembers the last file with a document that a look has seen. -/
theorem remembered_after (hkeeps : f.deletes = false) (rounds : List (List DropPlace)) :
    (f.after rounds).watch.remembered =
      DropPlace.lastSignature? (DropPlace.sights .nothing rounds) := by
  have hstart : (f.after []).watch.remembered = DropPlace.lastSignature? [] := rfl
  exact remembered_foldl_round hkeeps rfl hstart rounds

/-- Assumes: a feed at work that does not delete. If after some rounds it remembers something else than
before, in one of them it has read a document in a file of another length or time. -/
theorem exists_found_of_ne {s : Stretch} {rounds : List (List DropPlace)}
    (hkeeps : f.deletes = false) (hrunning : s.watch.ended = false)
    (hchanged : (rounds.foldl f.round s).watch.remembered ≠ s.watch.remembered) :
    ∃ before changes later document, rounds = before ++ changes :: later ∧
      let reached := before.foldl f.round s
      f.found reached.watch.remembered (reached.sees changes) = some document ∧
        (reached.sees changes).signature? ≠ s.watch.remembered := by
  induction rounds generalizing s with
  | nil => exact absurd rfl hchanged
  | cons changes rest ih =>
    cases hfound : f.found s.watch.remembered (s.sees changes) with
    | none =>
      obtain ⟨hnext, -, hsame, -⟩ := round_of_found_eq_none hrunning hfound
      rw [List.foldl_cons, ← hsame] at hchanged
      obtain ⟨before, other, later, document, rfl, hread, hother⟩ := ih hnext hchanged
      exact ⟨changes :: before, other, later, document, rfl, hread, hsame ▸ hother⟩
    | some document =>
      refine ⟨[], changes, rest, document, rfl, hfound, fun hsame ↦ ?_⟩
      have hsame : (s.sees changes).signature? = s.watch.remembered := hsame
      have hnone := found_of_keeps hkeeps s.watch.remembered (s.sees changes)
      rw [hfound, if_pos hsame.symm] at hnone
      cases hnone

/-- Assumes: a feed at work that does not delete. A round that forwards something has read a document,
and its file was not the one that was remembered. -/
theorem ne_of_payloads_round_ne {s : Stretch} {changes : List DropPlace} (hkeeps : f.deletes = false)
    (hrunning : s.watch.ended = false) (hsent : (f.round s changes).payloads ≠ s.payloads) :
    s.watch.remembered ≠ (s.sees changes).signature? ∧ (s.sees changes).document?.isSome := by
  rw [payloads_round_of_keeps hkeeps hrunning] at hsent
  split_ifs at hsent with hpassed
  · exact absurd (List.append_nil _) hsent
  · refine ⟨hpassed, Option.isSome_iff_ne_none.2 fun hnone ↦ hsent ?_⟩
    rw [DropPlace.payload?, hnone]
    exact List.append_nil _

/-- Assumes: a feed that does not delete, and two rounds that forward payloads from files of the same
length and time. In between it has read a document in a file of another length or time. -/
theorem exists_found_between {earlier between : List (List DropPlace)} {first second : List DropPlace}
    (hkeeps : f.deletes = false)
    (hfirst : (f.after (earlier ++ [first])).payloads ≠ (f.after earlier).payloads)
    (hsecond : (f.after (earlier ++ first :: between ++ [second])).payloads ≠
      (f.after (earlier ++ first :: between)).payloads)
    (hsame : ((f.after earlier).sees first).signature? =
      ((f.after (earlier ++ first :: between)).sees second).signature?) :
    ∃ before changes later document, between = before ++ changes :: later ∧
      let reached := f.after (earlier ++ first :: before)
      f.found reached.watch.remembered (reached.sees changes) = some document ∧
        (reached.sees changes).signature? ≠ ((f.after earlier).sees first).signature? := by
  rw [after_concat] at hfirst hsecond
  obtain ⟨-, hdocument⟩ := ne_of_payloads_round_ne hkeeps (f.ended_after earlier) hfirst
  obtain ⟨hother, -⟩ := ne_of_payloads_round_ne hkeeps (f.ended_after _) hsecond
  have hremembered : (f.round (f.after earlier) first).watch.remembered =
      ((f.after earlier).sees first).signature? := by
    rw [remembered_round_of_keeps hkeeps (f.ended_after earlier), if_pos hdocument]
  have hsplit : ∀ rounds, f.after (earlier ++ first :: rounds) =
      rounds.foldl f.round (f.round (f.after earlier) first) := fun rounds ↦
    f.after_append earlier (first :: rounds)
  rw [← hsame, ← hremembered, hsplit] at hother
  obtain ⟨before, changes, later, document, rfl, hread, hne⟩ :=
    exists_found_of_ne hkeeps (ended_round (f.ended_after earlier) first) hother
  refine ⟨before, changes, later, document, rfl, ?_⟩
  rw [hsplit, ← hremembered]
  exact ⟨hread, hne⟩

/-- Assumes: a feed that does not delete. What is at the path is never changed by its looks. A look at
anything but a file with a document leaves no trace, and what the feed remembers is the length and the
time of the last file with a document that a look has seen. A payload that a look sees is forwarded
exactly if this is not the length and the time of its own file. So if payloads are forwarded from two
files with the same two, in between a look has read a document in a file with others. -/
theorem after_of_keeps (hkeeps : f.deletes = false) :
    (∀ earlier changes,
      let seen := (f.after earlier).sees changes
      let later := f.after (earlier ++ [changes])
      later.place = seen ∧
        ((∀ document, ¬seen.Holds document) →
          later.watch.remembered = (f.after earlier).watch.remembered ∧
            later.payloads = (f.after earlier).payloads) ∧
        (f.after earlier).watch.remembered =
          DropPlace.lastSignature? (DropPlace.sights .nothing earlier) ∧
        later.payloads = (f.after earlier).payloads ++
          if (f.after earlier).watch.remembered = seen.signature? then [] else seen.payload?.toList) ∧
      ∀ earlier first between second,
        (f.after (earlier ++ [first])).payloads ≠ (f.after earlier).payloads →
        (f.after (earlier ++ first :: between ++ [second])).payloads ≠
          (f.after (earlier ++ first :: between)).payloads →
        ((f.after earlier).sees first).signature? =
          ((f.after (earlier ++ first :: between)).sees second).signature? →
        ∃ before changes later document, between = before ++ changes :: later ∧
          let reached := f.after (earlier ++ first :: before)
          f.found reached.watch.remembered (reached.sees changes) = some document ∧
            (reached.sees changes).signature? ≠ ((f.after earlier).sees first).signature? := by
  refine ⟨fun earlier changes ↦ ?_, fun earlier first between second ↦ exists_found_between hkeeps⟩
  have hrunning := f.ended_after earlier
  dsimp only
  rw [after_concat]
  refine ⟨place_round_of_keeps hkeeps hrunning changes, fun hnone ↦ ?_,
    remembered_after hkeeps earlier, payloads_round_of_keeps hkeeps hrunning changes⟩
  have hfound : f.found (f.after earlier).watch.remembered ((f.after earlier).sees changes) = none :=
    found_eq_none (DropPlace.document?_eq_none.2 hnone)
  obtain ⟨-, -, hremembered, hpayloads⟩ := round_of_found_eq_none hrunning hfound
  exact ⟨hremembered, hpayloads⟩

/-- A file with an open bracket and a blank is mended in the same second and keeps its length. It is
forwarded then, and once more after another document has been read. -/
theorem after_of_keeps_mended :
    let f : DropFile := ⟨"drop.json", 100, false⟩
    let broken := DropPlace.file [0x5b, 0x20] 7
    let mended := DropPlace.file [0x5b, 0x5d] 7
    let other := DropPlace.file [0x31] 7
    let earlier := [[broken], [], [mended], [], [.locked 1 7], [other]]
    f.deletes = false ∧ (f.after earlier).sees [mended] = mended ∧
      (f.after earlier).watch.remembered = some ⟨1, 7⟩ ∧
      (f.after (earlier ++ [[mended]])).payloads =
        [.object [("actions", .array [])], .object [("actions", .array [])]] := by
  intro f broken mended other earlier
  obtain ⟨-, -, hremembered, hpayloads⟩ := (after_of_keeps (f := f) rfl).1 earlier [mended]
  exact ⟨rfl, rfl, hremembered, hpayloads⟩

end DropFile

end ActionReplay
