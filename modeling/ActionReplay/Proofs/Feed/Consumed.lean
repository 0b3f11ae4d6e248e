import ActionReplay.Proofs.Feed.DropFile

/-!
# A feed that deletes

A feed that deletes goes by what it reads alone: neither the length of a file nor its time matter. A look
removes the file exactly if it holds a document, and forwards the payload that the document stands for, if
it stands for one (`round_of_deletes`). So after a look there is no document left at the path
(`document?_after_of_deletes`): unless it has been dropped since the last look, no look sees one. Each
document is taken once for every time it is dropped, and the payloads forwarded are those among the drops
that the looks find, in order (`after_of_deletes`).
-/

set_option autoImplicit false
set_option relaxedAutoImplicit false

namespace ActionReplay.DropFile

variable {f : DropFile}

/-- Assumes: a feed at work that deletes. A round removes the file that its look sees and forwards its
payload if the file holds a document, and otherwise leaves everything as it is. -/
theorem round_of_deletes {s : Stretch} (hdeletes : f.deletes = true)
    (hrunning : s.watch.ended = false) (changes : List DropPlace) :
    (∃ document, (s.sees changes).Holds document ∧ (f.round s changes).place = .nothing ∧
        (f.round s changes).payloads = s.payloads ++ (Payload.normalize document).toList) ∨
      ((∀ document, ¬(s.sees changes).Holds document) ∧
        (f.round s changes).place = s.sees changes ∧ (f.round s changes).payloads = s.payloads) := by
  have hfound : f.found s.watch.remembered (s.sees changes) = (s.sees changes).document? :=
    found_of_deletes hdeletes _ _
  cases hdocument : (s.sees changes).document? with
  | none =>
    obtain ⟨-, hplace, -, hpayloads⟩ := round_of_found_eq_none hrunning (hfound.trans hdocument)
    exact .inr ⟨DropPlace.document?_eq_none.1 hdocument, hplace, hpayloads⟩
  | some document =>
    obtain ⟨-, hplace, -, hpayloads⟩ := round_of_found_eq_some hrunning (hfound.trans hdocument)
    rw [if_pos hdeletes] at hplace
    exact .inl ⟨document, DropPlace.document?_eq_some.1 hdocument, hplace, hpayloads⟩

/-- What a round forwards is the payload that its look sees. -/
theorem payloads_round_of_deletes {s : Stretch} (hdeletes : f.deletes = true)
    (hrunning : s.watch.ended = false) (changes : List DropPlace) :
    (f.round s changes).payloads = s.payloads ++ (s.sees changes).payload?.toList := by
  rcases round_of_deletes hdeletes hrunning changes with
    ⟨document, hholds, -, hpayloads⟩ | ⟨hnone, -, hpayloads⟩
  · rw [hpayloads, hholds.payload?]
  · rw [hpayloads, DropPlace.payload?, DropPlace.document?_eq_none.2 hnone]
    exact (List.append_nil _).symm

/-- A feed that deletes leaves no document at its path. -/
theorem document?_after_of_deletes (hdeletes : f.deletes = true)
    (rounds : List (List DropPlace)) : (f.after rounds).place.document? = none := by
  rcases List.eq_nil_or_concat rounds with rfl | ⟨earlier, changes, rfl⟩
  · rfl
  · rw [List.concat_eq_append, after_concat]
    rcases round_of_deletes hdeletes (f.ended_after earlier) changes with
      ⟨document, -, hplace, -⟩ | ⟨hnone, hplace, -⟩
    · rw [hplace]
      rfl
    · rw [hplace]
      exact DropPlace.document?_eq_none.2 hnone

/-- So the next look sees a payload exactly if it has just been dropped. -/
theorem payload?_sees_of_deletes (hdeletes : f.deletes = true) (earlier : List (List DropPlace))
    (changes : List DropPlace) :
    ((f.after earlier).sees changes).payload? = changes.getLast?.bind DropPlace.payload? := by
  unfold Stretch.sees
  cases changes.getLast? with
  | none =>
    rw [Option.getD_none, DropPlace.payload?, document?_after_of_deletes hdeletes]
    rfl
  | some place => rfl

/-- Assumes: a feed that deletes. A look removes what it sees exactly if that is a file that holds a
document, whatever the length and the time of the file; it then forwards the payload that the document
stands for, if any, and otherwise it forwards nothing. Over any rounds of changes and looks, the payloads
forwarded are those among the drops that looks find, in order: each drop is forwarded once, also if the
same file is dropped again. -/
theorem after_of_deletes (hdeletes : f.deletes = true) :
    (∀ earlier changes,
      let seen := (f.after earlier).sees changes
      let later := f.after (earlier ++ [changes])
      (∃ document, seen.Holds document ∧ later.place = .nothing ∧
          later.payloads = (f.after earlier).payloads ++ (Payload.normalize document).toList) ∨
        ((∀ document, ¬seen.Holds document) ∧ later.place = seen ∧
          later.payloads = (f.after earlier).payloads)) ∧
      ∀ rounds, (f.after rounds).payloads =
        rounds.filterMap fun changes ↦ changes.getLast?.bind DropPlace.payload? := by
  refine ⟨fun earlier changes ↦ ?_, fun rounds ↦ ?_⟩
  · dsimp only
    rw [after_concat]
    exact round_of_deletes hdeletes (f.ended_after earlier) changes
  · induction rounds using List.reverseRecOn with
    | nil => rfl
    | append_singleton earlier changes ih =>
      rw [after_concat, payloads_round_of_deletes hdeletes (f.ended_after earlier), ih,
        payload?_sees_of_deletes hdeletes, List.filterMap_append]
      rfl

/-- An empty array is dropped twice, at the same second. In between there is a blank file, and later
a file that is not UTF-8. -/
theorem after_of_deletes_twice :
    (⟨"drop.json", 100, true⟩ : DropFile).deletes = true ∧
      ((⟨"drop.json", 100, true⟩ : DropFile).after
        [[.file [0x5b, 0x5d] 7], [.file [0x20] 7], [], [.nothing, .file [0x5b, 0x5d] 7],
          [.file [0xff] 7]]).payloads =
        [.object [("actions", .array [])], .object [("actions", .array [])]] :=
  ⟨rfl, (after_of_deletes rfl).2 _⟩

end ActionReplay.DropFile
