import ActionReplay.Feed.Lines
import Mathlib.Data.List.Basic

/-!
# Lines that do not bear on one another

The line feed cuts its input at line feeds (`Text.splitOn_eq_lines_or`) and takes the lines one after
another. What a line has to say is in the line alone: it is a payload if its octets are UTF-8 and what
they spell between blank space is a document with an array of sources (`Payload.ofLine?`). Blank lines
and lines that spell no document or no payload are passed over, so up to the first line that is not UTF-8
exactly the payloads among the lines are forwarded, in order (`Lines.payloads_forward`), and each is
counted once (`Lines.sent_forward`). That line ends the feed. The lines after it are lost, so lines are
independent of one another exactly if none of these is a payload (`Lines.payloads_run_iff`).
-/

set_option autoImplicit false
set_option relaxedAutoImplicit false

namespace ActionReplay

/-! ### Cutting at line feeds -/

namespace Text

/-- Takes one octet of a stream: the lines before it in reverse, and the line it stands in, in
reverse too. -/
def cut (lines : List (List UInt8) × List UInt8) (octet : UInt8) : List (List UInt8) × List UInt8 :=
  if octet = 10 then (lines.2.reverse :: lines.1, []) else (lines.1, octet :: lines.2)

/-- What was cut off before stays, and the line that was begun goes on. -/
theorem foldl_cut (octets : List UInt8) (complete : List (List UInt8)) (current : List UInt8) :
    (octets.foldl cut (complete, current)).1.reverse ++
        [(octets.foldl cut (complete, current)).2.reverse] =
      complete.reverse ++ (octets.splitOn 10).modifyHead (current.reverse ++ ·) := by
  induction octets generalizing complete current with
  | nil => simp
  | cons octet rest ih =>
    have hsplit : (octet :: rest).splitOn 10 =
        if octet = 10 then [] :: rest.splitOn 10
        else (rest.splitOn 10).modifyHead (octet :: ·) := by
      simp [List.splitOn, List.splitOnP_cons_eq_if_modifyHead]
    rw [List.foldl_cons, hsplit, cut]
    split_ifs with hfeed
    · have hid : (rest.splitOn 10).modifyHead ([] ++ ·) = rest.splitOn 10 :=
        congrFun List.modifyHead_id _
      rw [ih, List.reverse_nil, hid]
      simp
    · rw [ih, List.modifyHead_modifyHead]
      simp [Function.comp_def]

/-- The lines of a stream are its parts between line feeds, without the last if that is empty. -/
theorem splitOn_eq_lines_or (octets : List UInt8) :
    octets.splitOn 10 = lines octets ∨ octets.splitOn 10 = lines octets ++ [[]] := by
  have hlines : lines octets =
      (if (octets.foldl cut ([], [])).2.isEmpty then (octets.foldl cut ([], [])).1
        else (octets.foldl cut ([], [])).2.reverse :: (octets.foldl cut ([], [])).1).reverse := rfl
  have hparts : octets.splitOn 10 = (octets.foldl cut ([], [])).1.reverse ++
      [(octets.foldl cut ([], [])).2.reverse] :=
    (congrFun List.modifyHead_id _).symm.trans (foldl_cut octets [] []).symm
  rw [hparts, hlines]
  cases (octets.foldl cut ([], [])).2 with
  | nil => exact .inr rfl
  | cons octet rest => exact .inl (List.reverse_cons ..).symm

end Text

/-! ### What a line has to say -/

/-- The empty text spells no document. -/
theorem Json.read_empty : read "" = none := by decide

/-- The payload that a line is: its octets are UTF-8, and between blank space they spell a document
that stands for a payload. -/
def Payload.ofLine? (line : List UInt8) : Option Json :=
  ((Text.decode? line).bind document?).bind normalize

namespace Lines

def isText (line : List UInt8) : Bool :=
  (Text.decode? line).isSome

/-- While somebody takes payloads, a line forwards the payload that it is, and ends the feed if it is
no text. -/
theorem forwarded_read (line : List UInt8) :
    forwarded true (read line) = (Payload.ofLine? line).toList ∧
      (said true (read line)).2 = !isText line := by
  unfold read Payload.ofLine? Payload.document? isText
  cases Text.decode? line with
  | none => exact ⟨rfl, rfl⟩
  | some text =>
    dsimp only [Option.bind_some]
    by_cases hblank : Text.trim text = ""
    · rw [if_pos hblank, hblank, Json.read_empty]
      exact ⟨rfl, rfl⟩
    · rw [if_neg hblank]
      cases Json.read (Text.trim text) with
      | none => exact ⟨rfl, rfl⟩
      | some document =>
        dsimp only [Option.bind_some]
        cases Payload.normalize document with
        | none => exact ⟨rfl, rfl⟩
        | some p => exact ⟨rfl, rfl⟩

/-! ### The feed -/

theorem forward_cons (line : List UInt8) (rest : List (List UInt8)) :
    forward true (line :: rest) =
      if isText line then
        (forward true rest).after (Payload.ofLine? line).toList (said true (read line)).1
      else { records := (said true (read line)).1 } := by
  obtain ⟨hforwarded, hends⟩ := forwarded_read line
  rw [← hforwarded, forward]
  dsimp only
  rw [hends]
  cases isText line with
  | false => rfl
  | true => rfl

/-- The lines up to the first that is no text forward the payloads among them. -/
theorem payloads_forward (lines : List (List UInt8)) :
    (forward true lines).payloads = (lines.takeWhile isText).filterMap Payload.ofLine? := by
  induction lines with
  | nil => rfl
  | cons line rest ih =>
    rw [forward_cons, List.takeWhile_cons]
    split_ifs with htext
    · rw [Report.after, ih, List.filterMap_cons]
      cases Payload.ofLine? line with
      | none => rfl
      | some p => rfl
    · rfl

/-- Every payload that is sent is counted, and nothing else is. -/
theorem sent_forward (lines : List (List UInt8)) :
    (forward true lines).sent = (forward true lines).payloads.length := by
  induction lines with
  | nil => rfl
  | cons line rest ih =>
    rw [forward_cons]
    split_ifs
    · rw [Report.after, List.length_append, ih]
    · rfl

/-- Up to the first line that is no text, a stream has the payloads of its parts between line
feeds. -/
theorem filterMap_takeWhile_lines (input : List UInt8) :
    ((Text.lines input).takeWhile isText).filterMap Payload.ofLine? =
      ((input.splitOn 10).takeWhile isText).filterMap Payload.ofLine? := by
  rcases Text.splitOn_eq_lines_or input with hsame | hempty
  · rw [hsame]
  · rw [hempty, List.takeWhile_append]
    split_ifs with hall
    · have hsame : (Text.lines input).takeWhile isText = Text.lines input :=
        (List.takeWhile_prefix isText).eq_of_length hall
      rw [hsame, List.filterMap_append]
      exact (List.append_nil _).symm
    · rfl

/-- While somebody takes payloads, the feed forwards, in order, the payloads among the lines of its
input up to the first line that is not UTF-8, and counts each of them once. Lines that are blank or
spell no document or no payload have no effect on the others. What is forwarded are the payloads among
all lines if and only if from the first line on that is not UTF-8 there is none. -/
theorem payloads_run_iff (input : List UInt8) :
    (run true input).payloads =
        ((input.splitOn 10).takeWhile isText).filterMap Payload.ofLine? ∧
      (run true input).sent = (run true input).payloads.length ∧
      ((run true input).payloads = (input.splitOn 10).filterMap Payload.ofLine? ↔
        ∀ line ∈ (input.splitOn 10).dropWhile isText, Payload.ofLine? line = none) := by
  have hpayloads : (run true input).payloads =
      ((input.splitOn 10).takeWhile isText).filterMap Payload.ofLine? :=
    (payloads_forward (Text.lines input)).trans (filterMap_takeWhile_lines input)
  refine ⟨hpayloads, ?_, ?_⟩
  · change 0 + (forward true (Text.lines input)).sent =
      (forward true (Text.lines input)).payloads.length
    rw [Nat.zero_add, sent_forward]
  · have hsplit : (input.splitOn 10).filterMap Payload.ofLine? =
        ((input.splitOn 10).takeWhile isText).filterMap Payload.ofLine? ++
          ((input.splitOn 10).dropWhile isText).filterMap Payload.ofLine? := by
      rw [← List.filterMap_append, List.takeWhile_append_dropWhile]
    rw [hpayloads, hsplit, List.self_eq_append_right, List.filterMap_eq_nil_iff]

/-- A line that is not UTF-8 takes the payload on the line after it away. -/
theorem not_payloads_run_brokenLine :
    ¬(run true [0xff, 10, 0x5b, 0x5d, 10]).payloads =
      (([0xff, 10, 0x5b, 0x5d, 10] : List UInt8).splitOn 10).filterMap Payload.ofLine? := by
  intro hsame
  have hlength := congrArg List.length hsame
  revert hlength
  decide

end Lines

end ActionReplay
