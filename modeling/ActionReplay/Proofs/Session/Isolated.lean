import ActionReplay.Proofs.Desktop.Held
import ActionReplay.Proofs.Replay.Dispatch
import ActionReplay.Session

/-!
# Requests do not leak into one another

A session serves requests one after another: payloads, new bounds of elements, and the switch between
a dry run and the real thing. Whatever came before, the desktop holds no modifier when a request has
been served (`Session.AtRest.serve`), because a replay releases what it pressed
(`Session.session_replay`). So between two requests a session is a fresh one with the elements it
knows and the mode it is in (`Session.AtRest.eq_ofConfig`), and answers like it. A payload that is
refused leaves the session as it is, and the desktop says nothing (`Session.AtRest.eq_of_refused`).
Together this holds of every request after every history (`Session.isolated_after`).
-/

set_option autoImplicit false
set_option relaxedAutoImplicit false

namespace ActionReplay

/-- What a session is asked. -/
inductive Request where
  | run (payload : Json)
  | perform (actions : Json)
  | register (handle : String) (bounds : Bounds)
  | setDryRun (dryRun : Bool)

/-- What a session answers: how a payload went, the bounds a handle had before, or nothing. -/
inductive Answer where
  | performed (result : Except SessionFault Outcome)
  | registered (previous : Option Bounds)
  | switched

namespace Session

/-- Serves a request: its answer, what was said, and the session after it. -/
def serve (s : Session) : Request → Answer × List LogRecord × Session
  | .run payload =>
    let (result, records, s) := s.run payload
    (.performed result, records, s)
  | .perform actions =>
    let (result, records, s) := s.perform actions
    (.performed result, records, s)
  | .register handle bounds =>
    let (previous, s) := s.register handle bounds
    (.registered previous, [], s)
  | .setDryRun dryRun => (.switched, [], s.setDryRun dryRun)

/-- The session after some requests. -/
def after (s : Session) (requests : List Request) : Session :=
  requests.foldl (fun s r ↦ (s.serve r).2.2) s

/-- Between two requests: the desktop holds nothing, and the time is kept as configured. -/
structure AtRest (c : Config) (s : Session) : Prop where
  pacing : s.pacing = c.pacing
  held : s.desktop.held = 0

variable {c : Config} {s : Session}

/-! ### Payloads -/

/-- Assumes: a desktop that holds nothing. A replay ends with the session it began with. -/
theorem session_replay (hheld : s.desktop.held = 0) (t : Timeline) : (s.replay t).2.2 = s := by
  have hsound : s.desktop.Sound s.desktop.dryRun := Desktop.sound_of_held rfl hheld
  have hdeliver : ∀ (memory : List LogRecord × Desktop) e, memory.2.Sound s.desktop.dryRun →
      (Desktop.device.deliver memory e).2.2.Sound s.desktop.dryRun :=
    fun _ e hmemory ↦ hmemory.deliver e
  have hdispatched : (Desktop.device.dispatch s.pacing ([], s.desktop) t).2.2.Sound
      s.desktop.dryRun :=
    Device.dispatch_keeps hdeliver (fun _ _ hmemory ↦ hmemory) hsound s.pacing t
  have hdesktop : s.desktop = { dryRun := s.desktop.dryRun } := by rw [← hheld]
  change { s with
    desktop := (Desktop.device.dispatch s.pacing ([], s.desktop) t).2.2.releaseModifiers.2.2 } = s
  rw [hdispatched.releaseModifiers, ← hdesktop]

theorem session_perform (hheld : s.desktop.held = 0) (actions : Json) :
    (s.perform actions).2.2 = s := by
  unfold perform
  cases Timeline.compile s.elements.locate actions with
  | error fault => rfl
  | ok t => exact session_replay hheld t

theorem session_run (hheld : s.desktop.held = 0) (payload : Json) : (s.run payload).2.2 = s := by
  unfold run
  cases Payload.actions? payload with
  | none => rfl
  | some actions => exact session_perform hheld actions

/-- About a payload that is refused the desktop says nothing. -/
theorem silent_perform {actions : Json} {fault : SessionFault}
    (hrefused : (s.perform actions).1 = .error fault) :
    ∀ said ∈ (s.perform actions).2.1, ¬Desktop.Speaks said := by
  unfold perform at hrefused ⊢
  generalize Timeline.compile s.elements.locate actions = compiled at hrefused
  cases compiled with
  | error =>
    have hgreeting : "actionforge::runtime" ≠ "actionforge::actions" := by decide
    exact List.forall_mem_singleton.2 hgreeting
  | ok => cases hrefused

theorem silent_run {payload : Json} {fault : SessionFault}
    (hrefused : (s.run payload).1 = .error fault) :
    ∀ said ∈ (s.run payload).2.1, ¬Desktop.Speaks said := by
  unfold run at hrefused ⊢
  generalize Payload.actions? payload = carried at hrefused
  cases carried with
  | none => exact List.forall_mem_nil _
  | some => exact silent_perform hrefused

/-! ### Requests -/

namespace AtRest

/-- Between two requests a session is as fresh as one made from what it knows. -/
theorem eq_ofConfig (hrest : s.AtRest c) :
    s = ofConfig { c with elements := s.elements } s.desktop.dryRun := by
  obtain ⟨pacing, elements, dryRun, held⟩ := s
  obtain ⟨rfl, rfl⟩ := hrest
  rfl

/-- Serving a request ends between two requests again. -/
theorem serve (hrest : s.AtRest c) (r : Request) : (s.serve r).2.2.AtRest c := by
  cases r with
  | run payload =>
    change (s.run payload).2.2.AtRest c
    rwa [session_run hrest.held]
  | perform actions =>
    change (s.perform actions).2.2.AtRest c
    rwa [session_perform hrest.held]
  | register handle bounds => exact ⟨hrest.pacing, hrest.held⟩
  | setDryRun dryRun => exact ⟨hrest.pacing, hrest.held⟩

theorem after (hrest : s.AtRest c) (requests : List Request) : (s.after requests).AtRest c := by
  induction requests generalizing s with
  | nil => exact hrest
  | cons r rest ih => exact ih (hrest.serve r)

/-- Assumes: a session between two requests. A payload that is refused leaves it as it is. -/
theorem eq_of_refused (hrest : s.AtRest c) {r : Request} {fault : SessionFault}
    (hrefused : (s.serve r).1 = .performed (.error fault)) :
    (s.serve r).2.2 = s ∧ ∀ said ∈ (s.serve r).2.1, ¬Desktop.Speaks said := by
  cases r with
  | run payload =>
    exact ⟨session_run hrest.held payload, silent_run (Answer.performed.inj hrefused)⟩
  | perform actions =>
    exact ⟨session_perform hrest.held actions, silent_perform (Answer.performed.inj hrefused)⟩
  | register => cases hrefused
  | setDryRun => cases hrefused

end AtRest

/-- A session serves a request as if nothing had come before it: no modifier is held afterwards, it
answers and says what a fresh session says that knows the same elements and is in the same mode, and
if it refuses a payload it stays as it is and the desktop says nothing. -/
structure Isolated (c : Config) (s : Session) (r : Request) : Prop where
  released : (s.serve r).2.2.desktop.held = 0
  answer : (s.serve r).1 =
    ((ofConfig { c with elements := s.elements } s.desktop.dryRun).serve r).1
  said : (s.serve r).2.1 =
    ((ofConfig { c with elements := s.elements } s.desktop.dryRun).serve r).2.1
  refused : ∀ fault, (s.serve r).1 = .performed (.error fault) →
    (s.serve r).2.2 = s ∧ ∀ said ∈ (s.serve r).2.1, ¬Desktop.Speaks said

/-- After any requests, a session serves the next one as if nothing had come before it. That the
desktop says nothing means that it was handed nothing, since of every event it says something. -/
theorem isolated_after (c : Config) (dryRun : Bool) (before : List Request) (r : Request) :
    Isolated c ((ofConfig c dryRun).after before) r ∧
      ∀ (d : Desktop) (e : InputEvent), ∃ said ∈ (d.deliver e).2.1, Desktop.Speaks said := by
  have hstart : (ofConfig c dryRun).AtRest c := ⟨rfl, rfl⟩
  have hrest : ((ofConfig c dryRun).after before).AtRest c := hstart.after before
  refine ⟨?_, Desktop.exists_said⟩
  constructor
  · exact (hrest.serve r).held
  · rw [← hrest.eq_ofConfig]
  · rw [← hrest.eq_ofConfig]
  · intro fault hrefused
    exact hrest.eq_of_refused hrefused

end Session

end ActionReplay
