import FormFlow.Proofs.LoopReferences
/-!
What a session announces.

A command that fails leaves the editor and the announcements as they were, and so does a connection that is repeated
inside the window. Every other command that succeeds ends with one announcement of its change, after its warnings, and
that announcement has the numbers of nodes and edges that there are now (`attempt_announces`).
-/

set_option autoImplicit false

namespace FormFlow.Session

variable {σ : Type} {s : Session σ} {c : Command}

/-- A command keeps its warnings and announces them, and then its change. -/
structure Announces (s : Session σ) (c : Command) (warnings : List Warning) : Prop where
  kept : (s.perform c).editor.warnings = s.editor.warnings ++ warnings
  told : ∃ ids, (s.perform c).events = s.events ++ s.heard (warnings.map .warned ++
    [.changed c.change ids (s.perform c).editor.store.nodes.length (s.perform c).editor.store.links.length])

/-- **A command that fails changes nothing, and one that succeeds is announced once.** Whatever the fault is, the
editor is as it was, with its store, its warnings and its last connection, and nothing is announced. The same goes for
a connection that is repeated inside the window. -/
theorem attempt_announces (s : Session σ) (c : Command) :
    (∀ f, (s.attempt c).1 = .error f → (s.perform c).editor = s.editor ∧ (s.perform c).events = s.events) ∧
      (s.Repeats c → s.Succeeds c ∧ (s.perform c).editor = s.editor ∧ (s.perform c).events = s.events) ∧
      (s.Succeeds c → ¬ s.Repeats c → ∃ warnings, s.Announces c warnings) := by
  have hattempt := s.attempt_snd c
  cases s.attempt_outcome c with
  | fails f hfail heditor hevents =>
    rw [hattempt] at heditor hevents
    refine ⟨fun _ _ => ⟨heditor, hevents⟩, fun hrepeats => ?_, fun hsucceeds _ => ?_⟩
    · obtain ⟨hrepeat⟩ := hrepeats
      simp only [attempt, connect, hrepeat] at hfail
      cases hfail
    · cases hsucceeds.symm.trans hfail
  | ignored hrepeats hsucceeds heditor hevents =>
    rw [hattempt] at heditor hevents
    exact ⟨fun _ _ => ⟨heditor, hevents⟩, fun _ => ⟨hsucceeds, heditor, hevents⟩, fun _ hnot => absurd hrepeats hnot⟩
  | adopted changed hchanges hsucceeds hadopts =>
    rw [hattempt] at hadopts
    refine ⟨fun f hfail => ?_, fun hrepeats => ?_, fun _ _ => ⟨_, hadopts.warnings, hadopts.events⟩⟩
    · cases hsucceeds.symm.trans hfail
    · obtain ⟨hrepeat⟩ := hrepeats
      cases hchanges with
      | connect hfirst _ _ => cases hfirst.symm.trans hrepeat

end FormFlow.Session
