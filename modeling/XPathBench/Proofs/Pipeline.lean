import XPathBench.Pipeline
import XPathBench.Proofs.Actions

/-!
# What phases return

What is said of a phase of a run is said of all that it may return, whatever the clock shows.

* `returns_phase_bind`: what goes on behind a phase whose operation has no effects
-/

namespace XPathBench

variable {m : Type → Type} [Monad m] [LawfulMonad m] {α β : Type}

theorem returns_timed {clock : m Duration} {attempt : α} :
    Returns (Pipeline.timed (liftM clock) (liftM (pure attempt : m α)) : ExceptT Diagnostic m _).run
      fun r => ∃ time, r = .ok (attempt, time) := by
  refine returns_run_bind (returns_liftM (returns_true _)) nofun fun _ _ => ?_
  refine returns_run_bind (returns_liftM (p := (· = attempt)) (returns_pure rfl)) nofun
    fun result hresult => ?_
  obtain ⟨_, hresult, rfl⟩ := hresult
  cases hresult
  exact returns_run_bind (returns_liftM (returns_true _)) nofun fun _ _ => returns_pure ⟨_, rfl⟩

/-- A phase whose operation has no effects goes on with its result, or ends in the diagnostic of
what interrupted it. -/
theorem returns_phase_bind {D Q : Type} {pipeline : Pipeline m D Q} {phase : Phase}
    {source : String} {attempt : Attempt EngineFailure α}
    {next : α × Duration → ExceptT Diagnostic m β} {q : Except Diagnostic β → Prop}
    (h : match attempt with
      | .ok a => ∀ time, Returns (next (a, time)).run q
      | .error interruption => q (.error (interruption.inPhase phase source))) :
    Returns (pipeline.phase phase source (pure attempt) >>= next).run q := by
  rw [Pipeline.phase, bind_assoc, ExceptT.run_bind]
  refine returns_timed.bind fun r hr => ?_
  obtain ⟨time, rfl⟩ := hr
  cases attempt with
  | ok a =>
    show Returns (pure (a, time) >>= next).run q
    rw [pure_bind]
    exact h time
  | error interruption => exact returns_run_bind (returns_pure rfl) (by rintro e ⟨⟩; exact h) nofun

end XPathBench
