import Mathlib.Data.List.Forall2
import Mathlib.Tactic.Choose
import XPathBench.Pipeline
import XPathBench.Proofs.Actions

/-!
# Engines with a record

An engine that is watched keeps a record of what it was asked and what it answered.

* `Event`: a question to an engine with its answer
* `Engine.Answers`: what is told of the answers of an engine
* `Pipeline.recorded`: a pipeline whose engine is watched
* `Records`: an action does what another one does, and appends to the record
-/

namespace XPathBench

variable {m : Type → Type} {D Q : Type}

/-- Something that an engine was asked, with its answer. -/
inductive Event (m : Type → Type) (D Q : Type) where
  | parse (document : String) (answer : Attempt EngineFailure D)
  | compile (query : String) (answer : Attempt EngineFailure Q)
  | evaluate (query : Q) (document : D) (answer : Attempt EngineFailure (RawResult m))
  /-- A node of a result was written, with everything below it. -/
  | subtree (node : RawNode m) (indent : Indent) (answer : Attempt MarkupError String)
  /-- A node of a result was written as it is stored. -/
  | outer (node : RawNode m) (answer : Attempt MarkupError String)

/-- The phase that an operation of the engine belongs to. Nodes are written after the last one. -/
def Event.phase? : Event m D Q → Option Phase
  | parse _ _ => some .parsing
  | compile _ _ => some .compiling
  | evaluate _ _ _ => some .evaluating
  | subtree _ _ _ => none
  | outer _ _ => none

/-- An engine, and whoever writes the nodes that it hands over, answers as `account` tells. -/
structure Engine.Answers [Monad m] (engine : Engine m D Q) (account : Event m D Q → Prop) :
    Prop where
  parse (text : String) : Returns (engine.parse text) fun answer => account (.parse text answer)
  compile (text : String) :
    Returns (engine.compile text) fun answer => account (.compile text answer)
  evaluate (query : Q) (document : D) :
    Returns (engine.evaluate query document) fun answer => account (.evaluate query document answer)
  subtree (n : RawNode m) (indent : Indent) :
    Returns (n.subtree indent) fun answer => account (.subtree n indent answer)
  outer (n : RawNode m) : Returns n.outer fun answer => account (.outer n answer)

/-- The calls of the three operations in a record. -/
def calls (events : List (Event m D Q)) : List Phase := events.filterMap Event.phase?

section
variable [Monad m]

/-- An action whose answer is recorded. -/
def record {E α : Type} (event : α → E) (action : m α) : StateT (List E) m α := do
  let answer ← action
  modify (· ++ [event answer])
  return answer

/-- A node that is watched. -/
def RawNode.recorded (n : RawNode m) : RawNode (StateT (List (Event m D Q)) m) where
  kind := n.kind
  subtree indent := record (.subtree n indent) (n.subtree indent)
  outer := record (.outer n) n.outer

/-- A result whose nodes are watched. -/
def RawResult.recorded (raw : RawResult m) : RawResult (StateT (List (Event m D Q)) m) where
  text := raw.text
  boolean := raw.boolean
  number := raw.number
  nodes := raw.nodes.map (·.map RawNode.recorded)
  display := raw.display

/-- An engine that is watched. -/
def Engine.recorded (e : Engine m D Q) : Engine (StateT (List (Event m D Q)) m) D Q where
  parse text := record (.parse text) (e.parse text)
  compile text := record (.compile text) (e.compile text)
  declared := e.declared
  evaluate q d :=
    (fun answer => answer.map RawResult.recorded) <$> record (.evaluate q d) (e.evaluate q d)

/-- A pipeline whose engine is watched. -/
def Pipeline.recorded (p : Pipeline m D Q) : Pipeline (StateT (List (Event m D Q)) m) D Q where
  engine := p.engine.recorded
  indent := p.indent
  clock := liftM p.clock

end

/-! ## What actions append -/

variable [Monad m] {E α β γ δ ε ζ : Type}

/-- `x` does what `y` does and appends to a record. What the two return and what is appended are as
`p` tells, whatever the record holds before. -/
def Records (x : StateT (List E) m α) (y : m β) (p : α → β → List E → Prop) : Prop :=
  ∃ z : m {r : α × β × List E // p r.1 r.2.1 r.2.2},
    (∀ earlier, x.run earlier = (fun r => (r.1.1, earlier ++ r.1.2.2)) <$> z) ∧
      y = (fun r => r.1.2.1) <$> z

variable [LawfulMonad m] {p : α → β → List E → Prop} {q : γ → δ → List E → Prop}

theorem records_pure {a : α} {b : β} (h : p a b []) :
    Records (pure a : StateT (List E) m α) (pure b) p := by
  refine ⟨pure ⟨(a, b, []), h⟩, fun earlier => ?_, ?_⟩
  · rw [map_pure, List.append_nil]
    rfl
  · rw [map_pure]

theorem Records.bind {x : StateT (List E) m α} {y : m β} {f : α → StateT (List E) m γ}
    {g : β → m δ} (h : Records x y p)
    (hf : ∀ a b es, p a b es → Records (f a) (g b) fun c d more => q c d (es ++ more)) :
    Records (x >>= f) (y >>= g) q := by
  obtain ⟨z, hx, rfl⟩ := h
  choose z' hx' hy' using fun r : {r : α × β × List E // p r.1 r.2.1 r.2.2} => hf _ _ _ r.2
  refine ⟨z >>= fun r => (fun r' => ⟨(r'.1.1, r'.1.2.1, r.1.2.2 ++ r'.1.2.2), r'.2⟩) <$> z' r,
    fun earlier => ?_, ?_⟩
  · rw [StateT.run_bind, hx, bind_map_left, map_bind]
    refine bind_congr fun r => ?_
    rw [hx', ← comp_map]
    simp only [Function.comp_def, List.append_assoc]
  · rw [bind_map_left, map_bind]
    refine bind_congr fun r => ?_
    rw [hy', ← comp_map]
    rfl

theorem Records.map_left {x : StateT (List E) m α} {y : m β} (f : α → γ) (h : Records x y p) :
    Records (f <$> x) y fun c b es => ∃ a, c = f a ∧ p a b es := by
  rw [map_eq_pure_bind, ← bind_pure y]
  refine h.bind fun a b es hp => records_pure ⟨a, rfl, ?_⟩
  rwa [List.append_nil]

theorem Records.mono {x : StateT (List E) m α} {y : m β} {p' : α → β → List E → Prop}
    (h : Records x y p) (hp : ∀ a b es, p a b es → p' a b es) : Records x y p' := by
  obtain ⟨z, hx, rfl⟩ := h
  refine ⟨(fun r => ⟨r.1, hp _ _ _ r.2⟩) <$> z, fun earlier => ?_, ?_⟩
  · rw [hx, ← comp_map]
    rfl
  · rw [← comp_map]
    rfl

theorem records_liftM (y : m α) :
    Records (liftM y : StateT (List E) m α) y fun a b es => b = a ∧ es = [] := by
  refine ⟨(fun a => ⟨(a, a, []), rfl, rfl⟩) <$> y, fun earlier => ?_, ?_⟩
  · rw [← comp_map]
    simp [Function.comp_def]
  · rw [← comp_map]
    exact (id_map y).symm

theorem records_record (event : α → E) {y : m α} {p : α → Prop} (h : Returns y p) :
    Records (record event y) y fun a b es => b = a ∧ es = [event a] ∧ p a := by
  obtain ⟨z, hz⟩ := h
  refine ⟨(fun a => ⟨(a.1, a.1, [event a.1]), rfl, rfl, a.2⟩) <$> z, fun earlier => ?_, ?_⟩
  · rw [← comp_map]
    conv_lhs => rw [← hz]
    simp [record, Function.comp_def]
  · rw [← comp_map]
    exact hz.symm

/-- What an action returns with a record. -/
theorem Records.returns {x : StateT (List E) m α} {y : m β} (h : Records x y p) (earlier : List E) :
    Returns (x.run earlier) fun r => ∃ b es, p r.1 b es ∧ r.2 = earlier ++ es := by
  obtain ⟨z, hx, -⟩ := h
  refine ⟨(fun r => ⟨(r.1.1, earlier ++ r.1.2.2), r.1.2.1, r.1.2.2, r.2, rfl⟩) <$> z, ?_⟩
  rw [hx, ← comp_map]
  rfl

/-- An action with a record returns the same as the one without. -/
theorem Records.run_eq {x : StateT (List E) m α} {y : m α} {p : α → α → List E → Prop}
    (h : Records x y p) (hp : ∀ a b es, p a b es → b = a) (earlier : List E) :
    Prod.fst <$> x.run earlier = y := by
  obtain ⟨z, hx, rfl⟩ := h
  rw [hx, ← comp_map]
  exact congrArg (· <$> z) (funext fun r => (hp _ _ _ r.2).symm)

/-- Actions done for the members of a list, one after the other. -/
theorem records_mapM {f : α → StateT (List E) m β} {g : α → m β} {q : α → β → List E → Prop}
    (h : ∀ a, Records (f a) (g a) fun b c es => c = b ∧ q a b es) (as : List α) :
    Records (as.mapM f) (as.mapM g) fun bs cs es => cs = bs ∧ ∃ parts : List (β × List E),
      bs = parts.map Prod.fst ∧ es = parts.flatMap Prod.snd ∧
        List.Forall₂ (fun a part => q a part.1 part.2) as parts := by
  induction as with
  | nil =>
    rw [List.mapM_nil, List.mapM_nil]
    exact records_pure ⟨rfl, [], rfl, rfl, .nil⟩
  | cons a as ih =>
    rw [List.mapM_cons, List.mapM_cons]
    refine (h a).bind fun _ b first hfirst => ?_
    obtain ⟨rfl, hq⟩ := hfirst
    refine ih.bind fun _ bs more hmore => ?_
    obtain ⟨rfl, parts, rfl, rfl, hparts⟩ := hmore
    refine records_pure ⟨rfl, (b, first) :: parts, rfl, ?_, .cons hq hparts⟩
    rw [List.append_nil, List.flatMap_cons]

/-! ## Actions that may fail -/

theorem records_run_bind {x : ExceptT ε (StateT (List E) m) α} {y : ExceptT ε m β}
    {f : α → ExceptT ε (StateT (List E) m) γ} {g : β → ExceptT ε m δ}
    {p : Except ε α → Except ε β → List E → Prop} {q : Except ε γ → Except ε δ → List E → Prop}
    (h : Records x.run y.run p)
    (herror : ∀ e s es, p (.error e) s es → ∃ e', s = .error e' ∧ q (.error e) (.error e') es)
    (hok : ∀ a s es, p (.ok a) s es → ∃ b, s = .ok b ∧
      Records (f a).run (g b).run fun c d more => q c d (es ++ more)) :
    Records (x >>= f).run (y >>= g).run q := by
  rw [ExceptT.run_bind, ExceptT.run_bind]
  refine h.bind fun r s es hp => ?_
  cases r with
  | ok a =>
    obtain ⟨b, rfl, hrecords⟩ := hok a s es hp
    exact hrecords
  | error e =>
    obtain ⟨e', rfl, hq⟩ := herror e s es hp
    exact records_pure (by rwa [List.append_nil])

/-- An action that cannot fail goes on with what it returns. -/
theorem records_run_liftM_bind {x : StateT (List E) m α} {y : m β}
    {f : α → ExceptT ε (StateT (List E) m) γ} {g : β → ExceptT ε m δ}
    {q : Except ε γ → Except ε δ → List E → Prop} (h : Records x y p)
    (hf : ∀ a b es, p a b es → Records (f a).run (g b).run fun c d more => q c d (es ++ more)) :
    Records ((liftM x : ExceptT ε (StateT (List E) m) α) >>= f).run
      ((liftM y : ExceptT ε m β) >>= g).run q := by
  rw [ExceptT.run_bind, ExceptT.run_bind]
  show Records ((Except.ok <$> x) >>= _) ((Except.ok <$> y) >>= _) q
  rw [bind_map_left, bind_map_left]
  exact h.bind hf

/-! ## Phases -/

/-- How a phase ends, by the answer of its operation and the time that passed. -/
def Phase.ended (phase : Phase) (source : String) (answer : Attempt EngineFailure α)
    (time : Duration) : Except Diagnostic (α × Duration) :=
  (answer.mapError (Interruption.inPhase phase source)).map (·, time)

theorem Phase.eq_of_ended_ok {phase : Phase} {source : String} {answer : Attempt EngineFailure α}
    {time : Duration} {r : α × Duration} (h : .ok r = phase.ended source answer time) :
    answer = .ok r.1 ∧ r.2 = time := by
  cases answer with
  | ok a =>
    cases h
    exact ⟨rfl, rfl⟩
  | error i => cases h

theorem Phase.exists_of_ended_error {phase : Phase} {source : String}
    {answer : Attempt EngineFailure α} {time : Duration} {d : Diagnostic}
    (h : .error d = phase.ended source answer time) :
    ∃ i, answer = .error i ∧ d = i.inPhase phase source := by
  cases answer with
  | ok a => cases h
  | error i =>
    cases h
    exact ⟨i, rfl, rfl⟩

theorem records_phase {pipeline : Pipeline m D Q} {phase : Phase} {source : String}
    {x : StateT (List (Event m D Q)) m (Attempt EngineFailure α)}
    {y : m (Attempt EngineFailure β)}
    {p : Attempt EngineFailure α → Attempt EngineFailure β → List (Event m D Q) → Prop}
    (h : Records x y p) :
    Records (pipeline.recorded.phase phase source x).run (pipeline.phase phase source y).run
      fun r s es => ∃ a b time, p a b es ∧ r = phase.ended source a time ∧
        s = phase.ended source b time := by
  have hclock := records_liftM (E := Event m D Q) pipeline.clock
  have htimed : Records
      (Pipeline.timed (liftM pipeline.recorded.clock) (liftM x) : ExceptT Diagnostic _ _).run
      (Pipeline.timed (liftM pipeline.clock) (liftM y) : ExceptT Diagnostic m _).run
      fun r s es => ∃ a b time, p a b es ∧ r = .ok (a, time) ∧ s = .ok (b, time) := by
    refine records_run_liftM_bind hclock fun before _ _ hbefore => ?_
    obtain ⟨rfl, rfl⟩ := hbefore
    refine records_run_liftM_bind h fun a b es hp => ?_
    refine records_run_liftM_bind hclock fun later _ _ hlater => ?_
    obtain ⟨rfl, rfl⟩ := hlater
    exact records_pure ⟨a, b, _, by simpa using hp, rfl, rfl⟩
  rw [Pipeline.phase, Pipeline.phase]
  refine records_run_bind htimed (fun _ _ _ ⟨_, _, _, _, h, _⟩ => nomatch h) fun _ _ es hr => ?_
  obtain ⟨a, b, time, hp, hr, rfl⟩ := hr
  cases hr
  refine ⟨_, rfl, ?_⟩
  cases a <;> cases b <;> exact records_pure ⟨_, _, time, by simpa using hp, rfl, rfl⟩

/-- A run goes on with what the operation of a phase gives, and ends with the diagnostic of what
interrupts it. -/
theorem records_phase_bind {pipeline : Pipeline m D Q} {phase : Phase} {source : String}
    {x : StateT (List (Event m D Q)) m (Attempt EngineFailure α)}
    {y : m (Attempt EngineFailure β)}
    {f : α × Duration → ExceptT Diagnostic (StateT (List (Event m D Q)) m) γ}
    {g : β × Duration → ExceptT Diagnostic m δ}
    {p : Attempt EngineFailure α → Attempt EngineFailure β → List (Event m D Q) → Prop}
    {q : Except Diagnostic γ → Except Diagnostic δ → List (Event m D Q) → Prop}
    (h : Records x y p)
    (herror : ∀ i b es, p (.error i) b es → b = .error i ∧
      q (.error (i.inPhase phase source)) (.error (i.inPhase phase source)) es)
    (hok : ∀ a b es time, p (.ok a) b es → ∃ a', b = .ok a' ∧
      Records (f (a, time)).run (g (a', time)).run fun c d more => q c d (es ++ more)) :
    Records (pipeline.recorded.phase phase source x >>= f).run
      (pipeline.phase phase source y >>= g).run q := by
  refine records_run_bind (records_phase h) ?_ ?_
  · rintro d s es ⟨answer, b, time, hp, hd, rfl⟩
    obtain ⟨i, rfl, rfl⟩ := Phase.exists_of_ended_error hd
    obtain ⟨rfl, hq⟩ := herror i b es hp
    exact ⟨_, rfl, hq⟩
  · rintro ⟨a, time⟩ s es ⟨answer, b, _, hp, hanswer, rfl⟩
    obtain ⟨rfl, rfl⟩ := Phase.eq_of_ended_ok hanswer
    obtain ⟨a', rfl, hrecords⟩ := hok a b es time hp
    exact ⟨_, rfl, hrecords⟩

end XPathBench
