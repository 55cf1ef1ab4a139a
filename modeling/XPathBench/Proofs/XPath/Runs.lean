import XPathBench.Proofs.Pipeline
import XPathBench.XPath.Engine

/-!
# Runs over documents and queries

What a run over the engine for queries tells does not depend on the monad that it runs in nor on
what its clock shows.

* `runResult`: what a run tells, the time that it took apart
* `returns_run_engine`: runs tell it
* `stillOutcome`: a run without a monad
-/

namespace XPathBench

/-- What an outcome tells, the time that it took apart. -/
def Outcome.told : Outcome → Except Diagnostic (ResultType × ResultValue)
  | success e => .ok (e.declared, e.value)
  | failure d => .error d

namespace XPath

/-- A place with its markup. -/
def Place.block (indent : Indent) (p : Place) : NodeBlock :=
  ⟨p.kind, if p.kind.hasSubtree then p.pretty indent.margin else p.markup⟩

/-- A value on a document as runs show it. -/
def Value.shown (document : Xml.Document) (indent : Indent) : Value → ResultValue
  | boolean b => .boolean b
  | number x => .number x
  | string s => .text s
  | nodeSet places => .nodeSet ((Place.inDocumentOrder document places).map (Place.block indent))

/-- What a run tells: the diagnostic of the first phase that does not succeed, or the declared type
and the value. -/
def runResult (bindings : Bindings) (indent : Indent) (document query : String)
    (backtraces : Backtraces := .none) : Except Diagnostic (ResultType × ResultValue) :=
  match Xml.Document.load document with
  | .error f => .error (.ofFailure .parsing (f.raised (backtraces .parsing)) (some document))
  | .ok parsed => match Query.compile query with
    | .error f => .error (.ofFailure .compiling (f.raised (backtraces .compiling)) (some query))
    | .ok compiled => match compiled.evaluate bindings parsed with
      | .error i => .error ((i.raised (backtraces .evaluating)).inPhase .evaluating document)
      | .ok v => .ok (compiled.declared, v.shown parsed indent)

variable {bindings : Bindings} {indent : Indent} {document query : String}
  {backtraces : Backtraces}

/-- A query is compiled to the expression that it denotes. -/
theorem compile_eq_ok {compiled : Query} (h : Query.compile query = .ok compiled) :
    Expr.parse query = .ok (some compiled.expr) ∧ compiled.declared = announcedType query := by
  unfold Query.compile at h
  split at h
  · cases h
  · split at h
    · next hparse =>
      cases h
      exact ⟨hparse, rfl⟩
    · cases h
    · cases h

/-- A compiled query has the value of its expression. -/
theorem evaluate_eq_ok {compiled : Query} {parsed : Xml.Document} {v : Value}
    (h : compiled.evaluate bindings parsed = .ok v) :
    (Environment.mk bindings parsed).evaluate compiled.expr = .ok v := by
  unfold Query.evaluate at h
  split at h
  · next hvalue =>
    cases h
    exact hvalue
  · cases h
  · cases h

theorem runResult_eq_ok {r : ResultType × ResultValue}
    (h : runResult bindings indent document query backtraces = .ok r) :
    ∃ parsed compiled v, Xml.Document.load document = .ok parsed ∧
      Query.compile query = .ok compiled ∧ compiled.evaluate bindings parsed = .ok v ∧
        r = (compiled.declared, v.shown parsed indent) := by
  unfold runResult at h
  split at h
  · cases h
  next parsed hparsed =>
  split at h
  · cases h
  next compiled hcompiled =>
  split at h
  · cases h
  next v hv =>
  cases h
  exact ⟨parsed, compiled, v, hparsed, hcompiled, hv, rfl⟩

/-- How a run over the engine ends in a diagnostic. -/
theorem runResult_eq_error {d : Diagnostic}
    (h : runResult bindings indent document query backtraces = .error d) :
    (∃ f, Xml.Document.load document = .error f ∧
        d = .ofFailure .parsing (f.raised (backtraces .parsing)) (some document)) ∨
      (∃ f, Query.compile query = .error f ∧
        d = .ofFailure .compiling (f.raised (backtraces .compiling)) (some query)) ∨
      ∃ parsed compiled i, Query.evaluate bindings compiled parsed = .error i ∧
        d = (i.raised (backtraces .evaluating)).inPhase .evaluating document := by
  unfold runResult at h
  split at h
  next f hf =>
    cases h
    exact .inl ⟨f, hf, rfl⟩
  next parsed _ =>
  split at h
  next f hf =>
    cases h
    exact .inr (.inl ⟨f, hf, rfl⟩)
  next compiled _ =>
  split at h
  next i hi =>
    cases h
    exact .inr (.inr ⟨parsed, compiled, i, hi, rfl⟩)
  · cases h

/-! ## Runs in a monad -/

variable {m : Type → Type} [Monad m] [LawfulMonad m] {clock : m Duration}

theorem returns_block (p : Place) :
    Returns (RawNode.block indent (p.raw : RawNode m)).run (· = .ok (p.block indent)) := by
  unfold RawNode.block Place.block Place.raw
  cases p.kind.hasSubtree with
  | true | false =>
    refine returns_run_bind (returns_pure rfl) nofun fun markup hmarkup => ?_
    cases hmarkup
    exact returns_pure rfl

theorem returns_blocks (places : List Place) :
    Returns ((places.map (Place.raw (m := m))).mapM (RawNode.block indent)).run
      (· = .ok (places.map (Place.block indent))) := by
  induction places with
  | nil => exact returns_pure rfl
  | cons p places ih =>
    rw [List.map_cons, List.mapM_cons]
    refine returns_run_bind (returns_block p) nofun fun b hb => ?_
    cases hb
    refine returns_run_bind ih nofun fun bs hbs => ?_
    cases hbs
    exact returns_pure rfl

theorem returns_classify (document : Xml.Document) (v : Value) :
    Returns (classify indent (v.raw document : RawResult m)).run
      (· = .ok (v.shown document indent)) := by
  cases v with
  | nodeSet places =>
    refine returns_run_bind (returns_blocks _) nofun fun bs hbs => ?_
    cases hbs
    exact returns_pure rfl
  | boolean _ | number _ | string _ => exact returns_pure rfl

/-- Runs over the engine for queries tell what is to be told. -/
theorem returns_run_engine :
    Returns ((Pipeline.mk (engine bindings backtraces) indent clock).run document query)
      fun outcome => outcome.told = runResult bindings indent document query backtraces := by
  have hphases :
      Returns ((Pipeline.mk (engine bindings backtraces) indent clock).phases document query).run
        fun result => result.map (fun e => (e.declared, e.value)) =
          runResult bindings indent document query backtraces := by
    unfold Pipeline.phases runResult
    refine returns_phase_bind ?_
    cases Xml.Document.load document with
    | error f => exact rfl
    | ok parsed => ?_
    refine fun _ => returns_phase_bind ?_
    cases Query.compile query with
    | error f => exact rfl
    | ok compiled => ?_
    refine fun _ => returns_phase_bind ?_
    dsimp only
    cases compiled.evaluate bindings parsed with
    | error i => exact rfl
    | ok v => ?_
    refine fun _ => returns_run_bind (returns_liftM (returns_classify parsed v)) nofun
      fun shown h => ?_
    obtain ⟨_, hshown, rfl⟩ := h
    cases hshown
    exact returns_pure rfl
  refine hphases.bind fun result hresult => ?_
  cases result with
  | ok evaluation => exact returns_pure hresult
  | error diagnostic => exact returns_pure hresult

/-- The outcome on a document, without bindings and backtraces and with a clock that stands still.
-/
def stillOutcome (document query : String) : Outcome :=
  (Pipeline.mk (m := Id) (engine .none) ⟨2, ' '⟩ (Duration.ofNanoseconds 0)).run document query

end XPath

end XPathBench
