import XPathBench.Proofs.Diagnostics
import XPathBench.Proofs.XPath.Runs
import XPathBench.Proofs.XPath.Void

/-!
# Where failures point

A document that cannot be read is reported with a place in it, and the report shows the line of the
place with a caret below it. All other failures point nowhere.

* `load_eq_error`, `Query.compile_eq_error`, `Query.evaluate_eq_error`: the failures of the engine
* `RunReport`: what runs report of the failures of the engine
* `failures_point`: where the reports point
-/

namespace XPathBench.XPath

open Xml (Document)

variable {text query : String} {f : EngineFailure}

/-! ## Failures of the engine -/

theorem load_eq_error (h : Document.load text = .error f) :
    ∃ message offset,
      f = ⟨"XmlSyntaxError", message, some (.ofOffset text offset), [], none⟩ := by
  unfold Document.load at h
  split at h
  · cases h
  · cases h
    exact ⟨_, _, rfl⟩

theorem Query.compile_eq_error (h : Query.compile query = .error f) :
    f = nothingToCompile ∨ ∃ message, f = .plain "XPathSyntaxError" message := by
  unfold Query.compile at h
  split at h
  · cases h
    exact .inl rfl
  · split at h
    · cases h
    · cases h
      exact .inl rfl
    · cases h
      exact .inr ⟨_, rfl⟩

theorem Query.evaluate_eq_error {bindings : Bindings} {compiled : Query} {document : Document}
    {i : Interruption EngineFailure} (h : compiled.evaluate bindings document = .error i) :
    (∃ message, i = .failure (.plain "XPathEvaluationError" message)) ∨
      ∃ payload, i = .crash payload := by
  unfold Query.evaluate at h
  split at h
  · cases h
  · cases h
    exact .inl ⟨_, rfl⟩
  · cases h
    exact .inr ⟨_, rfl⟩

/-! ## Reports -/

/-- What is reported of a query that is not compiled. -/
structure CompileReport (query : String) (d : Diagnostic) : Prop where
  kind : d.kind = "EmptyExpression" ∨ d.kind = "XPathSyntaxError"
  /-- A query is reported as empty if it consists of blanks, or of tokens that denote nothing. -/
  empty_iff : d.kind = "EmptyExpression" ↔ Text.allBlank query = true ∨
    (TokenStream.ofText query).error = none ∧ Void (TokenStream.ofText query).tokens

theorem compileReport_of_error (h : Query.compile query = .error f) (backtrace : Option String) :
    CompileReport query (.ofFailure .compiling (f.raised backtrace) (some query)) := by
  obtain rfl | ⟨message, rfl⟩ := Query.compile_eq_error h
  · exact ⟨.inl rfl, iff_of_true rfl (Query.compile_eq_nothing_iff.mp h)⟩
  · have hkind : "XPathSyntaxError" ≠ "EmptyExpression" := by decide
    refine ⟨.inr rfl, iff_of_false hkind fun hempty => ?_⟩
    have hnothing := h.symm.trans (Query.compile_eq_nothing_iff.mpr hempty)
    exact hkind (congrArg EngineFailure.kind (Except.error.inj hnothing))

theorem Query.compile_error_plain (h : Query.compile query = .error f) :
    ∃ kind message, f = .plain kind message := by
  obtain rfl | ⟨message, rfl⟩ := Query.compile_eq_error h
  · exact ⟨_, _, rfl⟩
  · exact ⟨_, _, rfl⟩

/-- What runs report of a document and a query, and of the backtraces that were captured. -/
structure RunReport (document query : String) (backtraces : Backtraces) (d : Diagnostic) :
    Prop where
  /-- A document that is not read is reported with a place in it. -/
  parsing : d.phase = .parsing → d.kind = "XmlSyntaxError" ∧ d.PointsInto document
  compiling : d.phase = .compiling → CompileReport query d
  /-- Nothing else points anywhere. -/
  nowhere : d.phase ≠ .parsing → d.PointsNowhere
  /-- The failures of the engine show the backtrace that was captured, and nothing else. -/
  captured : d.phase ≠ .unexpected → d.ShowsCaptured (backtraces d.phase)
  /-- Without a backtrace nothing is shown behind the place. -/
  exact : d.phase = .unexpected ∨ backtraces d.phase = none → d.trace = none

namespace RunReport

variable {document source : String} {backtraces : Backtraces} {phase : Phase}

theorem of_load_error (h : Document.load document = .error f) :
    RunReport document query backtraces
      (.ofFailure .parsing (f.raised (backtraces .parsing)) (some document)) := by
  obtain ⟨message, offset, rfl⟩ := load_eq_error h
  have hcaptured := showsCaptured_ofFailure (f := ⟨"XmlSyntaxError", message,
    some (.ofOffset document offset), [], backtraces .parsing⟩) rfl .parsing (some document)
  exact {
    parsing := fun _ => ⟨rfl, pointsInto_ofOffset _ _ _ _ _ _⟩
    compiling := nofun
    nowhere := fun hphase => absurd rfl hphase
    captured := fun _ => hcaptured
    exact := fun hnone => hcaptured.trace_eq_none (hnone.resolve_left nofun) }

/-- A failure without a place, which is not one of reading the document. -/
theorem of_plain (hcauses : f.causes = []) (hposition : f.position = none)
    (hparsing : phase ≠ .parsing) (hcrash : phase ≠ .unexpected)
    (hcompiling : phase = .compiling → CompileReport query
      (.ofFailure phase (f.raised (backtraces phase)) (some source))) :
    RunReport document query backtraces
      (.ofFailure phase (f.raised (backtraces phase)) (some source)) := by
  have hcaptured : (Diagnostic.ofFailure phase (f.raised (backtraces phase))
      (some source)).ShowsCaptured (backtraces phase) :=
    showsCaptured_ofFailure (f := f.raised (backtraces phase)) hcauses phase (some source)
  have hnowhere : (Diagnostic.ofFailure phase (f.raised (backtraces phase))
      (some source)).PointsNowhere :=
    pointsNowhere_ofFailure (f := f.raised (backtraces phase)) hposition phase (some source)
  exact {
    parsing := fun hphase => absurd hphase hparsing
    compiling := hcompiling
    nowhere := fun _ => hnowhere
    captured := fun _ => hcaptured
    exact := fun hnone => hcaptured.trace_eq_none (hnone.resolve_left hcrash) }

theorem of_crash (message : String) :
    RunReport document query backtraces (.plain .unexpected "panic" message) where
  parsing := nofun
  compiling := nofun
  nowhere _ := Diagnostic.pointsNowhere_plain _ _ _
  captured hphase := absurd rfl hphase
  exact _ := rfl

end RunReport

variable {m : Type → Type} [Monad m] [LawfulMonad m]

/-- What runs report. A document that is not read is reported with a place in it, whatever offset
the reader of documents gives; a query is reported as empty or as malformed; and only what is told
of documents points anywhere. Behind that stands what was captured of the calls, if it was asked
for. -/
theorem failures_point {bindings : Bindings} {backtraces : Backtraces} {indent : Indent}
    {clock : m Duration} {document query : String} :
    (∀ message offset backtrace, (Diagnostic.ofFailure .parsing
      ⟨"XmlSyntaxError", message, some (.ofOffset document offset), [], backtrace⟩
        (some document)).PointsInto document) ∧
    Returns ((Pipeline.mk (engine bindings backtraces) indent clock).run document query)
      fun outcome => ∀ d, outcome = .failure d → RunReport document query backtraces d := by
  refine ⟨fun message offset => pointsInto_ofOffset .parsing _ message document offset,
    returns_run_engine.mono fun outcome htold d houtcome => ?_⟩
  subst houtcome
  obtain ⟨f, hf, rfl⟩ | ⟨f, hf, rfl⟩ | ⟨parsed, compiled, i, hi, rfl⟩ :=
    runResult_eq_error htold.symm
  · exact .of_load_error hf
  · have hreport := compileReport_of_error hf (backtraces .compiling)
    obtain ⟨kind, message, rfl⟩ := Query.compile_error_plain hf
    exact .of_plain rfl rfl (by decide) (by decide) fun _ => hreport
  · obtain ⟨message, rfl⟩ | ⟨payload, rfl⟩ := Query.evaluate_eq_error hi
    · exact .of_plain rfl rfl (show .evaluating ≠ Phase.parsing by decide) (by decide) nofun
    · exact .of_crash payload.describe

theorem exists_failure {outcome : Outcome} {p : Phase × String}
    (h : outcome.diagnostic?.map (fun d => (d.phase, d.kind)) = some p) :
    ∃ d, outcome = .failure d ∧ d.phase = p.1 ∧ d.kind = p.2 := by
  cases outcome with
  | success evaluation => cases h
  | failure d =>
    cases h
    exact ⟨d, rfl, rfl, rfl⟩

/-- An end tag of another name in the second line, first without a backtrace and then with one. -/
theorem failures_point_second_line :
    (∃ d, stillOutcome "<a>\r\n</b>" "a" = .failure d ∧ d.kind = "XmlSyntaxError" ∧
      d.PointsInto "<a>\r\n</b>" ∧ d.trace = none) ∧
    ∃ d, (Pipeline.mk (m := Id) (engine .none fun _ => some "  0: main\n") ⟨2, ' '⟩
        (Duration.ofNanoseconds 0)).run "<a>\r\n</b>" "a" = .failure d ∧
      d.PointsInto "<a>\r\n</b>" ∧ d.ShowsCaptured (some "  0: main\n") := by
  constructor
  · obtain ⟨d, hrun, hphase, -⟩ := exists_failure (p := (.parsing, "XmlSyntaxError"))
      (show (stillOutcome "<a>\r\n</b>" "a").diagnostic?.map _ = _ by decide +kernel)
    have hreported := returns_id_iff.mp failures_point.2 d hrun
    obtain ⟨hkind, hpoints⟩ := hreported.parsing hphase
    exact ⟨d, hrun, hkind, hpoints, hreported.exact (.inr rfl)⟩
  · obtain ⟨d, hrun, hphase, -⟩ := exists_failure (p := (.parsing, "XmlSyntaxError"))
      (show ((Pipeline.mk (m := Id) (engine .none fun _ => some "  0: main\n") ⟨2, ' '⟩
        (Duration.ofNanoseconds 0)).run "<a>\r\n</b>" "a").diagnostic?.map _ = _ by decide +kernel)
    have hreported := returns_id_iff.mp failures_point.2 d hrun
    exact ⟨d, hrun, (hreported.parsing hphase).2, hreported.captured (by rw [hphase]; nofun)⟩

/-- A pair of parentheses around nothing: it is no blank query, and is reported as an empty one. -/
theorem parentheses_reported_empty :
    ¬ ∀ query d, stillOutcome "<a/>" query = .failure d → d.phase = .compiling →
      (d.kind = "EmptyExpression" ↔ Text.allBlank query = true) := by
  intro hclaim
  obtain ⟨d, hrun, hphase, hkind⟩ := exists_failure (p := (.compiling, "EmptyExpression"))
    (show (stillOutcome "<a/>" "()").diagnostic?.map _ = _ by decide +kernel)
  exact absurd ((hclaim "()" d hrun hphase).mp hkind) (by decide)

end XPathBench.XPath
