import XPathBench.CommandLine.Run
import XPathBench.Proofs.XPath.Runs

/-!
# What commands print

What a command prints is told by the document that it loads: laying out prints what `formatOutput`
tells, and an evaluation prints an outcome that tells what a run over the document tells.

* `formatOutput_eq`, `formatOutput_of_unreadable`: what laying out prints
* `resultFrom_load`: the document that a command loads
* `resultFrom_format`, `resultFrom_eval`: what the commands do with it
-/

namespace XPathBench.CommandLine

open Xml (Document)
open XPath (Bindings runResult)

variable {σ : Type} {inputs : Inputs (StateM σ)} {clock : StateM σ Duration} {color : Bool}
  {source : Source} {world : σ} {document : String} {captures : Captures}

/-! ## Documents that can be read, and others -/

theorem formatOutput_eq {d : Document} {backtrace : Option String} (size : Nat)
    (h : Document.load document = .ok d) :
    formatOutput size document backtrace = ⟨d.pretty (spaces size).margin, 0⟩ := by
  unfold formatOutput
  rw [h]

theorem formatOutput_of_unreadable {f : EngineFailure} (size : Nat)
    (h : Document.load document = .error f) (backtrace : Option String) :
    formatOutput size document backtrace =
      ⟨(Diagnostic.ofFailure .parsing (f.raised backtrace) (some document)).display,
        diagnosticExitCode⟩ := by
  unfold formatOutput
  rw [h]

theorem runResult_of_unreadable {f : EngineFailure} (h : Document.load document = .error f)
    (bindings : Bindings) (indent : Indent) (query : String) (backtraces : Backtraces) :
    runResult bindings indent document query backtraces =
      .error (.ofFailure .parsing (f.raised (backtraces .parsing)) (some document)) := by
  unfold runResult
  rw [h]

/-! ## Commands -/

theorem resultFrom_format {indent : Nat}
    (h : resultFrom (source.load inputs) world = .ok document) :
    resultFrom ((Command.format source indent).run inputs clock color captures) world =
      .ok (formatOutput indent document captures.format) := by
  obtain ⟨_, hresult⟩ := resultFrom_bind h fun document =>
    pure (formatOutput indent document captures.format)
  exact hresult

variable (clock : StateM σ Duration) (color : Bool) (captures : Captures)

/-- An evaluation goes on with its bindings in the world that loading leaves. -/
theorem exists_resultFrom_eval_eq (o : EvalOptions)
    (h : resultFrom (o.source.load inputs) world = .ok document) : ∃ later,
      resultFrom ((Command.eval o).run inputs clock color captures) world =
        resultFrom (match o.bindings with
          | .error fault => throw (.badBinding fault)
          | .ok bindings => do
            let pipeline : Pipeline (StateM σ) _ _ :=
              ⟨XPath.engine bindings captures.eval, spaces o.indent, clock⟩
            return evalOutput o.format (color && !o.noColor) (← pipeline.run document o.query) :
          ExceptT CommandError (StateM σ) Output) later :=
  resultFrom_bind h _

/-- An evaluation prints what its run tells. -/
theorem resultFrom_eval (o : EvalOptions) {bindings : Bindings}
    (h : resultFrom (o.source.load inputs) world = .ok document)
    (hbindings : o.bindings = .ok bindings) : ∃ outcome : Outcome,
      outcome.told = runResult bindings (spaces o.indent) document o.query captures.eval ∧
        resultFrom ((Command.eval o).run inputs clock color captures) world =
          .ok (evalOutput o.format (color && !o.noColor) outcome) := by
  obtain ⟨later, hresult⟩ := exists_resultFrom_eval_eq clock color captures o h
  obtain ⟨outcome, _, htold, hrun⟩ := XPath.returns_run_engine.resultFrom_bind
    (fun outcome => (return evalOutput o.format (color && !o.noColor) outcome :
      ExceptT CommandError (StateM σ) Output)) later
  refine ⟨outcome, htold, ?_⟩
  rw [hresult, hbindings]
  exact hrun

end XPathBench.CommandLine
