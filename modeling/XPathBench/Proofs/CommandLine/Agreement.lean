import XPathBench.Proofs.CommandLine.Outputs
import XPathBench.Proofs.XPath.Selections

/-!
# Agreement of the commands

An evaluation and the laying out of the same document print the same diagnostic if it cannot be
read, and what an evaluation shows of its root is what is printed when it is laid out.

* `exists_resultFrom_eval`: what an evaluation in plain text does with the document that it loads
* `eval_agrees_with_format`: the two commands on one document
-/

namespace XPathBench.CommandLine

open Xml (Document)
open XPath (Bindings Place Query runResult)

/-- The evaluation of a query without bindings that prints plain text. -/
def plainEval (query : String) (source : Source) (indent : Nat) : Command :=
  .eval ⟨query, source, [], [], indent, .text, true⟩

variable {σ : Type} {inputs : Inputs (StateM σ)} {clock : StateM σ Duration} {color : Bool}
  {source : Source} {indent : Nat} {world : σ} {document : String} {captures : Captures}

/-! ## Single commands -/

/-- An evaluation prints what its run tells. -/
theorem exists_resultFrom_eval (h : resultFrom (source.load inputs) world = .ok document)
    (query : String) : ∃ outcome : Outcome,
      outcome.told = runResult ⟨[], []⟩ (spaces indent) document query captures.eval ∧
        resultFrom ((plainEval query source indent).run inputs clock color captures) world =
          .ok (evalOutput .text false outcome) := by
  obtain ⟨outcome, htold, hresult⟩ :=
    resultFrom_eval clock color captures ⟨query, source, [], [], indent, .text, true⟩ h rfl
  rw [Bool.not_true, Bool.and_false] at hresult
  exact ⟨outcome, htold, hresult⟩

/-! ## The two commands -/

theorem compile_slash : Query.compile "/" = .ok ⟨.root, .nodeSet⟩ := by
  have h : (match Query.compile "/" with
    | .ok ⟨.root, .nodeSet⟩ => true
    | _ => false) = true := by decide +kernel
  split at h
  next heq => exact heq
  next => cases h

/-- The query for the root selects it, laid out afresh. -/
theorem runResult_slash {d : Document} (h : Document.load document = .ok d) (bindings : Bindings)
    (indent : Indent) (backtraces : Backtraces) :
    runResult bindings indent document "/" backtraces =
      .ok (.nodeSet, .nodeSet [⟨.root, d.pretty indent.margin⟩]) := by
  have hvalue : Query.evaluate bindings ⟨.root, .nodeSet⟩ d = .ok (.nodeSet [.root d]) := rfl
  have hlisted : Place.inDocumentOrder d [.root d] = [.root d] :=
    Place.inDocumentOrder_of_listed (List.singleton_sublist.mpr List.mem_cons_self)
      (List.forall_mem_singleton.mpr nofun)
  unfold runResult
  rw [h, compile_slash]
  dsimp only
  rw [hvalue]
  dsimp only
  rw [XPath.Value.shown, hlisted]
  rfl

/-- A document that cannot be read makes every evaluation print its diagnostic, with what is
captured in the run. -/
theorem resultFrom_eval_of_unreadable {f : EngineFailure}
    (h : resultFrom (source.load inputs) world = .ok document)
    (hload : Document.load document = .error f) (query : String) :
    resultFrom ((plainEval query source indent).run inputs clock color captures) world =
      .ok ⟨(Diagnostic.ofFailure .parsing (f.raised (captures.eval .parsing))
        (some document)).display, 2⟩ := by
  obtain ⟨outcome, htold, hresult⟩ := exists_resultFrom_eval h query
  rw [runResult_of_unreadable hload] at htold
  cases outcome with
  | success evaluation => cases htold
  | failure diagnostic =>
    obtain rfl := Except.error.inj htold
    exact hresult

/-- The evaluation of the root shows the document laid out afresh. -/
theorem exists_resultFrom_slash {d : Document}
    (h : resultFrom (source.load inputs) world = .ok document)
    (hload : Document.load document = .ok d) : ∃ timings,
      resultFrom ((plainEval "/" source indent).run inputs clock color captures) world =
        .ok ⟨(Outcome.success ⟨.nodeSet, .nodeSet [⟨.root, d.pretty (spaces indent).margin⟩],
          timings⟩).render, 0⟩ := by
  obtain ⟨outcome, htold, hresult⟩ := exists_resultFrom_eval h "/"
  rw [runResult_slash hload] at htold
  cases outcome with
  | failure diagnostic => cases htold
  | success evaluation =>
    obtain ⟨declared, value, timings⟩ := evaluation
    cases htold
    exact ⟨timings, hresult⟩

/-- An evaluation and the laying out of one document in one world. A source that cannot be loaded
makes both fail alike. If the document cannot be read, both print its diagnostic, whatever the
query, each with what it captures of its calls: the same text, then, if they capture the same, as
they do if no backtraces are asked for. If it can, the evaluation of the root succeeds, and shows it
by the text that laying out prints. -/
theorem eval_agrees_with_format (inputs : Inputs (StateM σ)) (clock : StateM σ Duration)
    (color : Bool) (source : Source) (indent : Nat) (world : σ) (captures : Captures) :
    let format := resultFrom ((Command.format source indent).run inputs clock color captures) world
    let eval query :=
      resultFrom ((plainEval query source indent).run inputs clock color captures) world
    match resultFrom (source.load inputs) world with
    | .error e => format = .error e ∧ ∀ query, eval query = .error e
    | .ok document => match Document.load document with
      | .error failure =>
          let diagnostic backtrace :=
            Diagnostic.ofFailure .parsing (failure.raised backtrace) (some document)
          format = .ok ⟨(diagnostic captures.format).display, 2⟩ ∧
            (∀ query, eval query = .ok ⟨(diagnostic (captures.eval .parsing)).display, 2⟩) ∧
              (captures.eval .parsing = captures.format → ∀ query, eval query = format)
      | .ok _ => ∃ text timings, format = .ok ⟨text, 0⟩ ∧
          eval "/" =
            .ok ⟨(Outcome.success ⟨.nodeSet, .nodeSet [⟨.root, text⟩], timings⟩).render, 0⟩ := by
  intro format eval
  split
  next e he =>
    exact ⟨resultFrom_bind_error he _, fun query => resultFrom_bind_error he _⟩
  next document hdocument =>
  have hformat : format = .ok (formatOutput indent document captures.format) :=
    resultFrom_format hdocument
  split
  next f hf =>
    intro diagnostic
    rw [formatOutput_of_unreadable indent hf] at hformat
    have heval (query : String) : eval query =
        .ok ⟨(diagnostic (captures.eval .parsing)).display, 2⟩ :=
      resultFrom_eval_of_unreadable hdocument hf query
    refine ⟨hformat, heval, fun hsame query => ?_⟩
    rw [heval query, hsame]
    exact hformat.symm
  next d hd =>
    obtain ⟨timings, heval⟩ := exists_resultFrom_slash hdocument hd
    refine ⟨d.pretty (spaces indent).margin, timings, ?_, heval⟩
    rw [hformat, formatOutput_eq indent hd]

/-- An end tag of another name, in the second line. -/
theorem eval_agrees_with_format_misnamed :
    let source : Source := ⟨.inline "<a>\r\n <b></a>", false⟩
    let inputs : Inputs (StateM Unit) := ⟨fun _ => pure none, pure none⟩
    let printed : Except CommandError Output :=
      .ok ⟨"Error parsing XML: $exception [XmlSyntaxError]: XML parsing error at 11: " ++
        "\x7bMismatchedElementEndName\x7d\n <b></a>\n      ^\n\nEnd of line.", 2⟩
    resultFrom ((Command.format source 2).run inputs (pure Duration.zero) true) () = printed ∧
      ∀ query, resultFrom ((plainEval query source 2).run inputs (pure Duration.zero) true) () =
        printed := by
  intro source inputs printed
  have hsource : resultFrom (source.load inputs) () = .ok "<a>\r\n <b></a>" := by rfl
  have hformat : resultFrom ((Command.format source 2).run inputs (pure Duration.zero) true) () =
      printed := by
    rw [resultFrom_format hsource]
    exact congrArg Except.ok (by decide +kernel)
  have hagree := eval_agrees_with_format inputs (pure Duration.zero) true source 2 () .none
  rw [hsource] at hagree
  have hunread : (Document.load "<a>\r\n <b></a>").isOk = false := by decide +kernel
  cases hload : Document.load "<a>\r\n <b></a>" with
  | ok d =>
    rw [hload] at hunread
    cases hunread
  | error f =>
    dsimp only at hagree
    rw [hload] at hagree
    exact ⟨hformat, fun query => (hagree.2.2 rfl query).trans hformat⟩

end XPathBench.CommandLine
