import Mathlib.Data.List.TakeDrop
import XPathBench.Proofs.CommandLine.Outputs
import XPathBench.Proofs.Summary

/-!
# The forms of what an evaluation prints

An evaluation prints a report, a report with a first line in color, or JSON, and ends with an exit
code. All of them tell the same.

* `TellsSuccess`, `TellsFailure`: a report has the first line that belongs to a JSON value
* `FormsAgree`: a report with its exit code, the colored report and a JSON value tell the same
* `formsAgree_of_told`: the forms of outcomes that tell the same
* `eval_forms_agree`: evaluations that differ in nothing but the form that is asked for
-/

namespace XPathBench.CommandLine

open XPath (Bindings runResult)

/-! ## First lines -/

/-- What the first line of a report says of a value, by the name of its type and by the members that
it has as JSON. -/
inductive Headline (value : Json) : String → String → Prop where
  | string {n : Nat} : value.member? "length" = some (.natural n) →
      Headline value "String" ("\x7bLength=" ++ toString n ++ "\x7d")
  | boolean {b : Bool} : value.member? "value" = some (.bool b) →
      Headline value "Boolean" (if b then "true" else "false")
  | number {line : String} : value.member? "text" = some (.text line) →
      Headline value "Number" line
  | nodeSet {n : Nat} : value.member? "count" = some (.natural n) →
      Headline value "NodeSet" ("\x7bCount=" ++ toString n ++ "\x7d")
  | unknown {text : String} : value.member? "text" = some (.text text) →
      Headline value "Unknown" ("\x7bunknown type\x7d " ++ text)

/-- A report starts as the report of a success with the types and the value that JSON tells. -/
def TellsSuccess (report : String) (json : Json) : Prop :=
  ∃ declared runtime value line rest, json.member? "declared" = some (.text declared) ∧
    json.member? "runtime" = some (.text runtime) ∧ json.member? "value" = some value ∧
    Headline value runtime line ∧
    report = "[ResultType." ++ declared ++ " -> " ++ runtime ++ "]: " ++ line ++ "\n" ++ rest

/-- A report starts as the report of a failure with the phase, kind and message that JSON tells. -/
def TellsFailure (report : String) (json : Json) : Prop :=
  ∃ (diagnostic : Json) (phase : Phase) (kind message rest : String),
    json.member? "diagnostic" = some diagnostic ∧
    diagnostic.member? "phase" = some (.text phase.name) ∧
    diagnostic.member? "kind" = some (.text kind) ∧
    diagnostic.member? "message" = some (.text message) ∧
    report = "Error " ++ phase.description ++ ": $exception [" ++ kind ++ "]: " ++ message ++
      "\n" ++ rest

/-- A report with its exit code, a colored report and a JSON value tell the same. -/
structure FormsAgree (plain : Output) (colored : String) (json : Json) : Prop where
  exitCode : plain.exitCode = 0 ∨ plain.exitCode = 2
  success_iff_status : plain.exitCode = 0 ↔ json.member? "status" = some (.text "success")
  success_iff_report : plain.exitCode = 0 ↔ "[ResultType.".toList <+: plain.text.toList
  failure_iff_status : plain.exitCode = 2 ↔ json.member? "status" = some (.text "failure")
  failure_iff_report : plain.exitCode = 2 ↔ "Error ".toList <+: plain.text.toList
  success : plain.exitCode = 0 → TellsSuccess plain.text json
  failure : plain.exitCode = 2 → TellsFailure plain.text json
  /-- The color surrounds what is before the first line feed. -/
  colored : ∃ line rest, plain.text = line ++ "\n" ++ rest ∧ '\n' ∉ line.toList ∧
    colored = (if plain.exitCode = 0 then "\x1b[38;2;079;166;255m" else "\x1b[31m") ++ "\x1b[1m" ++
      line ++ "\x1b[0m\x1b[39m" ++ "\n" ++ rest

/-! ## Reports -/

theorem headline_summary (v : ResultValue) : Headline v.summary v.runtimeType.name v.headline := by
  cases v with
  | text => exact .string rfl
  | boolean => exact .boolean rfl
  | number => exact .number rfl
  | nodeSet => exact .nodeSet rfl
  | unrecognized => exact .unknown rfl

/-- A report of a success starts with its header. -/
theorem exists_render_success (e : Evaluation) : ∃ rest,
    (Outcome.success e).render = e.value.header e.declared ++ "\n" ++ rest := by
  refine ⟨_, String.intercalate_cons_of_ne_nil ?_⟩
  apply List.append_ne_nil_of_right_ne_nil
  exact List.cons_ne_nil _ _

/-- A report of a failure starts with its header. -/
theorem exists_render_failure (d : Diagnostic) : ∃ rest,
    (Outcome.failure d).render = d.header ++ "\n" ++ rest := by
  refine ⟨_, String.intercalate_cons_of_ne_nil ?_⟩
  apply List.append_ne_nil_of_right_ne_nil
  exact List.cons_ne_nil _ _

theorem tellsSuccess_render (e : Evaluation) {json : Json}
    (hdeclared : json.member? "declared" = some (.text e.declared.name))
    (hruntime : json.member? "runtime" = some (.text e.value.runtimeType.name))
    (hvalue : json.member? "value" = some e.value.summary) :
    TellsSuccess (Outcome.success e).render json := by
  obtain ⟨rest, hrest⟩ := exists_render_success e
  refine ⟨_, _, _, e.value.headline, rest, hdeclared, hruntime, hvalue, headline_summary e.value,
    ?_⟩
  rw [hrest, ResultValue.header_eq]
  simp only [String.append_assoc]

theorem tellsFailure_render (d : Diagnostic) :
    TellsFailure (Outcome.failure d).render (Outcome.failure d).summary := by
  obtain ⟨rest, hrest⟩ := exists_render_failure d
  exact ⟨d.summary, d.phase, d.kind, d.message, rest, rfl, rfl, rfl, rfl, hrest⟩

/-! ## Color -/

/-- Coloring surrounds the first line of a report. -/
theorem coloredReport_eq {outcome : Outcome} {line rest : String}
    (h : outcome.render = line ++ "\n" ++ rest) (hline : '\n' ∉ line.toList) :
    coloredReport outcome = inColor outcome.isSuccess line ++ "\n" ++ rest := by
  have hbefore : ∀ c ∈ line.toList, (c != '\n') = true := by
    intro c hc
    exact bne_iff_ne.mpr fun heq => hline (heq ▸ hc)
  have hlist : outcome.render.toList = line.toList ++ '\n' :: rest.toList := by simp [h]
  have hspan : outcome.render.toList.span (· != '\n') = (line.toList, '\n' :: rest.toList) := by
    rw [List.span_eq_takeWhile_dropWhile, hlist, List.takeWhile_append_of_pos hbefore,
      List.dropWhile_append_of_pos hbefore]
    simp
  rw [coloredReport, hspan]
  simp only [String.ofList_toList]

/-- A report has a first line. -/
theorem exists_first_line (outcome : Outcome) : ∃ line rest,
    outcome.render = line ++ "\n" ++ rest ∧ '\n' ∉ line.toList := by
  obtain ⟨front, back, h⟩ : ∃ front back, outcome.render = front ++ "\n" ++ back := by
    cases outcome with
    | success e => exact ⟨_, exists_render_success e⟩
    | failure d => exact ⟨_, exists_render_failure d⟩
  have hmem : '\n' ∈ outcome.render.toList := by simp [h]
  obtain ⟨line, rest, hlist, hline⟩ := List.eq_append_cons_of_mem hmem
  refine ⟨String.ofList line, String.ofList rest, ?_, by simpa using hline⟩
  exact String.toList_inj.mp (by simp [hlist])

/-! ## Forms of one outcome -/

theorem TellsSuccess.startsWith {report : String} {json : Json} (h : TellsSuccess report json) :
    "[ResultType.".toList <+: report.toList := by
  obtain ⟨_, _, _, _, _, -, -, -, -, rfl⟩ := h
  simp only [String.toList_append, List.append_assoc]
  exact List.prefix_append _ _

theorem TellsFailure.startsWith {report : String} {json : Json} (h : TellsFailure report json) :
    "Error ".toList <+: report.toList := by
  obtain ⟨_, _, _, _, _, -, -, -, -, rfl⟩ := h
  simp only [String.toList_append, List.append_assoc]
  exact List.prefix_append _ _

/-- The two kinds of reports differ in their first character. -/
theorem not_both_startWith {cs : List Char} (hsuccess : "[ResultType.".toList <+: cs)
    (hfailure : "Error ".toList <+: cs) : False := by
  obtain ⟨rest, rfl⟩ := hsuccess
  obtain ⟨rest', hrest'⟩ := hfailure
  cases (List.cons.inj hrest').1

theorem member?_status (outcome : Outcome) : outcome.summary.member? "status" =
    some (.text (if outcome.isSuccess then "success" else "failure")) := by
  cases outcome <;> rfl

theorem isSuccess_of_told {outcome outcome' : Outcome} (h : outcome'.told = outcome.told) :
    outcome'.isSuccess = outcome.isSuccess := by
  cases outcome <;> cases outcome' <;> first | rfl | cases h

/-- The report and the JSON value of outcomes that tell the same. -/
theorem tells_of_told {outcome outcome' : Outcome} (h : outcome'.told = outcome.told) :
    if outcome.isSuccess then TellsSuccess outcome.render outcome'.summary
    else TellsFailure outcome.render outcome'.summary := by
  cases outcome with
  | success e =>
    cases outcome' with
    | failure d => cases h
    | success e' =>
      obtain ⟨declared, value, timings⟩ := e
      cases h
      exact tellsSuccess_render _ rfl rfl rfl
  | failure d =>
    cases outcome' with
    | success e => cases h
    | failure d' =>
      cases h
      exact tellsFailure_render d

/-- The forms of two outcomes that tell the same. -/
theorem formsAgree_of_told {outcome outcome' : Outcome} (h : outcome'.told = outcome.told) :
    FormsAgree (evalOutput .text false outcome) (coloredReport outcome) outcome'.summary := by
  obtain ⟨line, rest, hrender, hline⟩ := exists_first_line outcome
  have hcolored := coloredReport_eq hrender hline
  have htells := tells_of_told h
  have hstatus := member?_status outcome'
  rw [isSuccess_of_told h] at hstatus
  have hexit : (evalOutput .text false outcome).exitCode = if outcome.isSuccess then 0 else 2 := rfl
  cases hsuccess : outcome.isSuccess with
  | true =>
    rw [hsuccess] at hcolored htells hstatus hexit
    have hnot : ¬ (evalOutput .text false outcome).exitCode = 2 := by simp [hexit]
    exact
      { exitCode := .inl hexit
        success_iff_status := iff_of_true hexit hstatus
        success_iff_report := iff_of_true hexit htells.startsWith
        failure_iff_status := iff_of_false hnot (by simp [hstatus])
        failure_iff_report := iff_of_false hnot (not_both_startWith htells.startsWith)
        success := fun _ => htells
        failure := fun h => absurd h hnot
        colored := ⟨line, rest, hrender, hline, by rw [hcolored, hexit]; rfl⟩ }
  | false =>
    rw [hsuccess] at hcolored htells hstatus hexit
    have hnot : ¬ (evalOutput .text false outcome).exitCode = 0 := by simp [hexit]
    exact
      { exitCode := .inr hexit
        success_iff_status := iff_of_false hnot (by simp [hstatus])
        success_iff_report := iff_of_false hnot
          fun hstarts => not_both_startWith hstarts htells.startsWith
        failure_iff_status := iff_of_true hexit hstatus
        failure_iff_report := iff_of_true hexit htells.startsWith
        success := fun h => absurd h hnot
        failure := fun _ => htells
        colored := ⟨line, rest, hrender, hline, by rw [hcolored, hexit]; rfl⟩ }

/-! ## Evaluations -/

/-- The evaluation with another form asked for. -/
def EvalOptions.printing (o : EvalOptions) (format : OutputFormat) (noColor : Bool) :
    EvalOptions :=
  { o with format := format, noColor := noColor }

section Commands

variable {σ : Type} {inputs : Inputs (StateM σ)} {clock : StateM σ Duration} {world : σ}
  {document : String} {o : EvalOptions} {bindings : Bindings}

/-- In one world there is one outcome, whatever form is asked for. -/
theorem exists_outcome (clock : StateM σ Duration) (captures : Captures)
    (hload : resultFrom (o.source.load inputs) world = .ok document)
    (hbindings : o.bindings = .ok bindings) : ∃ outcome : Outcome,
      outcome.told = runResult bindings (spaces o.indent) document o.query captures.eval ∧
        ∀ format noColor color,
          resultFrom ((Command.eval (o.printing format noColor)).run inputs clock color captures)
            world = .ok (evalOutput format (color && !noColor) outcome) := by
  obtain ⟨later, hlater⟩ := exists_forall_resultFrom_bind Output hload
  have hreturns : Returns ((Pipeline.mk (XPath.engine bindings captures.eval) (spaces o.indent)
      clock).run document o.query) fun outcome =>
        outcome.told = runResult bindings (spaces o.indent) document o.query captures.eval :=
    XPath.returns_run_engine
  obtain ⟨outcome, _, htold, hrun⟩ :=
    hreturns.exists_forall_resultFrom_bind CommandError Output later
  refine ⟨outcome, htold, fun format noColor color => ?_⟩
  refine (hlater _).trans ?_
  have hsame : (o.printing format noColor).bindings = .ok bindings := hbindings
  rw [hsame]
  exact hrun fun outcome => return evalOutput format (color && !noColor) outcome

/-- The forms of an evaluation that loads its document and has proper bindings. The report and the
colored report are printed in one world, in which the clock shows the same; the JSON text may come
from another world in which the same document is loaded. -/
theorem eval_forms_agree {σ' : Type} {inputs' : Inputs (StateM σ')} {world' : σ'}
    (hload : resultFrom (o.source.load inputs) world = .ok document)
    (hload' : resultFrom (o.source.load inputs') world' = .ok document)
    (hbindings : o.bindings = .ok bindings) (clock : StateM σ Duration)
    (clock' : StateM σ' Duration) (terminal terminal' : Bool) (captures : Captures) :
    let eval format noColor color :=
      resultFrom ((Command.eval (o.printing format noColor)).run inputs clock color captures) world
    let eval' format noColor color := resultFrom
      ((Command.eval (o.printing format noColor)).run inputs' clock' color captures) world'
    ∃ (plain : Output) (colored : String) (json : Json),
      eval .text true terminal = .ok plain ∧
      eval .text false false = .ok plain ∧
      eval .text false true = .ok ⟨colored, plain.exitCode⟩ ∧
      (∀ noColor, eval' .json noColor terminal' = .ok ⟨json.pretty, plain.exitCode⟩) ∧
      FormsAgree plain colored json := by
  intro eval eval'
  obtain ⟨outcome, htold, heval⟩ := exists_outcome clock captures hload hbindings
  obtain ⟨outcome', htold', heval'⟩ := exists_outcome clock' captures hload' hbindings
  have hsame : outcome'.told = outcome.told := htold'.trans htold.symm
  refine ⟨evalOutput .text false outcome, coloredReport outcome, outcome'.summary, ?_,
    heval .text false false, heval .text false true, fun noColor => ?_, formsAgree_of_told hsame⟩
  · exact (heval .text true terminal).trans (by rw [Bool.not_true, Bool.and_false])
  · have hjson := heval' .json noColor terminal'
    rw [evalOutput, isSuccess_of_told hsame] at hjson
    exact hjson

end Commands

/-- A query that succeeds. -/
theorem eval_forms_agree_boolean :
    let o : EvalOptions := ⟨"true()", ⟨.inline "<a/>", false⟩, [], [], 1, .text, false⟩
    let inputs : Inputs (StateM Unit) := ⟨fun _ => pure none, pure none⟩
    resultFrom (o.source.load inputs) () = .ok "<a/>" ∧ o.bindings = .ok ⟨[], []⟩ ∧
      ∃ (plain : Output) (colored : String) (json : Json),
        resultFrom ((Command.eval o).run inputs (pure Duration.zero) true) () =
          .ok ⟨colored, plain.exitCode⟩ ∧
        FormsAgree plain colored json := by
  intro o inputs
  have hload : resultFrom (o.source.load inputs) () = .ok "<a/>" := by decide +kernel
  have hbindings : o.bindings = .ok ⟨[], []⟩ := by rfl
  obtain ⟨plain, colored, json, -, -, hcolored, -, hagree⟩ := eval_forms_agree hload hload hbindings
    (pure Duration.zero) (pure Duration.zero) true true .none
  exact ⟨hload, hbindings, plain, colored, json, hcolored, hagree⟩

end XPathBench.CommandLine
