import XPathBench.Proofs.XPath.Alignment
import XPathBench.Proofs.XPath.Grammar
import XPathBench.Proofs.XPath.Runs

/-!
# Declared types

The type that a query announces is that of its value if the query is written plainly: if the outline
and the lexer see the same words, and the parser passes over none of them.

* `WrittenPlainly`: queries whose outline tells what the parser reads
* `declared_sound`: what runs declare
-/

namespace XPathBench.XPath

open Outline

variable {query : String} {e : Expr} {v : Value}

/-- No name goes on behind an operator that is a word and no name holds an ogham space mark, an axis
has a test behind it, and parentheses hold something unless they are those of a call. -/
structure WrittenPlainly (query : String) : Prop where
  apart : apartFrom false 0 query.toList = true
  plain : plain (TokenStream.ofText query).tokens = true

instance (query : String) : Decidable (WrittenPlainly query) :=
  decidable_of_iff (apartFrom false 0 query.toList = true ∧
      plain (TokenStream.ofText query).tokens = true)
    ⟨fun h => ⟨h.1, h.2⟩, fun h => ⟨h.apart, h.plain⟩⟩

/-- An expression yields the type that its query announces. -/
theorem announcedType_of_parse (hquery : WrittenPlainly query)
    (h : Expr.parse query = .ok (some e)) :
    announcedType query = .any ∨ e.Yields (announcedType query) := by
  cases hpieces : Outline.ofText? query.toList with
  | none =>
    left
    rw [announcedType, hpieces]
    rfl
  | some pieces =>
    have htype : announcedType query = typeOf pieces := by
      rw [announcedType, hpieces]
      rfl
    -- any pieces show that the tokens are cut to the end
    obtain ⟨cells, hcells, hspelt⟩ := exists_spelt none (TokenStream.ofText query).tokens
    obtain ⟨herror, _⟩ := Expr.sound_of_parse h hcells.symm hspelt (hcells ▸ hquery.plain)
    have hstart : Expects none false := .inl rfl
    obtain ⟨cells, hcells, hspelt, heq⟩ := exists_cells hstart herror hquery.apart hpieces
    obtain ⟨_, hfull, hsound⟩ := Expr.sound_of_parse h hcells.symm hspelt (hcells ▸ hquery.plain)
    have hannounces := hsound.announces
    rw [Announces, heq hfull hsound.operand.parted, typeOf_spelledOut, ← htype] at hannounces
    exact hannounces

theorem type_of_evaluate {compiled : Query} {bindings : Bindings} {document : Xml.Document}
    (hquery : WrittenPlainly query) (hcompile : Query.compile query = .ok compiled)
    (hevaluate : compiled.evaluate bindings document = .ok v) :
    compiled.declared = .any ∨ compiled.declared = v.type := by
  obtain ⟨hparse, hdeclared⟩ := compile_eq_ok hcompile
  rw [hdeclared]
  refine (announcedType_of_parse hquery hparse).imp_right fun hyields => ?_
  exact (hyields _ _ _ (evaluate_eq_ok hevaluate)).symm

theorem runtimeType_shown (document : Xml.Document) (indent : Indent) (v : Value) :
    (v.shown document indent).runtimeType.name = v.type.name := by
  cases v <;> rfl

variable {m : Type → Type} [Monad m] [LawfulMonad m]

/-- A run that succeeds declares the type of its value, or none. -/
theorem declared_sound {bindings : Bindings} {backtraces : Backtraces} {indent : Indent}
    {clock : m Duration} {document : String} (hquery : WrittenPlainly query) :
    Returns ((Pipeline.mk (engine bindings backtraces) indent clock).run document query)
      fun outcome => ∀ evaluation, outcome = .success evaluation → evaluation.declared = .any ∨
        evaluation.declared.name = evaluation.value.runtimeType.name := by
  refine returns_run_engine.mono fun outcome htold evaluation houtcome => ?_
  subst houtcome
  obtain ⟨parsed, compiled, v, -, hcompiled, hv, hresult⟩ := runResult_eq_ok htold.symm
  obtain ⟨hdeclared, hvalue⟩ := Prod.mk.inj hresult
  rw [hdeclared, hvalue, runtimeType_shown]
  exact (type_of_evaluate hquery hcompiled hv).imp_right (congrArg ResultType.name)

theorem exists_success {outcome : Outcome} {r : ResultType × RuntimeType}
    (h : outcome.evaluation?.map (fun e => (e.declared, e.value.runtimeType)) = some r) :
    ∃ evaluation, outcome = .success evaluation ∧ evaluation.declared = r.1 ∧
      evaluation.value.runtimeType = r.2 := by
  cases outcome with
  | failure diagnostic => cases h
  | success evaluation =>
    cases h
    exact ⟨evaluation, rfl, rfl, rfl⟩

/-- A union of paths with predicates. -/
theorem declared_sound_union :
    ∃ evaluation, stillOutcome "<a b=\"\"/>" "//a[@b or not(text())] | /a" = .success evaluation ∧
      evaluation.declared = .nodeSet ∧
        evaluation.declared.name = evaluation.value.runtimeType.name := by
  obtain ⟨evaluation, hrun, hdeclared, -⟩ := exists_success (r := (.nodeSet, .nodeSet))
    (show (stillOutcome "<a b=\"\"/>" "//a[@b or not(text())] | /a").evaluation?.map _ = _ by
      decide +kernel)
  have hquery : WrittenPlainly "//a[@b or not(text())] | /a" := by decide +kernel
  have hsound := returns_id_iff.mp (declared_sound hquery) evaluation hrun
  refine ⟨evaluation, hrun, hdeclared, hsound.resolve_left ?_⟩
  rw [hdeclared]
  decide

/-- A name that goes on behind an operator, an empty pair of parentheses, an axis without test, and
a blank that is a letter to the lexer: each makes a query declare another type. -/
theorem declared_types_differ :
    ¬ ∃ query ∈ ["a ora", "()'a'", "@'a'", "a\u1680or\u1680a"], ∀ evaluation,
      stillOutcome "<a/>" query = .success evaluation → evaluation.declared = .any ∨
        evaluation.declared.name = evaluation.value.runtimeType.name := by
  have htypes : ∀ query ∈ ["a ora", "()'a'", "@'a'", "a\u1680or\u1680a"],
      ∃ r ∈ [(ResultType.nodeSet, RuntimeType.boolean), (.nodeSet, .string), (.boolean, .nodeSet)],
        (stillOutcome "<a/>" query).evaluation?.map (fun e => (e.declared, e.value.runtimeType)) =
          some r := by decide +kernel
  have hdiffer : ∀ r ∈ [(ResultType.nodeSet, RuntimeType.boolean), (.nodeSet, .string),
      (.boolean, .nodeSet)], ¬ (r.1 = .any ∨ r.1.name = r.2.name) := by decide
  rintro ⟨query, hquery, hsound⟩
  obtain ⟨r, hr, htypes⟩ := htypes query hquery
  obtain ⟨evaluation, hrun, hdeclared, hruntime⟩ := exists_success htypes
  apply hdiffer r hr
  rw [← hdeclared, ← hruntime]
  exact hsound evaluation hrun

end XPathBench.XPath
